import PageServer.Json.Skip
import PageServer.Proofs.Text.Encoding

/-!
# Strings in quotes

What is written as a string in quotes is read as that string, whatever characters it has and
whatever comes behind it.
-/

namespace PageServer
namespace Json

theorem hexValue?_hexDigit : ∀ n < 16, hexValue? (hexDigit n) = some n := by
  decide

theorem charBytes_ascii : ∀ n < 0x20, charBytes n = [UInt8.ofNat n] := by
  decide

theorem letterValue?_shortEscape {n : Nat} (hn : n < 0x20) {letter : UInt8}
    (h : shortEscape? (UInt8.ofNat n) = some letter) :
    letter ≠ 0x75 ∧ letterValue? letter = some (UInt8.ofNat n) := by
  have hall : ∀ n < 0x20, (shortEscape? (UInt8.ofNat n)).all (fun letter =>
      letter != 0x75 && letterValue? letter == some (UInt8.ofNat n)) = true := by decide
  have hletter := hall n hn
  rw [h] at hletter
  simpa using hletter

/-- A control byte without a letter is read back from its number. -/
theorem unicodeEscape?_control {n : Nat} (hn : n < 0x20) (rest : Bytes) :
    unicodeEscape? (0x30 :: 0x30 :: hexDigit (n / 16) :: hexDigit (n % 16) :: rest) =
      some ([UInt8.ofNat n], rest) := by
  have hhigh := hexValue?_hexDigit (n / 16) (by omega)
  have hlow := hexValue?_hexDigit (n % 16) (by omega)
  have hzero : hexValue? 0x30 = some 0 := by decide
  have hhex : hex4? (0x30 :: 0x30 :: hexDigit (n / 16) :: hexDigit (n % 16) :: rest) =
      some (n, rest) := by
    simp only [hex4?, hzero, hhigh, hlow, Option.bind_eq_bind, Option.bind_some, Option.pure_def]
    rw [show (0 * 16 + 0) * 256 + n / 16 * 16 + n % 16 = n by omega]
  rw [unicodeEscape?, hhex]
  simp only [show n < 0xD800 by omega, true_or, if_true, charBytes_ascii n hn]

/-- What stands for a byte is either the byte itself or an escape that gives it back. -/
theorem escapeByte_cases (b : UInt8) :
    (escapeByte b = [b] ∧ b ≠ quote ∧ b ≠ backslash ∧ ¬ b < 0x20) ∨
      ∃ code, escapeByte b = backslash :: code ∧
        ∀ rest, escape? (code ++ rest) = some ([b], rest) := by
  unfold escapeByte
  split
  · next hspecial =>
    refine .inr ⟨[b], rfl, fun rest => ?_⟩
    have hu : b ≠ 0x75 := by
      rcases hspecial with rfl | rfl <;> decide
    have hvalue : letterValue? b = some b := by
      rcases hspecial with rfl | rfl <;> rfl
    rw [List.singleton_append, escape?, if_neg hu, hvalue]
    rfl
  · next hplain =>
    rw [not_or] at hplain
    split
    · next hcontrol =>
      have hn : b.toNat < 0x20 := hcontrol
      have hb : UInt8.ofNat b.toNat = b := UInt8.ofNat_toNat
      right
      split
      · next letter hletter =>
        rw [← hb] at hletter
        obtain ⟨hu, hvalue⟩ := letterValue?_shortEscape hn hletter
        refine ⟨[letter], rfl, fun rest => ?_⟩
        rw [List.singleton_append, escape?, if_neg hu, hvalue, hb]
        rfl
      · refine ⟨_, rfl, fun rest => ?_⟩
        have hcode := unicodeEscape?_control hn rest
        rw [hb] at hcode
        exact hcode
    · next hprinted => exact .inl ⟨rfl, hplain.1, hplain.2, hprinted⟩

theorem unquote?_escape {code v rest : Bytes} (h : escape? code = some (v, rest)) :
    unquote? (backslash :: code) = (unquote? rest).map fun r => (v ++ r.1, r.2) := by
  have hne : backslash ≠ quote := by decide
  rw [unquote?, if_neg hne, if_pos rfl]
  split <;> simp_all

/-- Bytes that have been escaped are read back up to the quote behind them. -/
theorem unquote?_escaped (bytes rest : Bytes) :
    unquote? (bytes.flatMap escapeByte ++ quote :: rest) = some (bytes, rest) := by
  induction bytes with
  | nil => rw [List.flatMap_nil, List.nil_append, unquote?, if_pos rfl]
  | cons b bytes ih =>
    rw [List.flatMap_cons, List.append_assoc]
    rcases escapeByte_cases b with ⟨hself, hquote, hbackslash, hprinted⟩ | ⟨code, hcode, hescape⟩
    · rw [hself, List.singleton_append, unquote?, if_neg hquote, if_neg hbackslash, if_neg hprinted,
        ih]
      rfl
    · rw [hcode, List.cons_append, unquote?_escape (hescape _), ih]
      rfl

/-- A string that has been quoted is read back, and what follows it is left. -/
theorem string?_quoted (s : String) (rest : Bytes) :
    string? (quoted s ++ rest) = some (s, rest) := by
  have hunquote := unquote?_escaped (Text.encode s) rest
  rw [quoted, List.cons_append, List.cons_append, List.append_assoc, List.singleton_append, string?,
    if_pos rfl, hunquote]
  simp only [Option.bind_eq_bind, Option.bind_some, Text.decode?_encode, Option.pure_def]

theorem skipSpace_spaces {spaces : Bytes} (h : spaces.all isSpace = true) (s : Bytes) :
    skipSpace (spaces ++ s) = skipSpace s :=
  List.dropWhile_append_of_pos (List.all_eq_true.mp h)

theorem skipSpace_quoted (s : String) (rest : Bytes) :
    skipSpace (quoted s ++ rest) = quoted s ++ rest := by
  rfl

end Json
end PageServer
