import PageServer.Proofs.Http.BodyLength
import PageServer.Text.Utf8

/-!
# Texts and numbers as bytes

What is written as text is read back as it was, and so is a number that is written in
decimal.
-/

namespace PageServer
namespace Text

theorem encode_append (s t : String) : encode (s ++ t) = encode s ++ encode t := by
  rw [encode, String.toByteArray_append, ByteArray.data_append, Array.toList_append]
  rfl

theorem decode?_encode (s : String) : decode? (encode s) = some s := by
  have hbytes : (⟨(encode s).toArray⟩ : ByteArray) = s.toByteArray := by
    rw [encode, Array.toArray_toList]
  rw [decode?, hbytes, String.fromUTF8?, dif_pos s.isValidUTF8]
  rfl

theorem encode_ofList (l : List Char) :
    encode (String.ofList l) = l.flatMap String.utf8EncodeChar := by
  rw [encode, String.toByteArray_ofList, List.utf8Encode, List.data_toByteArray]

/-- The digits of a number. -/
def digits (n : Nat) : List Char :=
  Nat.toDigits 10 n

theorem toList_toString (n : Nat) : (toString n).toList = digits n :=
  String.toList_ofList

theorem isDigit_of_mem_digits {n : Nat} {c : Char} (h : c ∈ digits n) : c.isDigit = true :=
  Nat.isDigit_of_mem_toDigits (by decide) (by decide) h

theorem digits_ne_nil (n : Nat) : digits n ≠ [] :=
  Nat.toDigits_ne_nil

theorem decimalFrom_digits (n : Nat) : decimalFrom 0 (digits n) = n := by
  have hfold := Nat.ofDigitChars_toDigits (b := 10) (n := n) (by decide) (by decide)
  rw [Nat.ofDigitChars] at hfold
  simpa only [decimalFrom, digits, Nat.mul_comm] using hfold

theorem natural?_digits (n : Nat) : natural? (digits n) = some n :=
  natural?_eq_some_iff.mpr
    ⟨digits_ne_nil n, fun _ hc => isDigit_of_mem_digits hc, decimalFrom_digits n⟩

end Text
end PageServer
