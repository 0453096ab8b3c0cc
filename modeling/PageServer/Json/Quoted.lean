import PageServer.Text.Utf8

/-!
# Quoted strings

The bytes of a string in JSON text. Writing escapes the quote, the backslash and control
bytes; reading also takes every other escape that the format allows, and refuses text that
is not UTF-8.
-/

namespace PageServer
namespace Json

def quote : UInt8 := 0x22

def backslash : UInt8 := 0x5C

def hexDigit (n : Nat) : UInt8 :=
  UInt8.ofNat (Nat.digitChar n).toNat

/-- The letter that stands for a control byte behind a backslash. -/
def shortEscape? (b : UInt8) : Option UInt8 :=
  if b = 0x08 then some 0x62
  else if b = 0x09 then some 0x74
  else if b = 0x0A then some 0x6E
  else if b = 0x0C then some 0x66
  else if b = 0x0D then some 0x72
  else none

def escapeByte (b : UInt8) : Bytes :=
  if b = quote ∨ b = backslash then [backslash, b]
  else if b < 0x20 then
    match shortEscape? b with
    | some letter => [backslash, letter]
    | none => [backslash, 0x75, 0x30, 0x30, hexDigit (b.toNat / 16), hexDigit (b.toNat % 16)]
  else [b]

/-- A string in quotes. -/
def quoted (s : String) : Bytes :=
  quote :: (Text.encode s).flatMap escapeByte ++ [quote]

def hexValue? (b : UInt8) : Option Nat :=
  if 0x30 ≤ b ∧ b ≤ 0x39 then some (b.toNat - 0x30)
  else if 0x41 ≤ b ∧ b ≤ 0x46 then some (b.toNat - 0x41 + 10)
  else if 0x61 ≤ b ∧ b ≤ 0x66 then some (b.toNat - 0x61 + 10)
  else none

/-- Four hexadecimal digits. -/
def hex4? : Bytes → Option (Nat × Bytes)
  | a :: b :: c :: d :: rest => do
    let n := ((← hexValue? a) * 16 + (← hexValue? b)) * 256
    return (n + (← hexValue? c) * 16 + (← hexValue? d), rest)
  | _ => none

def charBytes (n : Nat) : Bytes :=
  Text.encode (String.singleton (Char.ofNat n))

/-- The character behind a `\u`; one beyond the basic plane takes two such escapes. -/
def unicodeEscape? (s : Bytes) : Option (Bytes × Bytes) :=
  match hex4? s with
  | none => none
  | some (n, rest) =>
    if n < 0xD800 ∨ 0xDFFF < n then some (charBytes n, rest)
    else if 0xDC00 ≤ n then none
    else match rest with
      | 0x5C :: 0x75 :: rest => match hex4? rest with
        | none => none
        | some (m, rest) =>
          if 0xDC00 ≤ m ∧ m ≤ 0xDFFF then
            some (charBytes (0x10000 + (n - 0xD800) * 0x400 + (m - 0xDC00)), rest)
          else none
      | _ => none

/-- The byte that a letter behind a backslash stands for. -/
def letterValue? (b : UInt8) : Option UInt8 :=
  if b = quote ∨ b = backslash ∨ b = 0x2F then some b
  else if b = 0x62 then some 0x08
  else if b = 0x74 then some 0x09
  else if b = 0x6E then some 0x0A
  else if b = 0x66 then some 0x0C
  else if b = 0x72 then some 0x0D
  else none

/-- What follows a backslash. -/
def escape? : Bytes → Option (Bytes × Bytes)
  | [] => none
  | b :: rest =>
    if b = 0x75 then unicodeEscape? rest
    else (letterValue? b).map fun v => ([v], rest)

theorem length_hex4?_lt {s rest : Bytes} {n : Nat} (h : hex4? s = some (n, rest)) :
    rest.length < s.length := by
  unfold hex4? at h
  split at h
  · simp only [Option.bind_eq_bind, Option.bind_eq_some_iff, Option.pure_def, Option.some.injEq,
      Prod.mk.injEq] at h
    obtain ⟨_, _, _, _, _, _, _, _, _, rfl⟩ := h
    simp; omega
  · simp at h

theorem length_unicodeEscape?_lt {s b rest : Bytes} (h : unicodeEscape? s = some (b, rest)) :
    rest.length < s.length := by
  unfold unicodeEscape? at h
  split at h
  · simp at h
  · rename_i n r hn
    have := length_hex4?_lt hn
    split at h
    · simp only [Option.some.injEq, Prod.mk.injEq] at h
      obtain ⟨_, rfl⟩ := h; exact this
    · split at h
      · simp at h
      · split at h
        · split at h
          · simp at h
          · rename_i m r' hm
            have := length_hex4?_lt hm
            split at h
            · simp only [Option.some.injEq, Prod.mk.injEq] at h
              obtain ⟨_, rfl⟩ := h
              simp only [List.length_cons] at *; omega
            · simp at h
        · simp at h

theorem length_escape?_lt {s b rest : Bytes} (h : escape? s = some (b, rest)) :
    rest.length < s.length := by
  unfold escape? at h
  split at h
  · simp at h
  · split at h
    · have := length_unicodeEscape?_lt h; simp only [List.length_cons]; omega
    · simp only [Option.map_eq_some_iff, Prod.mk.injEq] at h
      obtain ⟨_, _, _, rfl⟩ := h
      simp

/-- The bytes of a string up to its closing quote, and what follows. -/
def unquote? (s : Bytes) : Option (Bytes × Bytes) :=
  match s with
  | [] => none
  | b :: rest =>
    if b = quote then some ([], rest)
    else if b = backslash then
      match _ : escape? rest with
      | none => none
      | some (v, rest') => (unquote? rest').map fun r => (v ++ r.1, r.2)
    else if b < 0x20 then none
    else (unquote? rest).map fun r => (b :: r.1, r.2)
termination_by s.length
decreasing_by
  · have := length_escape?_lt ‹_›; simp; omega
  · simp

/-- A string in quotes at the head of `s`. -/
def string? : Bytes → Option (String × Bytes)
  | [] => none
  | b :: rest =>
    if b = quote then do
      let (text, rest) ← unquote? rest
      return (← Text.decode? text, rest)
    else none

/-- Passes over a string whose value does not matter, up to and with its closing quote. -/
def skipString? : Bytes → Option Bytes
  | [] => none
  | b :: rest =>
    if b = quote then some rest
    else if b = backslash then match rest with
      | [] => none
      | 0x75 :: a :: b :: c :: d :: rest =>
        if [a, b, c, d].all fun x => (hexValue? x).isSome then skipString? rest else none
      | e :: rest => if (letterValue? e).isSome then skipString? rest else none
    else if b < 0x20 then none
    else skipString? rest

end Json
end PageServer
