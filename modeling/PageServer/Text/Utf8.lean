/-!
# UTF-8

The bytes of a text, and reading bytes as text: strictly, where every defect refuses the
whole, or leniently, where each maximal defective sequence becomes one replacement
character.
-/

namespace PageServer

abbrev Bytes := List UInt8

namespace Text

/-- The UTF-8 bytes of `s`. -/
def encode (s : String) : Bytes :=
  s.toByteArray.data.toList

/-- The text with the UTF-8 bytes `b`, if there is one. -/
def decode? (b : Bytes) : Option String :=
  String.fromUTF8? ⟨b.toArray⟩

/-- What a leading byte above 0x7F announces. -/
structure Lead where
  /-- Continuation bytes that must follow. -/
  owed : Nat
  /-- The payload bits of the leading byte. -/
  value : Nat
  /-- Bounds on the first continuation byte. -/
  low : UInt8
  high : UInt8

def lead? (b : UInt8) : Option Lead :=
  if b < 0xC2 then none
  else if b < 0xE0 then some ⟨1, b.toNat - 0xC0, 0x80, 0xBF⟩
  else if b < 0xF0 then
    some ⟨2, b.toNat - 0xE0, if b = 0xE0 then 0xA0 else 0x80, if b = 0xED then 0x9F else 0xBF⟩
  else if b < 0xF5 then
    some ⟨3, b.toNat - 0xF0, if b = 0xF0 then 0x90 else 0x80, if b = 0xF4 then 0x8F else 0xBF⟩
  else none

/-- Reads the continuation bytes owed; on a defect, the rest starts at the offending
byte. -/
def continuation? : (owed value : Nat) → (low high : UInt8) → Bytes → Option Char × Bytes
  | 0, value, _, _, rest => (some (Char.ofNat value), rest)
  | _ + 1, _, _, _, [] => (none, [])
  | owed + 1, value, low, high, b :: rest =>
    if low ≤ b ∧ b ≤ high then
      continuation? owed (value * 64 + (b.toNat - 0x80)) 0x80 0xBF rest
    else (none, b :: rest)

/-- The character that starts with `b`, or a maximal defect, and the bytes after it. -/
def char? (b : UInt8) (rest : Bytes) : Option Char × Bytes :=
  if b < 0x80 then (some (Char.ofNat b.toNat), rest)
  else match lead? b with
    | none => (none, rest)
    | some l => continuation? l.owed l.value l.low l.high rest

theorem length_continuation?_le
    (owed value : Nat) (low high : UInt8) (rest : Bytes) :
    (continuation? owed value low high rest).2.length ≤ rest.length := by
  induction rest generalizing owed value low high with
  | nil => cases owed <;> simp [continuation?]
  | cons b rest ih =>
    cases owed with
    | zero => simp [continuation?]
    | succ owed =>
      rw [continuation?]
      split
      · exact Nat.le_succ_of_le (ih ..)
      · simp

theorem length_char?_le (b : UInt8) (rest : Bytes) : (char? b rest).2.length ≤ rest.length := by
  unfold char?
  split
  · exact Nat.le_refl _
  · split
    · exact Nat.le_refl _
    · exact length_continuation?_le ..

/-- Reads bytes as text with U+FFFD for every maximal defect. -/
def decodeLossy : Bytes → List Char
  | [] => []
  | b :: rest =>
    have := length_char?_le b rest
    (char? b rest).1.getD '\uFFFD' :: decodeLossy (char? b rest).2
termination_by b => b.length
decreasing_by simp; omega

end Text
end PageServer
