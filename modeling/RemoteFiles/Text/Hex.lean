/-!
# Hexadecimal digits

## Main definitions

* `Hex.digit`, `Hex.upperDigit` — the digit of a number below sixteen.
* `Hex.value?` — the number a digit stands for.
* `Hex.encode` — two lower-case digits for each byte.
* `Hex.ofNat` — a number in as few lower-case digits as it needs.
-/

namespace RemoteFiles
namespace Hex

/-- The lower-case digit of a number below sixteen. -/
def digit (n : Nat) : Char :=
  if n < 10 then Char.ofNat (0x30 + n) else Char.ofNat (0x57 + n)

/-- The upper-case digit of a number below sixteen. -/
def upperDigit (n : Nat) : Char :=
  if n < 10 then Char.ofNat (0x30 + n) else Char.ofNat (0x37 + n)

/-- The number a digit of either case stands for, given by the digit's code. -/
def value? (code : Nat) : Option Nat :=
  if 0x30 ≤ code ∧ code ≤ 0x39 then some (code - 0x30)
  else if 0x41 ≤ code ∧ code ≤ 0x46 then some (code - 0x37)
  else if 0x61 ≤ code ∧ code ≤ 0x66 then some (code - 0x57)
  else none

/-- The two lower-case digits of a byte. -/
def byte (b : UInt8) : List Char := [digit (b.toNat / 16), digit (b.toNat % 16)]

/-- The two upper-case digits of a byte. -/
def upperByte (b : UInt8) : List Char := [upperDigit (b.toNat / 16), upperDigit (b.toNat % 16)]

/-- Bytes as text, two lower-case digits each. -/
def encode (bs : List UInt8) : String := String.ofList (bs.flatMap byte)

/-- A number in as few lower-case digits as it needs, and in one for zero. -/
def ofNat (n : Nat) : List Char := Nat.toDigits 16 n

theorem length_flatMap_byte (bs : List UInt8) : (bs.flatMap byte).length = 2 * bs.length := by
  induction bs with
  | nil => rfl
  | cons b bs ih => simp only [List.flatMap_cons, List.length_append, byte, List.length_cons,
      List.length_nil, ih]; omega

theorem exists_digit_of_mem_flatMap_byte {bs : List UInt8} {c : Char} (h : c ∈ bs.flatMap byte) :
    ∃ n < 16, c = digit n := by
  obtain ⟨b, _, hb⟩ := List.mem_flatMap.mp h
  have hlt := b.toNat_lt
  simp only [byte, List.mem_cons, List.not_mem_nil, or_false] at hb
  rcases hb with rfl | rfl
  · exact ⟨b.toNat / 16, by omega, rfl⟩
  · exact ⟨b.toNat % 16, by omega, rfl⟩

end Hex
end RemoteFiles
