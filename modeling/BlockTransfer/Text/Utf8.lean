import BlockTransfer.Bytes
/-!
# Reading bytes as text

Bytes are read as UTF-8. Where they are no UTF-8, the longest run that could
still have started a character is read as one replacement character, and reading
goes on after it.

Key definitions: `Utf8.decode`.
-/

namespace BlockTransfer
namespace Utf8

/-- The replacement character. -/
def replacement : Char := Char.ofNat 0xfffd

/-- What a first byte asks for: how many bytes follow, its own bits, and the
range of the byte after it. -/
def leading? (b : Nat) : Option (Nat × Nat × Nat × Nat) :=
  if b < 0xc2 then none
  else if b < 0xe0 then some (1, b - 0xc0, 0x80, 0xbf)
  else if b = 0xe0 then some (2, 0, 0xa0, 0xbf)
  else if b = 0xed then some (2, 0xd, 0x80, 0x9f)
  else if b < 0xf0 then some (2, b - 0xe0, 0x80, 0xbf)
  else if b = 0xf0 then some (3, 0, 0x90, 0xbf)
  else if b < 0xf4 then some (3, b - 0xf0, 0x80, 0xbf)
  else if b = 0xf4 then some (3, 4, 0x80, 0x8f)
  else none

/-- Reads the bytes that follow a first one: the character, or the replacement
if one of them is missing, and how many bytes were used. -/
def following : Nat → Nat → Nat → Nat → Nat → Bytes → Char × Nat
  | 0, bits, _, _, used, _ => (Char.ofNat bits, used)
  | n + 1, bits, low, high, used, data =>
    match data with
    | b :: rest =>
      if low ≤ b.toNat ∧ b.toNat ≤ high then
        following n (bits * 64 + (b.toNat - 0x80)) 0x80 0xbf (used + 1) rest
      else (replacement, used)
    | [] => (replacement, used)

/-- The first character of some bytes, and how many bytes after the first it
uses. -/
def first (b : UInt8) (rest : Bytes) : Char × Nat :=
  if b.toNat < 0x80 then (Char.ofNat b.toNat, 0)
  else match leading? b.toNat with
    | none => (replacement, 0)
    | some (n, bits, low, high) => following n bits low high 0 rest

/-- Reads bytes; `skip` of them belong to the character read last. -/
def decodeFrom : Nat → Bytes → List Char
  | _, [] => []
  | skip + 1, _ :: rest => decodeFrom skip rest
  | 0, b :: rest =>
    let (c, used) := first b rest
    c :: decodeFrom used rest

/-- The text that bytes stand for. -/
def decode (data : Bytes) : String := String.ofList (decodeFrom 0 data)

end Utf8
end BlockTransfer
