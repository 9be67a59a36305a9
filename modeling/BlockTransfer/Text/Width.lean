/-
# The width of text on a terminal

Most characters take one column, the wide ones of the East Asian scripts and the
pictographs take two, and marks that combine with the character before take none.

Key definitions: `Width.ofText`.
-/

namespace BlockTransfer
namespace Width

/-- Characters that take two columns, as ranges of code points. -/
def wideRanges : List (Nat × Nat) :=
  [(0x1100, 0x115f), (0x231a, 0x231b), (0x2329, 0x232a), (0x23e9, 0x23ec), (0x23f0, 0x23f0),
   (0x23f3, 0x23f3), (0x25fd, 0x25fe), (0x2614, 0x2615), (0x2648, 0x2653), (0x267f, 0x267f),
   (0x2693, 0x2693), (0x26a1, 0x26a1), (0x26aa, 0x26ab), (0x26bd, 0x26be), (0x26c4, 0x26c5),
   (0x26ce, 0x26ce), (0x26d4, 0x26d4), (0x26ea, 0x26ea), (0x26f2, 0x26f3), (0x26f5, 0x26f5),
   (0x26fa, 0x26fa), (0x26fd, 0x26fd), (0x2705, 0x2705), (0x270a, 0x270b), (0x2728, 0x2728),
   (0x274c, 0x274c), (0x274e, 0x274e), (0x2753, 0x2755), (0x2757, 0x2757), (0x2795, 0x2797),
   (0x27b0, 0x27b0), (0x27bf, 0x27bf), (0x2b1b, 0x2b1c), (0x2b50, 0x2b50), (0x2b55, 0x2b55),
   (0x2e80, 0x2e99), (0x2e9b, 0x2ef3), (0x2f00, 0x2fd5), (0x2ff0, 0x303e), (0x3041, 0x3096),
   (0x309b, 0x30ff), (0x3105, 0x312f), (0x3131, 0x318e), (0x3190, 0x31e3), (0x31ef, 0x321e),
   (0x3220, 0x3247), (0x3250, 0xa48c), (0xa490, 0xa4c6), (0xa960, 0xa97c), (0xac00, 0xd7a3),
   (0xf900, 0xfaff), (0xfe10, 0xfe19), (0xfe30, 0xfe52), (0xfe54, 0xfe66), (0xfe68, 0xfe6b),
   (0xff01, 0xff60), (0xffe0, 0xffe6), (0x1f300, 0x1f320), (0x1f32d, 0x1f335),
   (0x1f337, 0x1f37c), (0x1f37e, 0x1f393), (0x1f3a0, 0x1f3ca), (0x1f3cf, 0x1f3d3),
   (0x1f3e0, 0x1f3f0), (0x1f3f4, 0x1f3f4), (0x1f3f8, 0x1f43e), (0x1f440, 0x1f440),
   (0x1f442, 0x1f4fc), (0x1f4ff, 0x1f53d), (0x1f54b, 0x1f54e), (0x1f550, 0x1f567),
   (0x1f5fb, 0x1f64f), (0x1f680, 0x1f6c5), (0x1f900, 0x1f9ff), (0x20000, 0x2fffd),
   (0x30000, 0x3fffd)]

/-- Characters that take no column, as ranges of code points. -/
def emptyRanges : List (Nat × Nat) :=
  [(0x300, 0x36f), (0x483, 0x489), (0x591, 0x5bd), (0x610, 0x61a), (0x64b, 0x65f),
   (0x6d6, 0x6dc), (0x900, 0x902), (0x93c, 0x93c), (0x941, 0x948), (0xe31, 0xe31),
   (0xe34, 0xe3a), (0xe47, 0xe4e), (0x1160, 0x11ff), (0x1ab0, 0x1ace), (0x1dc0, 0x1dff),
   (0x200b, 0x200f), (0x2028, 0x202e), (0x2060, 0x206f), (0x20d0, 0x20f0), (0x302a, 0x302d),
   (0x3099, 0x309a), (0xfe00, 0xfe0f), (0xfe20, 0xfe2f), (0xfeff, 0xfeff)]

def inRanges (ranges : List (Nat × Nat)) (n : Nat) : Bool :=
  ranges.any fun (low, high) => low ≤ n && n ≤ high

/-- The columns that a character takes. -/
def ofChar (c : Char) : Nat :=
  if inRanges emptyRanges c.toNat then 0 else if inRanges wideRanges c.toNat then 2 else 1

/-- The columns that a text takes. -/
def ofText (cs : List Char) : Nat := cs.foldl (fun n c => n + ofChar c) 0

end Width
end BlockTransfer
