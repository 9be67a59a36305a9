/-
# Words of 64 bits

Lengths, numbers and counts are natural numbers and integers here. Where the
width of a machine word limits them, or an operation is one on words, the
limits below say so.

Key definitions: `Word.count`, `Word.max`, `Word.signedLimit`.
-/

namespace BlockTransfer
namespace Word

/-- How many words there are: two to the power of 64. -/
def count : Nat := 0x10000000000000000

/-- The greatest word, read without a sign. -/
def max : Nat := count - 1

/-- The first number that is no word with a sign, and minus the least that is
one: two to the power of 63. -/
def signedLimit : Nat := 0x8000000000000000

end Word
end BlockTransfer
