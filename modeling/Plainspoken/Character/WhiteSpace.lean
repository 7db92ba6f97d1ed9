import Plainspoken.Character.Runs

/-!
# White space

The characters with the white-space property of the Unicode standard, and the
trimming of texts at both ends.
-/

namespace Plainspoken

namespace Character

def whiteSpaceBoundaries : List Nat := [
    0x9, 0xE, 0x20, 0x21, 0x85, 0x86, 0xA0, 0xA1, 0x1680, 0x1681, 0x2000, 0x200B, 0x2028,
    0x202A, 0x202F, 0x2030, 0x205F, 0x2060, 0x3000, 0x3001]

def isWhiteSpace (character : Char) : Bool :=
  inRuns whiteSpaceBoundaries character.toNat

def trim (characters : List Char) : List Char :=
  ((characters.dropWhile isWhiteSpace).reverse.dropWhile isWhiteSpace).reverse

end Character

end Plainspoken
