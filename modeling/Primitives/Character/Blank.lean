/-!
Blank characters. A numeral may stand between characters of the Unicode property White_Space; the seed
variable is trimmed more generously, of the four information separators too.
-/
namespace Primitives.Character

def isBlank (c : Char) : Bool :=
  let n := c.toNat
  (0x09 ≤ n && n ≤ 0x0D) || n == 0x20 || n == 0x85 || n == 0xA0 || n == 0x1680 ||
    (0x2000 ≤ n && n ≤ 0x200A) || n == 0x2028 || n == 0x2029 || n == 0x202F || n == 0x205F || n == 0x3000

def isInformationSeparator (c : Char) : Bool := 0x1C ≤ c.toNat && c.toNat ≤ 0x1F

/-- The characters that an outer trim removes: blanks and information separators. -/
def isOuterBlank (c : Char) : Bool := isBlank c || isInformationSeparator c

/-- A list of characters without those at either end that satisfy a test. -/
def trim (isTrimmed : Char → Bool) (cs : List Char) : List Char :=
  ((cs.dropWhile isTrimmed).reverse.dropWhile isTrimmed).reverse

end Primitives.Character
