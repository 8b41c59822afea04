import Primitives.Character.Blank
import Primitives.Character.Digit

/-!
Decimal numerals. Writing gives the digits of an integer after an optional minus sign; no numeral has more
than `digitLimit` digits, so larger integers are not `Writable`. Reading is more generous: blanks around the
numeral, a plus sign, leading zeros, digits of any script and single underscores between digits are accepted.
-/
namespace Primitives.Numeral

/-- The greatest number of digits that a numeral may have. -/
def digitLimit : Nat := 4300

/-- The integers that a numeral within the limit can denote. -/
def Writable (n : Int) : Prop := n.natAbs < Nat.pow 10 digitLimit

instance (n : Int) : Decidable (Writable n) := inferInstanceAs (Decidable (n.natAbs < Nat.pow 10 digitLimit))

/-- The decimal digits of a natural number. -/
def digits (n : Nat) : String := String.ofList (Nat.toDigits 10 n)

def write (n : Int) : String := if n < 0 then "-" ++ digits n.natAbs else digits n.natAbs

/-- The values of a row of digits, in which single underscores may stand between two digits. -/
def digitValues? : List Char → Option (List Nat)
  | [] => none
  | [c] => (Character.digitValue? c).map ([·])
  | c :: '_' :: rest => do return (← Character.digitValue? c) :: (← digitValues? rest)
  | c :: rest => do return (← Character.digitValue? c) :: (← digitValues? rest)

/-- The number that a row of digit values denotes, the most significant one first. -/
def ofDigitValues (values : List Nat) : Nat := values.foldl (fun number value => 10 * number + value) 0

/-- Reads a row of digits within the limit. -/
def readMagnitude? (cs : List Char) : Option Nat := do
  let values ← digitValues? cs
  guard (values.length ≤ digitLimit)
  return ofDigitValues values

/-- Reads a numeral with an optional sign. -/
def readSigned? : List Char → Option Int
  | '-' :: rest => (readMagnitude? rest).map fun n => -(n : Int)
  | '+' :: rest => (readMagnitude? rest).map Int.ofNat
  | cs => (readMagnitude? cs).map Int.ofNat

def read? (text : String) : Option Int := readSigned? (Character.trim Character.isBlank text.toList)

end Primitives.Numeral
