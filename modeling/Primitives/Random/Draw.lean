import Primitives.Random.Twister

/-!
Draws from a generator: words of any number of bits, numbers below a bound, and symbols of the alphanumeric
alphabet. A number below a bound is the first of successive words of as many bits as the bound has that lies
below it. A symbol takes two outputs, which make a fraction of 53 bits.
-/
namespace Primitives.Twister

/-- A word of `k` bits, for `k` from 1 on, whose digits to the base 2^32 are outputs, the least significant one
    first; of the last output only as many upper bits are taken as are missing. -/
def bits (k : Nat) (g : Twister) : Nat × Twister :=
  if k ≤ 32 then
    let (output, g) := g.next
    (output.toNat >>> (32 - k), g)
  else
    let (output, g) := g.next
    let (high, g) := bits (k - 32) g
    (output.toNat + 4294967296 * high, g)
termination_by k
decreasing_by omega

/-- The number of binary digits of a number. -/
def bitLength (n : Nat) : Nat := if n = 0 then 0 else n.log2 + 1

/-- The first of the next `tries` words of `k` bits that is less than `n`. -/
def firstBelow? (n k : Nat) : Nat → Twister → Option (Nat × Twister)
  | 0, _ => none
  | tries + 1, g =>
    let (word, g) := g.bits k
    if word < n then some (word, g) else firstBelow? n k tries g

/-- More than there are states of a generator. A search through as many words has seen every word that the
    generator will ever give. -/
def stateBound : Nat := Nat.pow 2 20000

/-- A number below `n`, for `n` from 1 on. If all words of the generator are too large there is none to draw;
    the answer is then zero, and the generator stays as it is. -/
def below (n : Nat) (g : Twister) : Nat × Twister :=
  (firstBelow? n (bitLength n) stateBound g).getD (0, g)

/-- A number from `low` to `high`, for `low` at most `high`. -/
def between (low high : Int) (g : Twister) : Int × Twister :=
  let (offset, g) := g.below (high - low + 1).toNat
  (low + offset, g)

/-- The nearest number to `n` that has at most `p` significant binary digits; of two the one whose last digit
    is even. -/
def rounded (p n : Nat) : Nat :=
  let unit := Nat.pow 2 (bitLength n - p)
  let quotient := n / unit
  let rest := n % unit
  if 2 * rest < unit ∨ (2 * rest = unit ∧ quotient % 2 = 0) then quotient * unit else (quotient + 1) * unit

/-- The lower case letters, the upper case letters and the digits. -/
def alphabet : List Char := "abcdefghijklmnopqrstuvwxyzABCDEFGHIJKLMNOPQRSTUVWXYZ0123456789".toList

/-- The place in the alphabet that two outputs stand for: a fraction of 53 bits, multiplied by the number of
    symbols, rounded to 53 significant bits and cut to an integer. The fraction is given by its numerator, the
    denominator being 2^53. -/
def symbolIndex (first second : UInt32) : Nat :=
  let fraction := (first >>> 5).toNat * 67108864 + (second >>> 6).toNat
  rounded 53 (fraction * 62) / 9007199254740992

def symbol (g : Twister) : Char × Twister :=
  let (first, g) := g.next
  let (second, g) := g.next
  (alphabet.getD (symbolIndex first second) 'a', g)

/-- The next symbols, as many as asked for, after those that are given, the last of which comes first. -/
def symbolsAfter : Nat → List Char → Twister → List Char × Twister
  | 0, given, g => (given.reverse, g)
  | count + 1, given, g =>
    let (c, g) := g.symbol
    symbolsAfter count (c :: given) g

/-- The next symbols, as many as asked for. -/
def symbols (count : Nat) (g : Twister) : List Char × Twister := symbolsAfter count [] g

end Primitives.Twister
