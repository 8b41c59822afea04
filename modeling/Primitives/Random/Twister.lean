/-!
The 32-bit Mersenne Twister with a state of 624 words. `Twister.ofKey` fills the state from a key of words,
`Twister.next` gives the next output. A whole batch of words is renewed at once when all of them are used up.
-/
namespace Primitives

/-- The state of the generator: its words, and how many of them have been given out since they were made. -/
structure Twister where
  words : Vector UInt32 624
  used : Fin 625

namespace Twister

/-- The words made from a single number. -/
def spread (number : UInt32) : Vector UInt32 624 :=
  Nat.fold 624
    (fun i _ words =>
      if h : 0 < i then
        let before := words[i - 1]
        words.set i ((1812433253 : UInt32) * (before ^^^ (before >>> 30)) + i.toUInt32)
      else words.set i number)
    (Vector.replicate 624 0)

/-- Replaces the word at the position `t % 623 + 1` by a mixture of itself and the word before it, and copies
    the last word into the first one when that has been reached. -/
def mixAt (t : Nat) (mixture : UInt32 → UInt32 → UInt32) (words : Vector UInt32 624) : Vector UInt32 624 :=
  have inside : t % 623 < 623 := Nat.mod_lt _ (by decide)
  let word := mixture words[t % 623 + 1] words[t % 623]
  let words := words.set (t % 623 + 1) word
  if t % 623 = 622 then words.set 0 word else words

/-- The words made from a key: two rounds of mixing, the first of which brings in the words of the key one
    after the other, over and over again. -/
def keyed (key : Array UInt32) : Vector UInt32 624 :=
  let rounds := max 624 key.size
  let words := Nat.fold rounds
    (fun t _ words =>
      let j := t % key.size
      mixAt t (fun word before => (word ^^^ ((before ^^^ (before >>> 30)) * 1664525)) + key.getD j 0 + j.toUInt32)
        words)
    (spread 19650218)
  let words := Nat.fold 623
    (fun t _ words =>
      let i := (rounds + t) % 623 + 1
      mixAt (rounds + t) (fun word before => (word ^^^ ((before ^^^ (before >>> 30)) * 1566083941)) - i.toUInt32)
        words)
    words
  words.set 0 0x80000000

def ofKey (key : List UInt32) : Twister := ⟨keyed key.toArray, 624⟩

/-- The words of a number, which are its digits to the base 2^32, the least significant one first; zero has one
    word. -/
def keyOf (n : Nat) : List UInt32 :=
  if n < 4294967296 then [n.toUInt32] else n.toUInt32 :: keyOf (n / 4294967296)
termination_by n
decreasing_by omega

def ofNat (n : Nat) : Twister := ofKey (keyOf n)

def renewed (words : Vector UInt32 624) : Vector UInt32 624 :=
  Nat.fold 624
    (fun i _ words =>
      let joined := (words[i] &&& 0x80000000) ||| (words[(i + 1) % 624] &&& 0x7FFFFFFF)
      let twisted := if joined &&& 1 = 0 then joined >>> 1 else (joined >>> 1) ^^^ 0x9908B0DF
      words.set i (words[(i + 397) % 624] ^^^ twisted))
    words

/-- The output for a word of the state. -/
def tempered (word : UInt32) : UInt32 :=
  let y := word ^^^ (word >>> 11)
  let y := y ^^^ ((y <<< 7) &&& 0x9D2C5680)
  let y := y ^^^ ((y <<< 15) &&& 0xEFC60000)
  y ^^^ (y >>> 18)

/-- The next output, and the generator after it. -/
def next (g : Twister) : UInt32 × Twister :=
  if h : g.used.val < 624 then (tempered g.words[g.used.val], ⟨g.words, ⟨g.used.val + 1, by omega⟩⟩)
  else
    let words := renewed g.words
    (tempered words[0], ⟨words, 1⟩)

end Twister

end Primitives
