/-!
# The Mersenne Twister

The 32-bit generator MT19937: 624 words of state, renewed together when all have been handed out.
`ofSeed` spreads a whole number over the state, and `nextBits` hands out any number of bits. A game
seeded twice with one number draws the same bits.
-/

namespace Treasury.Random

/-- The state of the generator: its words and how many of them have been handed out. -/
structure Twister where
  /-- The 624 words of the current round. -/
  words : Array UInt32
  /-- How many words of the current round have been handed out. -/
  used : Nat
  deriving Inhabited, DecidableEq, Repr

namespace Twister

/-- The number of words of state. -/
def size : Nat := 624

/-- Word `i` of the state. -/
def word (words : Array UInt32) (i : Nat) : UInt32 := words.getD i 0

/-- A word mixed with its own top bits, as every seeding pass does before it multiplies. -/
def mixed (w : UInt32) : UInt32 := w ^^^ (w >>> 30)

/-- The state spread from a single word. -/
def spread (seed : UInt32) : Array UInt32 :=
  (List.range (size - 1)).foldl
    (fun words i => words.push (1812433253 * mixed (word words i) + UInt32.ofNat (i + 1))) #[seed]

/-- The 32-bit words of a natural number, least significant first, at least one of them. -/
def digits (n : Nat) : List UInt32 :=
  if n < 0x100000000 then [UInt32.ofNat n]
  else UInt32.ofNat (n % 0x100000000) :: digits (n / 0x100000000)
  termination_by n
  decreasing_by omega

/-- One pass over the state, starting at word 1: every step replaces a word by a function of its
step number, itself and its predecessor, and a step past the end first copies the last word to the
front. -/
def pass (steps : Nat) (f : Nat → Nat → UInt32 → UInt32 → UInt32) (start : Nat)
    (words : Array UInt32) : Array UInt32 × Nat :=
  (List.range steps).foldl
    (fun (words, i) step =>
      let words := words.setIfInBounds i (f step i (word words i) (word words (i - 1)))
      if i + 1 ≥ size then (words.setIfInBounds 0 (word words (size - 1)), 1) else (words, i + 1))
    (words, start)

/-- The generator seeded with a list of words. -/
def ofKey (key : List UInt32) : Twister :=
  let keys := key.toArray
  let absorb := fun step _ (own previous : UInt32) =>
    let j := step % keys.size
    (own ^^^ (mixed previous * 1664525)) + word keys j + UInt32.ofNat j
  let settle := fun _ i (own previous : UInt32) =>
    (own ^^^ (mixed previous * 1566083941)) - UInt32.ofNat i
  let (words, i) := pass (max size keys.size) absorb 1 (spread 19650218)
  let (words, _) := pass (size - 1) settle i words
  { words := words.setIfInBounds 0 0x80000000, used := size }

/-- The generator seeded with a whole number, whose sign does not matter. -/
def ofSeed (seed : Int) : Twister := ofKey (digits seed.natAbs)

/-- The words of the next round. -/
def renewed (words : Array UInt32) : Array UInt32 :=
  (List.range size).foldl
    (fun words i =>
      -- The words before `i` are those of the new round already.
      let joined :=
        (word words i &&& 0x80000000) ||| (word words ((i + 1) % size) &&& 0x7fffffff)
      let twist : UInt32 := if joined &&& 1 = 1 then 0x9908b0df else 0
      words.setIfInBounds i (word words ((i + 397) % size) ^^^ (joined >>> 1) ^^^ twist))
    words

/-- The output transformation of a word of state. -/
def tempered (w : UInt32) : UInt32 :=
  let w := w ^^^ (w >>> 11)
  let w := w ^^^ ((w <<< 7) &&& 0x9d2c5680)
  let w := w ^^^ ((w <<< 15) &&& 0xefc60000)
  w ^^^ (w >>> 18)

/-- The next 32 bits. -/
def next (t : Twister) : UInt32 × Twister :=
  let t := if t.used < size then t else { words := renewed t.words, used := 0 }
  (tempered (word t.words t.used), { t with used := t.used + 1 })

/-- The next `count` bits as a number below `2 ^ count`: whole words fill it from the least
significant end, and the last word gives its top bits. -/
def nextBits (count : Nat) (t : Twister) : Nat × Twister :=
  let (w, t) := t.next
  if count ≤ 32 then ((w >>> UInt32.ofNat (32 - count)).toNat, t)
  else
    let (rest, t) := nextBits (count - 32) t
    (w.toNat + 0x100000000 * rest, t)
  termination_by count
  decreasing_by omega

end Twister

end Treasury.Random
