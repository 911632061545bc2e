import Treasury.Random.Twister

/-!
# Dice

Every random choice of a game goes through its `Dice`: a seeded generator, before which a host may
put a script of answers for bounded draws. Numbers below a bound are drawn by rejection, so each is
equally likely; shuffles and samples are built from such draws. The main statements say that a draw
below a bound is below it and that a shuffle neither loses nor adds anything.
-/

namespace Treasury.Random

/-- A source of random choices. -/
structure Dice where
  /-- Answers that the next bounded draws give, whatever their bounds. -/
  script : List Int := []
  /-- The generator behind every other draw. -/
  twister : Twister
  deriving Inhabited, DecidableEq, Repr

namespace Dice

/-- Dice seeded with a whole number. -/
def seeded (seed : Int) : Dice := { twister := .ofSeed seed }

/-- Dice that give the scripted answers first, and draw from seed 0 afterwards. -/
def scripted (answers : List Int) : Dice := { script := answers, twister := .ofSeed 0 }

/-- How many candidates a draw rejects before it settles for a remainder. -/
def patience : Nat := 4096

/-- The first of at most `tries + 1` candidates of `bits` bits that lies below `bound`, the last one
reduced to it. -/
def candidate (bound bits : Nat) : Nat → Twister → Nat × Twister
  | 0, t =>
    let (n, t) := t.nextBits bits
    (n % bound, t)
  | tries + 1, t =>
    let (n, t) := t.nextBits bits
    if n < bound then (n, t) else candidate bound bits tries t

/-- A number below `bound`, from the generator. -/
def below (bound : Nat) (d : Dice) : Nat × Dice :=
  let (n, t) := candidate bound (Nat.log2 bound + 1) patience d.twister
  (n, { d with twister := t })

/-- Draws below a positive bound are below it. -/
theorem candidate_lt (bound bits : Nat) (h : 0 < bound) (tries : Nat) (t : Twister) :
    (candidate bound bits tries t).1 < bound := by
  induction tries generalizing t with
  | zero => exact Nat.mod_lt _ h
  | succ tries ih =>
    simp only [candidate]
    split
    · assumption
    · exact ih _

/-- A number drawn below a positive bound is below it. -/
theorem below_lt (bound : Nat) (h : 0 < bound) (d : Dice) : (d.below bound).1 < bound :=
  candidate_lt bound (Nat.log2 bound + 1) h patience d.twister

/-- A number from `low` to `high`, or the next scripted answer. -/
def between (low high : Int) (d : Dice) : Int × Dice :=
  match d.script with
  | answer :: rest => (answer, { d with script := rest })
  | [] =>
    let (n, d) := d.below (high - low + 1).toNat
    (low + n, d)

/-- One of the items of a list, if it has any. -/
def pick (items : List α) (d : Dice) : Option α × Dice :=
  match items with
  | [] => (none, d)
  | _ =>
    let (i, d) := d.below items.length
    (items[i]?, d)

/-- The exchanges of a shuffle, from the last place down: place `i` trades with one not after it. -/
def exchanges (items : Array α) : Nat → Dice → Array α × Dice
  | 0, d => (items, d)
  | i + 1, d =>
    let (j, d) := d.below (i + 2)
    exchanges (items.swapIfInBounds (i + 1) j) i d

/-- The items in a random order. -/
def shuffle (items : List α) (d : Dice) : List α × Dice :=
  let (items, d) := exchanges items.toArray (items.length - 1) d
  (items.toList, d)

/-- Trading places keeps the number of items. -/
theorem size_exchanges (items : Array α) (i : Nat) (d : Dice) :
    (exchanges items i d).1.size = items.size := by
  induction i generalizing items d with
  | zero => rfl
  | succ i ih => simp [exchanges, ih]

/-- A shuffle keeps the number of items. -/
@[simp]
theorem length_shuffle (items : List α) (d : Dice) :
    (shuffle items d).1.length = items.length := by
  simp [shuffle, size_exchanges]

/-- Items taken one by one at random places of a pool, the last item filling each gap. -/
def drawn (pool : Array α) : Nat → Dice → List α × Dice
  | 0, d => ([], d)
  | count + 1, d =>
    let (j, d) := d.below pool.size
    let item := pool[j]?
    let last := pool.back?
    let pool := match last with
      | some last => (pool.setIfInBounds j last).pop
      | none => pool
    let (rest, d) := drawn pool count d
    (item.toList ++ rest, d)

/-- The first of at most `tries + 1` places below `bound` that is not among `taken`. -/
def untaken (taken : List Nat) (bound : Nat) : Nat → Dice → Nat × Dice
  | 0, d => d.below bound
  | tries + 1, d =>
    let (j, d) := d.below bound
    if j ∈ taken then untaken taken bound tries d else (j, d)

/-- Distinct places below `bound`, in the order in which they were drawn. -/
def places (bound : Nat) (taken : List Nat) : Nat → Dice → List Nat × Dice
  | 0, d => ([], d)
  | count + 1, d =>
    let (j, d) := untaken taken bound patience d
    let (rest, d) := places bound (j :: taken) count d
    (j :: rest, d)

/-- The least power of four that is not below `n`, at most `4 ^ fuel`. -/
def powerOfFour (n : Nat) : Nat → Nat
  | 0 => 1
  | fuel + 1 => if n ≤ 1 then 1 else 4 * powerOfFour ((n + 3) / 4) fuel

/-- The size up to which a sample of `count` items is drawn from a copy of the whole list. -/
def poolLimit (count : Nat) : Nat :=
  if count > 5 then 21 + powerOfFour (3 * count) (3 * count) else 21

/-- `count` items of a list at distinct places, in random order, if it has that many. -/
def sample (items : List α) (count : Int) (d : Dice) : Option (List α) × Dice :=
  if count < 0 ∨ count > items.length then (none, d)
  else if items.length ≤ poolLimit count.toNat then
    let (chosen, d) := drawn items.toArray count.toNat d
    (some chosen, d)
  else
    let (chosen, d) := places items.length [] count.toNat d
    (some (chosen.filterMap (items[·]?)), d)

end Dice

end Treasury.Random
