import JokerRun.Random.Stream

/-
  Random choices drawn from a seed's stream.

  A generator is a seed and the number of words already
  used, so equal seeds and equal use give equal choices.

  Key definitions include:
    * `Generator`
    * `Generator.next`
    * `Generator.skip`
    * `Generator.below`
    * `Generator.shuffle`
-/

------------------------------------------------------------
-- Words
------------------------------------------------------------

namespace JokerRun

/- A place in the stream of a seed. -/
structure Generator where
  seed : UInt64
  used : Nat
deriving DecidableEq, Repr

namespace Generator

/- The generator at the start of a seed's stream. -/
def ofSeed
    (seed : UInt64) : Generator :=
  ⟨seed, 0⟩

/- The next word of 32 bits. -/
def nextWord
    (g : Generator) : UInt32 × Generator :=
  (Stream.word g.seed g.used,
    { g with used := g.used + 1 })

/- The next number of 64 bits: two words, the low one first. -/
def next
    (g : Generator) : UInt64 × Generator :=
  let (low, g) := g.nextWord
  let (high, g) := g.nextWord
  (low.toUInt64 ||| (high.toUInt64 <<< 32), g)

/- The generator after a number of 64-bit numbers. -/
def skip
    (g : Generator)
    (n : Nat) : Generator :=
  { g with used := g.used + 2 * n }

/- A number below a bound; none when the bound is zero. -/
def below
    (g : Generator)
    (bound : Nat) : Option Nat × Generator :=
  if bound = 0 then
    (none, g)
  else
    let (x, g) := g.next
    (some (x.toNat % bound), g)

------------------------------------------------------------
-- Even Choices
------------------------------------------------------------

/- How many words of 32 bits there are. -/
def wordCount : Nat :=
  4294967296

/- How many bits of 32 stand above a number's highest one. -/
def spareBits
    (range : Nat) : Nat :=
  31 - range.log2

/-
  Words whose product with the range has a low half up to
  this number are even between the choices.
-/
def zone
    (range : Nat) : Nat :=
  range * Nat.pow 2 (spareBits range) - 1

/-
  A number below the range, all equally likely: words that
  would favour some are passed over.  Each word is accepted
  with more than even odds, so the allowance of words is
  never used up.
-/
def choose
    (range : Nat) : Nat → Generator → Nat × Generator
  | 0, g => (0, g)
  | n + 1, g =>
      let (w, g) := g.nextWord
      let product := w.toNat * range
      if product % wordCount ≤ zone range then
        (product / wordCount, g)
      else
        choose range n g

/- The allowance of words for one choice. -/
def allowance : Nat :=
  4096

------------------------------------------------------------
-- Shuffling
------------------------------------------------------------

/- A list with the items at two positions exchanged. -/
def swap
    {α : Type}
    (xs : List α)
    (i j : Nat) : List α :=
  match xs[i]?, xs[j]? with
  | some x, some y => (xs.set i y).set j x
  | _, _ => xs

/-
  Each position from the given one down to 1 exchanged with
  a chosen position not after it.
-/
def shuffleFrom
    {α : Type} : Nat → List α → Generator → List α × Generator
  | 0, xs, g => (xs, g)
  | i + 1, xs, g =>
      let (j, g) := choose (i + 2) allowance g
      shuffleFrom i (swap xs (i + 1) j) g

/- A list in random order. -/
def shuffle
    {α : Type}
    (g : Generator)
    (xs : List α) : List α × Generator :=
  shuffleFrom (xs.length - 1) xs g

end Generator

end JokerRun
