/-
  The stream of random words that a seed gives.

  A seed is stretched to a key of eight words, and block `n`
  of the stream is the key under the ChaCha permutation of
  twelve rounds with counter `n`.  Word `i` of the stream is
  word `i % 16` of block `i / 16`.

  Key definitions include:
    * `Stream.key`
    * `Stream.block`
    * `Stream.word`
-/

------------------------------------------------------------
-- Stretching A Seed
------------------------------------------------------------

namespace JokerRun

namespace Stream

/- A word turned right by a number of bits below 32. -/
def turnRight
    (x : UInt32)
    (n : UInt32) : UInt32 :=
  (x >>> n) ||| (x <<< ((32 - n) % 32))

/- A word turned left by a number of bits below 32. -/
def turnLeft
    (x : UInt32)
    (n : UInt32) : UInt32 :=
  (x <<< n) ||| (x >>> ((32 - n) % 32))

/- The next state of the seed's linear sequence. -/
def advance
    (s : UInt64) : UInt64 :=
  s * 6364136223846793005 + 11634580027462260723

/- The word shown by a state of the seed's sequence. -/
def show32
    (s : UInt64) : UInt32 :=
  turnRight (((s >>> 18) ^^^ s) >>> 27).toUInt32
    (s >>> 59).toUInt32

/- The words of the states that follow one. -/
def stretch : Nat → UInt64 → List UInt32
  | 0, _ => []
  | n + 1, s =>
      let t := advance s
      show32 t :: stretch n t

/- The key of a seed: eight words. -/
def key
    (seed : UInt64) : List UInt32 :=
  stretch 8 seed

------------------------------------------------------------
-- Rows Of Words
------------------------------------------------------------

/- Four words side by side. -/
structure Row where
  w₀ : UInt32
  w₁ : UInt32
  w₂ : UInt32
  w₃ : UInt32
deriving DecidableEq, Repr

namespace Row

/- The row of the first four words of a list. -/
def ofList : List UInt32 → Row
  | a :: b :: c :: d :: _ => ⟨a, b, c, d⟩
  | _ => ⟨0, 0, 0, 0⟩

/- The words of a row. -/
def toList
    (r : Row) : List UInt32 :=
  [r.w₀, r.w₁, r.w₂, r.w₃]

/- Sums word by word. -/
def add
    (r s : Row) : Row :=
  ⟨r.w₀ + s.w₀, r.w₁ + s.w₁, r.w₂ + s.w₂, r.w₃ + s.w₃⟩

/- Exclusive or, turned left, word by word. -/
def mix
    (r s : Row)
    (n : UInt32) : Row :=
  ⟨turnLeft (r.w₀ ^^^ s.w₀) n, turnLeft (r.w₁ ^^^ s.w₁) n,
    turnLeft (r.w₂ ^^^ s.w₂) n, turnLeft (r.w₃ ^^^ s.w₃) n⟩

/- The row moved one word to the left, in a circle. -/
def shift
    (r : Row) : Row :=
  ⟨r.w₁, r.w₂, r.w₃, r.w₀⟩

end Row

------------------------------------------------------------
-- Rounds
------------------------------------------------------------

/- The sixteen words of a block as four rows. -/
structure Grid where
  a : Row
  b : Row
  c : Row
  d : Row
deriving DecidableEq, Repr

namespace Grid

/- One quarter round in each of the four columns. -/
def columns
    (g : Grid) : Grid :=
  let a := g.a.add g.b
  let d := g.d.mix a 16
  let c := g.c.add d
  let b := g.b.mix c 12
  let a := a.add b
  let d := d.mix a 8
  let c := c.add d
  let b := b.mix c 7
  ⟨a, b, c, d⟩

/- The grid whose columns are the diagonals. -/
def skew
    (g : Grid) : Grid :=
  ⟨g.a, g.b.shift, g.c.shift.shift,
    g.d.shift.shift.shift⟩

/- The grid whose diagonals are the columns. -/
def unskew
    (g : Grid) : Grid :=
  ⟨g.a, g.b.shift.shift.shift, g.c.shift.shift,
    g.d.shift⟩

/- One round of the columns and one of the diagonals. -/
def doubleRound
    (g : Grid) : Grid :=
  g.columns.skew.columns.unskew

/- Double rounds in a row. -/
def rounds : Nat → Grid → Grid
  | 0, g => g
  | n + 1, g => rounds n g.doubleRound

/- Sums word by word. -/
def add
    (g h : Grid) : Grid :=
  ⟨g.a.add h.a, g.b.add h.b, g.c.add h.c, g.d.add h.d⟩

/- The words of a grid, row by row. -/
def toList
    (g : Grid) : List UInt32 :=
  g.a.toList ++ g.b.toList ++ g.c.toList ++ g.d.toList

end Grid

------------------------------------------------------------
-- Blocks And Words
------------------------------------------------------------

/- The first row of every block. -/
def constants : Row :=
  ⟨0x61707865, 0x3320646e, 0x79622d32, 0x6b206574⟩

/- The grid of a block before its rounds. -/
def start
    (key : List UInt32)
    (counter : Nat) : Grid :=
  ⟨constants, Row.ofList key, Row.ofList (key.drop 4),
    ⟨UInt32.ofNat counter,
      UInt32.ofNat (counter / 4294967296), 0, 0⟩⟩

/- A block of sixteen words. -/
def block
    (seed : UInt64)
    (counter : Nat) : List UInt32 :=
  let g := start (key seed) counter
  (g.add (g.rounds 6)).toList

/- A word of the stream. -/
def word
    (seed : UInt64)
    (i : Nat) : UInt32 :=
  (block seed (i / 16)).getD (i % 16) 0

end Stream

end JokerRun
