import JokerRun.Positions

/-
  Areas: ordered slots for cards, up to a capacity.

  Key definitions include:
    * `Area`
    * `AreaError`
    * `Area.push`
    * `Area.take`
    * `Area.takeMany`
    * `Area.replace`
-/

------------------------------------------------------------
-- Areas
------------------------------------------------------------

namespace JokerRun

/- Items in slots, from slot 0 on. -/
structure Area (α : Type) where
  capacity : Nat
  items : List α
deriving DecidableEq, Repr

/- Why an area refuses an operation. -/
inductive AreaError where
  | full (capacity : Nat)
  | invalidIndex (index : Nat)
  | duplicateIndex (index : Nat)
deriving DecidableEq, Repr

/- The wording of a refusal. -/
def AreaError.message : AreaError → String
  | .full n => s!"area is full ({n} slots)"
  | .invalidIndex i => s!"no card at index {i}"
  | .duplicateIndex i => s!"index {i} selected twice"

namespace Area

variable {α : Type}

/- An area without items. -/
def ofCapacity
    (n : Nat) : Area α :=
  ⟨n, []⟩

/- The number of items. -/
def size
    (a : Area α) : Nat :=
  a.items.length

/- Whether there is no item. -/
def isEmpty
    (a : Area α) : Bool :=
  a.items.isEmpty

/- Whether no slot is left. -/
def isFull
    (a : Area α) : Bool :=
  decide (a.capacity ≤ a.size)

/- The number of slots left. -/
def freeSlots
    (a : Area α) : Nat :=
  a.capacity - a.size

/- The item in a slot. -/
def get?
    (a : Area α)
    (i : Nat) : Option α :=
  a.items[i]?

/- The area without its items. -/
def clear
    (a : Area α) : Area α :=
  { a with items := [] }

------------------------------------------------------------
-- Moving One Item
------------------------------------------------------------

/- An item put into the next slot, with the slot. -/
def push
    (a : Area α)
    (x : α) : Except AreaError (Nat × Area α) :=
  if a.isFull then
    .error (.full a.capacity)
  else
    .ok (a.size, { a with items := a.items ++ [x] })

/- The item of a slot taken out; later ones move up. -/
def take
    (a : Area α)
    (i : Nat) : Except AreaError (α × Area α) :=
  match a.items[i]? with
  | none => .error (.invalidIndex i)
  | some x => .ok (x, { a with items := a.items.eraseIdx i })

/- The item of a slot replaced, with the one that leaves. -/
def replace
    (a : Area α)
    (i : Nat)
    (x : α) : Except AreaError (α × Area α) :=
  match a.items[i]? with
  | none => .error (.invalidIndex i)
  | some y => .ok (y, { a with items := a.items.set i x })

------------------------------------------------------------
-- Moving Many Items
------------------------------------------------------------

/- The items outside the listed slots, in order. -/
def others
    (is : List Nat)
    (xs : List α) : List α :=
  (xs.zipIdx.filter fun p => !is.contains p.2).map Prod.fst

/-
  The items of the listed slots taken out, in the order of
  their slots; a bad list takes nothing.
-/
def takeMany
    (a : Area α)
    (is : List Nat) : Except AreaError (List α × Area α) :=
  let sorted := Positions.sort is
  match Positions.firstRepeat? sorted with
  | some i => .error (.duplicateIndex i)
  | none =>
      match sorted.find? fun i => decide (a.size ≤ i) with
      | some i => .error (.invalidIndex i)
      | none =>
          .ok (sorted.filterMap a.get?,
            { a with items := others sorted a.items })

end Area

end JokerRun
