import EquityScreen.Indicator.Quantity

/-!
# Rings of the latest values

A ring of `n` slots holds the latest `n` values: the next one is written over the oldest. Slots that have not been written
read as the ring's filling. Two passes are built on it: the mean of the latest values, kept as a running sum, and the best of
the latest values, kept as the slot of the best one, which is looked up again only when that slot is overwritten.
-/

namespace EquityScreen

/-- The latest values. -/
structure Ring (α : Type) where
  capacity : Nat
  filling : α
  slots : Array α
  cursor : Nat

namespace Ring

variable {α : Type}

/-- A ring in which nothing has been written. -/
def new (capacity : Nat) (filling : α) : Ring α := ⟨capacity, filling, #[], 0⟩

/-- The most slots a ring can have: each takes eight bytes, of which fewer than `2 ^ 63` can be addressed. -/
def mostSlots : Nat := Nat.pow 2 60 - 1

/-- The value in a slot. -/
def read (r : Ring α) (i : Nat) : α := r.slots[i]?.getD r.filling

/-- The value that the next one is written over. -/
def oldest (r : Ring α) : α := r.read r.cursor

/-- The slot after a slot. -/
def next (r : Ring α) (i : Nat) : Nat := if i + 1 < r.capacity then i + 1 else 0

/-- A value written over the oldest, the cursor not yet moved. -/
def write (r : Ring α) (x : α) : Ring α :=
  { r with slots := if r.cursor < r.slots.size then r.slots.setIfInBounds r.cursor x else r.slots.push x }

/-- The cursor moved to the next slot. -/
def advance (r : Ring α) : Ring α := { r with cursor := r.next r.cursor }

end Ring

variable {α : Type} [Quantity α]

open Quantity

/-- The mean of the latest values: their ring, their sum, and how many values have been fed. -/
structure RunningMean (α : Type) where
  ring : Ring α
  sum : α
  fed : Nat

namespace RunningMean

/-- The mean of nothing yet. -/
def new (n : Nat) : RunningMean α := ⟨.new n zero, zero, 0⟩

/-- One more value. The oldest leaves the sum before the new one enters it. -/
def feed (m : RunningMean α) (x : α) : RunningMean α :=
  ⟨(m.ring.write x).advance, m.sum - m.ring.oldest + x, m.fed + 1⟩

/-- How many values the mean is of. -/
def weight (m : RunningMean α) : Nat := min m.fed m.ring.capacity

/-- The mean. -/
def value (m : RunningMean α) : α := m.sum / count m.weight

end RunningMean

/-- The best of the latest values, where `beats` says that a value is better than another. -/
structure RunningBest (α : Type) where
  ring : Ring α
  best : Nat

namespace RunningBest

/-- The greatest of the latest values, of nothing yet. -/
def greatest (n : Nat) : RunningBest α := ⟨.new n bottom, 0⟩

/-- The least of the latest values, of nothing yet. -/
def least (n : Nat) : RunningBest α := ⟨.new n top, 0⟩

/-- The slot of the first value that none beats, starting from slot 0 and the filling. -/
def rescan (beats : α → α → Bool) (r : Ring α) : Nat :=
  (r.slots.toList.zipIdx.foldl (fun (best : α × Nat) (x, i) => if beats x best.1 then (x, i) else best)
    (r.filling, 0)).2

/-- One more value. -/
def feed (beats : α → α → Bool) (b : RunningBest α) (x : α) : RunningBest α :=
  let ring := b.ring.write x
  let best :=
    if beats x (ring.read b.best) then ring.cursor
    else if b.best = ring.cursor then rescan beats ring
    else b.best
  ⟨ring.advance, best⟩

/-- The best value. -/
def value (b : RunningBest α) : α := b.ring.read b.best

end RunningBest

end EquityScreen
