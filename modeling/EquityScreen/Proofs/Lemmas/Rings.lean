import Mathlib.Data.List.DropRight
import Mathlib.Data.List.Rotate
import EquityScreen.Indicator.Ring

/-!
# Rings hold the latest values

A ring of `n` slots holds the last `n` of the values written to it (`Ring.Holds`). Of these the slot of a best one is kept
(`RunningBest.Tracks`). A missing value beats none and is beaten by none, so while the slot holds one it tells nothing of the
others; but a number in it is beaten by no value of the ring, and when all values are numbers it is one.
-/

namespace EquityScreen

open Quantity

variable {α : Type}

/-- In a list that is read from a place on and then from its start, a value written in this place comes last once reading starts
behind it. -/
theorem rotate_succ_set {l : List α} {c : Nat} (hc : c < l.length) (x : α) :
    (l.set c x).rotate (c + 1) = (l.rotate c).tail ++ [x] := by
  have hafter : (l.set c x).drop (c + 1) = l.drop (c + 1) := by rw [List.drop_set, if_pos (Nat.lt_succ_self c)]
  have hbefore : (l.set c x).take (c + 1) = l.take c ++ [x] := by
    rw [List.take_succ_eq_append_getElem (by simpa using hc), List.getElem_set_self, List.take_set,
      List.set_eq_of_length_le (by rw [List.length_take]; omega)]
  rw [List.rotate_eq_drop_append_take (by rw [List.length_set]; omega), List.rotate_eq_drop_append_take hc.le, hafter, hbefore,
    List.drop_eq_getElem_cons hc, List.cons_append, List.tail_cons, List.append_assoc]

/-! ## The values of a ring -/

namespace Ring

/-- The ring holds these values, the oldest first: from its cursor on and then from its first slot. The slots are filled in their
order before one is written over. -/
structure Holds (r : Ring α) (latest : List α) : Prop where
  cursor_lt : r.cursor < r.capacity
  size_le : r.slots.size ≤ r.capacity
  filled : r.slots.size < r.capacity → r.cursor = r.slots.size
  values : r.slots.toList.rotate r.cursor = latest

theorem holds_new {n : Nat} (hn : 0 < n) (filling : α) : (new n filling).Holds [] := ⟨hn, Nat.zero_le n, fun _ => rfl, rfl⟩

namespace Holds

variable {r : Ring α} {latest : List α} {x : α}

theorem mem_slots_iff (h : r.Holds latest) : x ∈ r.slots.toList ↔ x ∈ latest := by
  rw [← h.values, List.mem_rotate]

theorem length_eq (h : r.Holds latest) : latest.length = r.slots.size := by
  rw [← h.values, List.length_rotate, Array.length_toList]

/-- The slot of the cursor is written next: a new one, or the one of the oldest value. -/
theorem cursor_eq_or_lt (h : r.Holds latest) :
    r.cursor = r.slots.size ∧ r.slots.size < r.capacity ∨ r.cursor < r.slots.size ∧ r.slots.size = r.capacity := by
  rcases Nat.lt_or_ge r.slots.size r.capacity with hlt | hge
  · exact .inl ⟨h.filled hlt, hlt⟩
  · have hsize := Nat.le_antisymm h.size_le hge
    exact .inr ⟨hsize ▸ h.cursor_lt, hsize⟩

/-- The oldest value is the first one, or where there is room left the filling. -/
theorem oldest_cases (h : r.Holds latest) :
    latest.length < r.capacity ∧ r.oldest = r.filling ∨ latest.length = r.capacity ∧ ∃ rest, latest = r.oldest :: rest := by
  rw [h.length_eq]
  rcases h.cursor_eq_or_lt with ⟨heq, hroom⟩ | ⟨hlt, hfull⟩
  · exact .inl ⟨hroom, by simp [oldest, read, heq]⟩
  · have hlt' : r.cursor < r.slots.toList.length := by rwa [Array.length_toList]
    have hfirst : r.oldest = r.slots.toList[r.cursor] := by simp [oldest, read, hlt]
    refine .inr ⟨hfull, r.slots.toList.drop (r.cursor + 1) ++ r.slots.toList.take r.cursor, ?_⟩
    rw [← h.values, List.rotate_eq_drop_append_take hlt'.le, List.drop_eq_getElem_cons hlt', hfirst, List.cons_append]

theorem read_write_cursor (h : r.Holds latest) : (r.write x).read r.cursor = x := by
  rcases h.cursor_eq_or_lt with ⟨heq, -⟩ | ⟨hlt, -⟩
  · simp [read, write, heq]
  · simp [read, write, hlt]

theorem read_write_of_ne (h : r.Holds latest) {i : Nat} (hi : i ≠ r.cursor) : (r.write x).read i = r.read i := by
  rcases h.cursor_eq_or_lt with ⟨heq, -⟩ | ⟨hlt, -⟩
  · rw [heq] at hi
    simp [read, write, heq, Array.getElem?_push, hi]
  · simp [read, write, hlt, hi.symm]

theorem size_write (h : r.Holds latest) : (r.write x).slots.size = min (r.slots.size + 1) r.capacity := by
  rcases h.cursor_eq_or_lt with ⟨heq, hroom⟩ | ⟨hlt, hfull⟩
  · simp [write, heq, Nat.min_eq_left hroom]
  · rw [write, if_pos hlt, Array.size_setIfInBounds, hfull, Nat.min_eq_right (Nat.le_succ _)]

theorem cursor_lt_size_write (h : r.Holds latest) : r.cursor < (r.write x).slots.size := by
  rw [h.size_write]
  rcases h.cursor_eq_or_lt with ⟨heq, hroom⟩ | ⟨hlt, hfull⟩ <;> omega

/-- Behind the value that has been written come those that were there before it, as many as there is room for. -/
theorem rotate_write (h : r.Holds latest) (x : α) :
    (r.write x).slots.toList.rotate (r.cursor + 1) = (latest ++ [x]).rtake r.capacity := by
  have hlength := h.length_eq
  have hvalues := h.values
  rcases h.cursor_eq_or_lt with ⟨heq, hroom⟩ | ⟨hlt, hfull⟩
  · have hslots : (r.write x).slots.toList = latest ++ [x] := by
      rw [heq, ← Array.length_toList, List.rotate_length] at hvalues
      rw [write, if_neg (by omega), Array.toList_push, hvalues]
    have hend : r.cursor + 1 = (latest ++ [x]).length := by rw [List.length_append, List.length_singleton, hlength, heq]
    rw [hslots, hend, List.rotate_length, List.rtake, Nat.sub_eq_zero_of_le (by omega), List.drop_zero]
  · have hslots : (r.write x).slots.toList = r.slots.toList.set r.cursor x := by
      rw [write, if_pos hlt, Array.toList_setIfInBounds]
    have hcount : (latest ++ [x]).length - r.capacity = 1 := by
      rw [List.length_append, List.length_singleton, hlength, hfull]
      omega
    have hne : latest ≠ [] := List.ne_nil_of_length_pos (by omega)
    rw [hslots, rotate_succ_set (by rwa [Array.length_toList]), hvalues, List.rtake, hcount, List.drop_one,
      List.tail_append_of_ne_nil hne]

/-- A value written to a ring is its latest one. Where there is no more room the oldest gives way. -/
theorem advance_write (h : r.Holds latest) (x : α) : (r.write x).advance.Holds ((latest ++ [x]).rtake r.capacity) := by
  have hcursor := h.cursor_lt
  have hsize : (r.write x).advance.slots.size = min (r.slots.size + 1) r.capacity := h.size_write
  have hnext : r.next r.cursor = r.cursor + 1 ∧ r.cursor + 1 < r.capacity ∨ r.next r.cursor = 0 ∧ r.cursor + 1 = r.capacity := by
    unfold next
    split <;> omega
  refine ⟨?_, ?_, ?_, ?_⟩
  · show r.next r.cursor < r.capacity
    omega
  · rw [hsize]
    exact Nat.min_le_right _ _
  · rw [hsize]
    show _ < r.capacity → r.next r.cursor = _
    rcases h.cursor_eq_or_lt with ⟨heq, hroom⟩ | ⟨hlt, hfull⟩ <;> omega
  · show (r.write x).slots.toList.rotate (r.next r.cursor) = _
    rw [← h.rotate_write x]
    rcases hnext with ⟨hnext, -⟩ | ⟨hnext, hlast⟩
    · rw [hnext]
    · have hend : r.cursor + 1 = (r.write x).slots.toList.length := by
        have hlt := h.cursor_lt_size_write (x := x)
        rw [Array.length_toList]
        rw [h.size_write] at hlt ⊢
        omega
      rw [hnext, List.rotate_zero, hend, List.rotate_length]

end Holds

end Ring

/-! ## The best of the values -/

namespace RunningBest

variable [Quantity α] {beats : α → α → Bool} {filling : α}

/-- Values are ranked: every number beats the filling of a ring, and a missing value beats nothing and is beaten by nothing. -/
structure Ranks (beats : α → α → Bool) (filling : α) : Prop where
  irrefl : ∀ x, beats x x = false
  trans : ∀ x y z, beats x y = true → beats y z = true → beats x z = true
  number : ∀ x, isFinite x = true → beats x filling = true
  missing : ∀ x y, isMissing y = true → beats x y = false

/-- What does not beat a value does not beat one that beats it. -/
theorem Ranks.not_beats (h : Ranks beats filling) {v x y : α} (hx : beats x v = true) (hy : beats y v = false) :
    beats y x = false := by
  by_contra hbeats
  rw [h.trans y x v (Bool.not_eq_false _ ▸ hbeats) hx] at hy
  exact nomatch hy

/-- What beats an unbeaten value is unbeaten. -/
theorem Ranks.unbeaten_of_beats (h : Ranks beats filling) {latest : List α} {v x : α}
    (hv : isMissing v = true ∨ ∀ y ∈ latest, beats y v = false) (hx : beats x v = true) : ∀ y ∈ latest, beats y x = false := by
  rcases hv with hmissing | hall
  · rw [h.missing _ _ hmissing] at hx
    exact nomatch hx
  · intro y hy
    exact h.not_beats hx (hall y hy)

/-- Looking for the best of several values and one that was found before: it is one of them, none of them beats it, and nothing
beats it that did not beat the one found before. -/
theorem foldl_best (h : Ranks beats filling) (es : List (α × Nat)) (found : α × Nat) :
    let best := es.foldl (fun best e => if beats e.1 best.1 then e else best) found
    (best = found ∨ best ∈ es) ∧ (∀ e ∈ es, beats e.1 best.1 = false) ∧
      ∀ y, beats y found.1 = false → beats y best.1 = false := by
  induction es generalizing found with
  | nil => exact ⟨.inl rfl, nofun, fun _ hy => hy⟩
  | cons e rest ih =>
    rw [List.foldl_cons]
    by_cases hbeats : beats e.1 found.1 = true
    · rw [if_pos hbeats]
      obtain ⟨hmem, hrest, hkept⟩ := ih e
      exact ⟨.inr (List.mem_cons.2 hmem), List.forall_mem_cons.2 ⟨hkept _ (h.irrefl _), hrest⟩,
        fun y hy => hkept y (h.not_beats hbeats hy)⟩
    · rw [if_neg hbeats]
      obtain ⟨hmem, hrest, hkept⟩ := ih found
      exact ⟨hmem.imp_right (List.mem_cons_of_mem e),
        List.forall_mem_cons.2 ⟨hkept _ (Bool.not_eq_true _ ▸ hbeats), hrest⟩, hkept⟩

/-- Where the values of a ring are numbers or missing, the slot that is looked up is one of its slots. It holds a value that none
beats, or a missing one. -/
theorem rescan_spec (h : Ranks beats filling) {r : Ring α} (hfilling : r.filling = filling)
    (hplain : ∀ x ∈ r.slots.toList, isMissing x = true ∨ isFinite x = true) (hne : 0 < r.slots.size) :
    rescan beats r < r.slots.size ∧
      (isMissing (r.read (rescan beats r)) = true ∨ ∀ x ∈ r.slots.toList, beats x (r.read (rescan beats r)) = false) := by
  have hrescan : rescan beats r = (r.slots.toList.zipIdx.foldl (fun best e => if beats e.1 best.1 then e else best)
      (r.filling, 0)).2 := rfl
  obtain ⟨hmem, hslots, -⟩ := foldl_best h r.slots.toList.zipIdx (r.filling, 0)
  rw [hrescan]
  generalize r.slots.toList.zipIdx.foldl (fun best e => if beats e.1 best.1 then e else best) (r.filling, 0) = best
    at hmem hslots
  have hunbeaten : ∀ x ∈ r.slots.toList, beats x best.1 = false := by
    intro x hx
    obtain ⟨j, hj⟩ := List.getElem?_of_mem hx
    exact hslots (x, j) (List.mk_mem_zipIdx_iff_getElem?.2 hj)
  rcases hmem with rfl | hmem
  · -- Nothing beats the filling, so no slot has a number, and slot 0 neither.
    refine ⟨hne, .inl ?_⟩
    have hfirst : r.slots[0] ∈ r.slots.toList := Array.getElem_mem_toList hne
    have hread : r.read 0 = r.slots[0] := by simp [Ring.read, hne]
    rw [hread]
    refine (hplain _ hfirst).resolve_right fun hnumber => ?_
    have hbeats := h.number _ hnumber
    rw [← hfilling, hunbeaten _ hfirst] at hbeats
    exact nomatch hbeats
  · obtain ⟨x, i⟩ := best
    have hi : r.slots.toList[i]? = some x := List.mk_mem_zipIdx_iff_getElem?.1 hmem
    obtain ⟨hlt, -⟩ := List.getElem?_eq_some_iff.1 hi
    have hread : r.read i = x := by rw [Ring.read, ← Array.getElem?_toList, hi, Option.getD_some]
    exact ⟨hlt, .inr (by rwa [hread])⟩

/-- The ring holds these values, which are numbers or missing. The slot of the best one is among the slots that are written, or
the first; the value in it is missing, or none of the values beats it. -/
structure Tracks (beats : α → α → Bool) (filling : α) (n : Nat) (b : RunningBest α) (latest : List α) : Prop where
  capacity_eq : b.ring.capacity = n
  filling_eq : b.ring.filling = filling
  holds : b.ring.Holds latest
  plain : ∀ x ∈ latest, isMissing x = true ∨ isFinite x = true
  best_lt : b.best < max 1 b.ring.slots.size
  unbeaten : isMissing b.value = true ∨ ∀ x ∈ latest, beats x b.value = false

/-- Before the first value. -/
theorem tracks_new (beats : α → α → Bool) (filling : α) {n : Nat} (hn : 0 < n) :
    Tracks beats filling n ⟨.new n filling, 0⟩ [] :=
  ⟨rfl, rfl, Ring.holds_new hn filling, nofun, Nat.one_pos, .inr nofun⟩

namespace Tracks

variable {n : Nat} {b : RunningBest α} {latest : List α} {x : α}

/-- The best value is kept from one value to the next. A number that comes takes its place if it beats it, and where its slot is
written over the slots are looked through for another. -/
theorem feed (h : Ranks beats filling) (hb : b.Tracks beats filling n latest) (hx : isMissing x = true ∨ isFinite x = true) :
    (b.feed beats x).Tracks beats filling n ((latest ++ [x]).rtake n) := by
  obtain ⟨rfl, hfilling, hholds, hplain, hbest, hunbeaten⟩ := hb
  have hadvance := hholds.advance_write x
  have hlatest : ∀ y ∈ (latest ++ [x]).rtake b.ring.capacity, y ∈ latest ∨ y = x := fun y hy => by
    simpa using List.mem_of_mem_drop hy
  have hplain' : ∀ y ∈ (latest ++ [x]).rtake b.ring.capacity, isMissing y = true ∨ isFinite y = true := by
    intro y hy
    rcases hlatest y hy with hy | rfl
    · exact hplain y hy
    · exact hx
  have hcursor := hholds.cursor_lt_size_write (x := x)
  have hsize := hholds.size_write (x := x)
  have hroom := hholds.size_le
  -- The value of the slot that was best, unless it is the one that is written over.
  have hkept : b.best ≠ b.ring.cursor → (b.ring.write x).read b.best = b.value := hholds.read_write_of_ne
  suffices hslot : (b.feed beats x).best < (b.ring.write x).slots.size ∧
      (isMissing (b.feed beats x).value = true ∨
        ∀ y ∈ (latest ++ [x]).rtake b.ring.capacity, beats y (b.feed beats x).value = false) from
    ⟨rfl, hfilling, hadvance, hplain', Nat.lt_of_lt_of_le hslot.1 (Nat.le_max_right _ _), hslot.2⟩
  have hvalue : (b.feed beats x).value = (b.ring.write x).read (b.feed beats x).best := rfl
  rw [hvalue]
  by_cases hbeats : beats x ((b.ring.write x).read b.best) = true
  · -- The value that comes is the best. It was not written over the best one, since none beats itself.
    have hbest' : (b.feed beats x).best = b.ring.cursor := if_pos hbeats
    have hne : b.best ≠ b.ring.cursor := by
      intro heq
      rw [heq, hholds.read_write_cursor, h.irrefl] at hbeats
      exact nomatch hbeats
    rw [hkept hne] at hbeats
    rw [hbest', hholds.read_write_cursor]
    refine ⟨hcursor, .inr fun y hy => ?_⟩
    rcases hlatest y hy with hy | rfl
    · exact h.unbeaten_of_beats hunbeaten hbeats y hy
    · exact h.irrefl y
  · by_cases hwritten : b.best = b.ring.cursor
    · have hbest' : (b.feed beats x).best = rescan beats (b.ring.write x) := (if_neg hbeats).trans (if_pos hwritten)
      have hslots : ∀ y, y ∈ (b.ring.write x).slots.toList ↔ y ∈ (latest ++ [x]).rtake b.ring.capacity := fun y =>
        hadvance.mem_slots_iff
      rw [hbest']
      obtain ⟨hlt, hfound⟩ := rescan_spec h (r := b.ring.write x) hfilling (fun y hy => hplain' y ((hslots y).1 hy)) (by omega)
      exact ⟨hlt, hfound.imp_right fun hall y hy => hall y ((hslots y).2 hy)⟩
    · have hbest' : (b.feed beats x).best = b.best := (if_neg hbeats).trans (if_neg hwritten)
      rw [hkept hwritten] at hbeats
      rw [hbest', hkept hwritten]
      refine ⟨by omega, hunbeaten.imp_right fun hall y hy => ?_⟩
      rcases hlatest y hy with hy | rfl
      · exact hall y hy
      · exact Bool.not_eq_true _ ▸ hbeats

/-- While all values are numbers the best value is one of them, and none beats it. -/
theorem value_mem (hb : b.Tracks beats filling n latest) (hne : latest ≠ []) (hnumbers : ∀ y ∈ latest, isMissing y = false) :
    b.value ∈ latest ∧ ∀ y ∈ latest, beats y b.value = false := by
  have hsize : 0 < b.ring.slots.size := hb.holds.length_eq ▸ List.length_pos_of_ne_nil hne
  have hlt : b.best < b.ring.slots.size := by
    have hbest := hb.best_lt
    omega
  have hmem : b.value ∈ latest := by
    have hvalue : b.value = b.ring.slots[b.best] := by simp [value, Ring.read, hlt]
    rw [hvalue, ← hb.holds.mem_slots_iff]
    exact Array.getElem_mem_toList hlt
  refine ⟨hmem, hb.unbeaten.resolve_left fun hmissing => ?_⟩
  rw [hnumbers _ hmem] at hmissing
  exact nomatch hmissing

end Tracks

end RunningBest

end EquityScreen
