import EquityScreen.Proofs.Lemmas.Conditions
import EquityScreen.Proofs.Lemmas.Days

/-!
# Addresses in a tree of comparisons

A node of a tree has an address: the numbers of the children that lead to it from the root. `Condition.at?` follows an address,
and `Condition.placed` lists the comparisons of a tree with theirs, from left to right: each once (`pairwise_placed`), and
those that the addresses lead to (`mem_placed_iff`). An address is written as the path of an issue, and a written path reads as
the address it was written from (`Place.address?_toText`).
-/

namespace EquityScreen

namespace Condition

/-- The node at an address. -/
def at? : List Nat → Condition → Option Condition
  | [], c => some c
  | i :: path, .group _ children => children[i]?.bind (at? path)
  | _ :: _, .leaf _ => none

mutual

/-- The comparisons of a tree with their addresses, from left to right. -/
def placed : Condition → List (List Nat × Leaf)
  | .leaf l => [([], l)]
  | .group _ children => placedFrom 0 children

/-- The comparisons of the children of a node with their addresses from there; the first child has the number `i`. -/
def placedFrom (i : Nat) : List Condition → List (List Nat × Leaf)
  | [] => []
  | c :: rest => (placed c).map (fun e => (i :: e.1, e.2)) ++ placedFrom (i + 1) rest

end

theorem placedFrom_eq_flatMap (i : Nat) (children : List Condition) :
    placedFrom i children = (children.zipIdx i).flatMap fun e => e.1.placed.map fun p => (e.2 :: p.1, p.2) := by
  induction children generalizing i with
  | nil => rfl
  | cons c rest ih => rw [placedFrom, ih, List.zipIdx_cons, List.flatMap_cons]

theorem placed_group (logic : Logic) (children : List Condition) :
    (group logic children).placed = children.zipIdx.flatMap fun e => e.1.placed.map fun p => (e.2 :: p.1, p.2) :=
  placedFrom_eq_flatMap 0 children

/-- The comparisons with their addresses are the comparisons. -/
theorem map_snd_placed (c : Condition) : c.placed.map (·.2) = c.leaves := by
  induction c using Condition.induct with
  | leaf l => rfl
  | group logic children ih =>
    have hchild : ∀ e ∈ children.zipIdx, (e.1.placed.map fun p => (e.2 :: p.1, p.2)).map (·.2) = e.1.leaves := by
      intro e he
      rw [List.map_map]
      exact ih e.1 (List.fst_mem_of_mem_zipIdx he)
    rw [placed_group, List.map_flatMap, List.flatMap_congr hchild, leaves, leavesAll_eq_flatMap]
    conv_rhs => rw [← List.zipIdx_map_fst 0 children, List.flatMap_map]

/-- A comparison is listed with an address when the address leads to it. -/
theorem mem_placed_iff {c : Condition} {path : List Nat} {l : Leaf} :
    (path, l) ∈ c.placed ↔ c.at? path = some (.leaf l) := by
  induction c using Condition.induct generalizing path with
  | leaf k =>
    rw [placed, List.mem_singleton]
    cases path <;> simp [at?, eq_comm]
  | group logic children ih =>
    rw [placed_group, List.mem_flatMap]
    cases path with
    | nil => simp [at?]
    | cons i path =>
      rw [at?, Option.bind_eq_some_iff]
      constructor
      · rintro ⟨⟨c, j⟩, hc, he⟩
        obtain ⟨p, hp, heq⟩ := List.mem_map.1 he
        simp only [Prod.mk.injEq, List.cons.injEq] at heq
        obtain ⟨⟨rfl, rfl⟩, rfl⟩ := heq
        exact ⟨c, List.mk_mem_zipIdx_iff_getElem?.1 hc, (ih c (List.fst_mem_of_mem_zipIdx hc)).1 hp⟩
      · rintro ⟨c, hc, hleaf⟩
        refine ⟨(c, i), List.mk_mem_zipIdx_iff_getElem?.2 hc, List.mem_map.2 ⟨(path, l), ?_, rfl⟩⟩
        exact (ih c (List.mem_of_getElem? hc)).2 hleaf

/-- The children of a node are numbered upwards. -/
theorem pairwise_zipIdx (i : Nat) (children : List Condition) : (children.zipIdx i).Pairwise fun a b => a.2 < b.2 := by
  rw [← List.pairwise_map, List.zipIdx_map_snd]
  exact List.pairwise_lt_range'

/-- The comparisons stand in the order of their addresses, no two of which are the same. -/
theorem pairwise_placed (c : Condition) : c.placed.Pairwise fun a b => a.1 < b.1 := by
  induction c using Condition.induct with
  | leaf l => exact List.pairwise_singleton _ _
  | group logic children ih =>
    rw [placed_group, List.pairwise_flatMap]
    constructor
    · intro e he
      rw [List.pairwise_map]
      refine (ih e.1 (List.fst_mem_of_mem_zipIdx he)).imp fun h => ?_
      exact List.cons_lt_cons_iff.2 (.inr ⟨rfl, h⟩)
    · refine (pairwise_zipIdx 0 children).imp fun {a b} hab x hx y hy => ?_
      obtain ⟨p, -, rfl⟩ := List.mem_map.1 hx
      obtain ⟨q, -, rfl⟩ := List.mem_map.1 hy
      exact List.cons_lt_cons_iff.2 (.inl hab)

/-- A changed tree has its nodes where the tree has them. -/
theorem at?_mapLeaves (f : Leaf → Leaf) (path : List Nat) (c : Condition) :
    (c.mapLeaves f).at? path = (c.at? path).map (mapLeaves f) := by
  induction path generalizing c with
  | nil => rw [at?, at?, Option.map_some]
  | cons i path ih =>
    cases c with
    | leaf l => rfl
    | group logic children =>
      rw [mapLeaves, mapLeavesAll_eq_map, at?, at?, List.getElem?_map]
      cases children[i]? with
      | none => rfl
      | some c => exact ih c

end Condition

/-! ## Written addresses -/

namespace Place

/-- What follows a start, if the characters have it. -/
def after? (start cs : List Char) : Option (List Char) :=
  if start.isPrefixOf cs then some (cs.drop start.length) else none

/-- The child number in front, as a path writes it, and what follows. -/
def takeChild? (cs : List Char) : Option (Nat × List Char) :=
  (after? ".children[".toList cs).bind fun digits =>
    (Date.takeNumber digits.length digits).bind fun number =>
      (after? "]".toList number.2).map fun rest => (number.1, rest)

theorem after?_append (start rest : List Char) : after? start (start ++ rest) = some rest := by
  rw [after?, if_pos (List.isPrefixOf_iff_prefix.2 (List.prefix_append _ _)), List.drop_left]

theorem length_of_after? {start cs rest : List Char} (h : after? start cs = some rest) :
    cs.length = start.length + rest.length := by
  rw [after?, Option.ite_none_right_eq_some] at h
  have hle := (List.isPrefixOf_iff_prefix.1 h.1).length_le
  rw [← Option.some.inj h.2, List.length_drop]
  omega

/-- A child number takes room. -/
theorem length_takeChild? {cs rest : List Char} {n : Nat} (h : takeChild? cs = some (n, rest)) : rest.length < cs.length := by
  obtain ⟨digits, hdigits, h⟩ := Option.bind_eq_some_iff.1 h
  obtain ⟨number, hnumber, h⟩ := Option.bind_eq_some_iff.1 h
  obtain ⟨rest', hrest, h⟩ := Option.map_eq_some_iff.1 h
  obtain ⟨-, rfl⟩ := Prod.mk.inj h
  rw [Date.takeNumber, Option.ite_none_left_eq_some] at hnumber
  have hleft : number.2.length ≤ digits.length := by
    rw [← Option.some.inj hnumber.2, List.length_drop]
    exact Nat.sub_le _ _
  have hopening := length_of_after? hdigits
  have hclosing := length_of_after? hrest
  have hbracket : "]".toList.length = 1 := rfl
  omega

/-- The child numbers that a text writes one after another. -/
def children? (cs : List Char) : Option (List Nat) :=
  if cs.isEmpty then some []
  else
    match h : takeChild? cs with
    | some (n, rest) =>
      have : rest.length < cs.length := length_takeChild? h
      (children? rest).map (n :: ·)
    | none => none
termination_by cs.length

/-- The address that a text writes. -/
def address? (text : String) : Option (List Nat) := (after? "conditions".toList text.toList).bind children?

/-- A child number as a path writes it. -/
def writtenChild (i : Nat) : String := s!".children[{i}]"

theorem toList_writtenChild (i : Nat) :
    (writtenChild i).toList = ".children[".toList ++ ((toString i).toList ++ "]".toList) := by
  rw [← String.toList_append, ← String.toList_append, ← String.append_assoc]
  rfl

/-- Texts put behind one another have the characters of each. -/
theorem toList_foldl_append (f : Nat → String) (path : List Nat) (s : String) :
    (path.foldl (fun s i => s ++ f i) s).toList = s.toList ++ path.flatMap fun i => (f i).toList := by
  induction path generalizing s with
  | nil => simp
  | cons i rest ih => rw [List.foldl_cons, ih, List.flatMap_cons, String.toList_append, List.append_assoc]

/-- A path is written child by child. -/
theorem toList_toText (path : List Nat) :
    (Place.condition path).toText.toList = "conditions".toList ++ path.flatMap fun i => (writtenChild i).toList :=
  toList_foldl_append writtenChild path "conditions"

/-- A number is read from its digits up to what is no digit. -/
theorem takeNumber_toString (n : Nat) {c : Char} (hc : c.isDigit = false) (rest : List Char) :
    Date.takeNumber ((toString n).toList ++ c :: rest).length ((toString n).toList ++ c :: rest) = some (n, c :: rest) := by
  have hpadded : Date.padded 0 n = toString n := by simp [Date.padded]
  have hdigit : ∀ d ∈ (toString n).toList, d.isDigit = true := by
    rw [← hpadded]
    exact fun d => Date.isDigit_of_mem_padded
  have hdigits : (((toString n).toList ++ c :: rest).take ((toString n).toList ++ c :: rest).length).takeWhile Char.isDigit =
      (toString n).toList := by
    rw [List.take_length, List.takeWhile_append_of_pos hdigit, List.takeWhile_cons_of_neg (by rw [hc]; decide),
      List.append_nil]
  have hvalue : digitsValue 0 (toString n).toList = n := by
    rw [Nat.toString_eq_repr, Nat.toList_repr, digitsValue_toDigits]
  have hsome : (toString n).toList.isEmpty = false := by
    rw [List.isEmpty_eq_false_iff, Nat.toString_eq_repr, Nat.toList_repr]
    exact Nat.toDigits_ne_nil
  simp only [Date.takeNumber, hdigits, hsome, Bool.false_eq_true, if_false, hvalue, List.drop_left]

/-- A written child number is read, and what follows it is left. -/
theorem takeChild?_written (i : Nat) (rest : List Char) : takeChild? ((writtenChild i).toList ++ rest) = some (i, rest) := by
  have hnumber := takeNumber_toString i (c := ']') rfl rest
  have hclosed : "]".toList ++ rest = ']' :: rest := rfl
  rw [takeChild?, toList_writtenChild, List.append_assoc, after?_append, Option.bind_some, List.append_assoc, hclosed, hnumber,
    Option.bind_some, ← hclosed, after?_append, Option.map_some]

theorem children?_written (path : List Nat) : children? (path.flatMap fun i => (writtenChild i).toList) = some path := by
  induction path with
  | nil => rw [children?]; rfl
  | cons i rest ih =>
    have hfull : ((writtenChild i).toList ++ rest.flatMap fun i => (writtenChild i).toList).isEmpty = false := by
      rw [toList_writtenChild]
      rfl
    rw [List.flatMap_cons, children?, hfull, if_neg Bool.false_ne_true]
    have hchild := takeChild?_written i (rest.flatMap fun i => (writtenChild i).toList)
    split
    · rename_i h
      obtain ⟨rfl, rfl⟩ := Prod.mk.inj (Option.some.inj (hchild.symm.trans h))
      rw [ih, Option.map_some]
    · rename_i h
      exact absurd (hchild.symm.trans h) (by simp)

/-- A written path reads as the address it was written from. -/
theorem address?_toText (path : List Nat) : address? (Place.condition path).toText = some path := by
  rw [address?, toList_toText, after?_append, Option.bind_some, children?_written]

end Place
end EquityScreen
