import EquityScreen.Proofs.Lemmas.Addresses

/-!
# Where a condition is refused

The issues of a condition are those of its comparisons, one for each that the registry refuses, from left to right
(`Registry.issues_eq`). The path of an issue is the written address of its comparison, so it leads a client to what is wrong
and to nothing else. Bringing a condition to the names of the registry moves no comparison, so the paths of the normalized
condition lead through the condition as it was sent (`refused_leaves_are_reported`).
-/

namespace EquityScreen
namespace Registry

variable (r : Registry)

/-- The issue of a comparison at an address, if the registry refuses it. -/
def issueAt? (path : List Nat) (l : Leaf) : Option Issue :=
  (r.leafReason? l).map fun reason => ⟨.condition path, l.field, reason⟩

/-- The issues of a node are those of its comparisons, the addresses of which begin with that of the node. -/
theorem issuesAt_eq (c : Condition) (up : List Nat) :
    r.issuesAt up c = c.placed.filterMap fun e => r.issueAt? (up.reverse ++ e.1) e.2 := by
  induction c using Condition.induct generalizing up with
  | leaf l =>
    rw [issuesAt, Condition.placed, List.filterMap_cons, List.append_nil, issueAt?]
    cases r.leafReason? l <;> rfl
  | group logic children ih =>
    rw [issuesAt, issuesFrom_eq_flatMap, Condition.placed_group, List.filterMap_flatMap]
    refine List.flatMap_congr fun e he => ?_
    rw [ih e.1 (List.fst_mem_of_mem_zipIdx he), List.filterMap_map]
    simp

/-- The issues of a condition are those of its comparisons, each at its address. -/
theorem issues_eq (c : Condition) : r.issues c = c.placed.filterMap fun e => r.issueAt? e.1 e.2 :=
  r.issuesAt_eq c []

variable {r}

theorem issueAt?_eq_some {path : List Nat} {l : Leaf} {i : Issue} (h : r.issueAt? path l = some i) :
    r.leafReason? l = some i.reason ∧ i.field = l.field ∧ i.place = .condition path := by
  obtain ⟨reason, hreason, rfl⟩ := Option.map_eq_some_iff.1 h
  exact ⟨hreason, rfl, rfl⟩

/-- An issue leads to its comparison. -/
theorem exists_leaf_of_mem_issues {c : Condition} {i : Issue} (h : i ∈ r.issues c) :
    ∃ path l, i.place = .condition path ∧ c.at? path = some (.leaf l) ∧ i.field = l.field ∧
      r.leafReason? l = some i.reason := by
  rw [issues_eq] at h
  obtain ⟨⟨path, l⟩, he, hi⟩ := List.mem_filterMap.1 h
  obtain ⟨hreason, hfield, hplace⟩ := issueAt?_eq_some hi
  exact ⟨path, l, hplace, Condition.mem_placed_iff.1 he, hfield, hreason⟩

/-- A refused comparison has its issue. -/
theorem mem_issues_of_leaf {c : Condition} {path : List Nat} {l : Leaf} {reason : Reason} (hleaf : c.at? path = some (.leaf l))
    (hreason : r.leafReason? l = some reason) : ⟨.condition path, l.field, reason⟩ ∈ r.issues c := by
  rw [issues_eq]
  refine List.mem_filterMap.2 ⟨(path, l), Condition.mem_placed_iff.2 hleaf, ?_⟩
  rw [issueAt?, hreason, Option.map_some]

variable (r)

/-- What the issues say is said of the comparisons from left to right. -/
theorem map_issues (c : Condition) : (r.issues c).map (fun i => (i.field, i.reason)) =
    c.leaves.filterMap fun l => (r.leafReason? l).map fun reason => (l.field, reason) := by
  rw [issues_eq, List.map_filterMap, ← Condition.map_snd_placed, List.filterMap_map]
  refine List.filterMap_congr fun e _ => ?_
  rw [issueAt?, Option.map_map]
  rfl

/-- The issues stand in the order of their addresses. -/
theorem pairwise_issues (c : Condition) :
    (r.issues c).Pairwise fun i j => ∃ p q, i.place = .condition p ∧ j.place = .condition q ∧ p < q := by
  rw [issues_eq, List.pairwise_filterMap]
  refine (Condition.pairwise_placed c).imp fun {d e} hlt i hi j hj => ?_
  exact ⟨d.1, e.1, (issueAt?_eq_some hi).2.2, (issueAt?_eq_some hj).2.2, hlt⟩

end Registry

/-- A condition has one issue for each comparison that the registry refuses, from left to right, and is valid when there is
none. The path of an issue, read as child numbers from the root, leads to the comparison that it is about and whose field it
names; a refused comparison at any address has its issue. The paths rise, a child before the next one, so no two issues have
one path. A normalized condition has its nodes where the condition has them, so the paths of its issues lead to the comparisons
as they were sent. -/
theorem refused_leaves_are_reported (r : Registry) (c : Condition) :
    (r.issues c).map (fun i => (i.field, i.reason)) =
        c.leaves.filterMap (fun l => (r.leafReason? l).map fun reason => (l.field, reason)) ∧
      ((r.report c).valid = true ↔ ∀ l ∈ c.leaves, r.leafReason? l = none) ∧
      (∀ i ∈ r.issues c, ∃ path l, Place.address? i.place.toText = some path ∧ c.at? path = some (.leaf l) ∧
        i.field = l.field ∧ r.leafReason? l = some i.reason) ∧
      (∀ path l reason, c.at? path = some (.leaf l) → r.leafReason? l = some reason →
        ⟨.condition path, l.field, reason⟩ ∈ r.issues c) ∧
      (r.issues c).Pairwise (fun i j => ∃ p q, Place.address? i.place.toText = some p ∧
        Place.address? j.place.toText = some q ∧ p < q) ∧
      ((r.issues c).map (·.place.toText)).Nodup ∧
      (∀ path, c.normalize.at? path = (c.at? path).map Condition.normalize) ∧
      ∀ i ∈ r.issues c.normalize, ∃ path l, Place.address? i.place.toText = some path ∧ c.at? path = some (.leaf l) ∧
        i.field = l.normalize.field ∧ r.leafReason? l.normalize = some i.reason := by
  have hat := Condition.at?_mapLeaves Leaf.normalize
  have hrise : (r.issues c).Pairwise fun i j => ∃ p q, Place.address? i.place.toText = some p ∧
      Place.address? j.place.toText = some q ∧ p < q := by
    refine (r.pairwise_issues c).imp fun {i j} h => ?_
    obtain ⟨p, q, hp, hq, hlt⟩ := h
    exact ⟨p, q, hp ▸ Place.address?_toText p, hq ▸ Place.address?_toText q, hlt⟩
  refine ⟨r.map_issues c, ?_, ?_, fun path l reason => Registry.mem_issues_of_leaf, hrise, ?_, fun path => hat path c, ?_⟩
  · rw [Registry.Report.valid, List.isEmpty_iff]
    exact r.issues_eq_nil_iff c
  · intro i hi
    obtain ⟨path, l, hplace, hleaf, hrest⟩ := Registry.exists_leaf_of_mem_issues hi
    exact ⟨path, l, hplace ▸ Place.address?_toText path, hleaf, hrest⟩
  · rw [List.Nodup, List.pairwise_map]
    refine hrise.imp fun {i j} h heq => ?_
    obtain ⟨p, q, hp, hq, hlt⟩ := h
    obtain rfl : p = q := Option.some.inj (hp.symm.trans (heq ▸ hq))
    exact List.lt_irrefl p hlt
  · intro i hi
    obtain ⟨path, k, hplace, hleaf, hfield, hreason⟩ := Registry.exists_leaf_of_mem_issues hi
    rw [Condition.normalize, hat] at hleaf
    obtain ⟨d, hd, hleaf⟩ := Option.map_eq_some_iff.1 hleaf
    cases d with
    | group logic children => exact absurd hleaf (by simp [Condition.mapLeaves])
    | leaf l =>
      obtain rfl := Condition.leaf.inj hleaf
      exact ⟨path, l, hplace ▸ Place.address?_toText path, hd, hfield, hreason⟩

/-- Two of these comparisons are refused, one of them in a group within the group. -/
def refusedTwice : Condition :=
  .any [.leaf (.withLiteral "pe" .contains (.text "low")),
    .all [.leaf (.withLiteral "pe" .lt (.number 15.0)), .leaf (.against "name" .eq "pe")]]

/-- The comparison in the inner group has its issue, and the path of the issue leads to it. -/
theorem inner_comparison_is_reported :
    (⟨.condition [1, 1], "name", .rightField "pe"⟩ : Issue) ∈ Registry.builtin.issues refusedTwice ∧
      (Registry.builtin.report refusedTwice).valid = false ∧
      ∃ path, Place.address? "conditions.children[1].children[1]" = some path ∧
        refusedTwice.at? path = some (.leaf (.against "name" .eq "pe")) := by
  obtain ⟨-, hvalid, hplaces, hissues, -⟩ := refused_leaves_are_reported Registry.builtin refusedTwice
  have hrefused : Registry.builtin.leafReason? (.against "name" .eq "pe") = some (.rightField "pe") := rfl
  have hissue := hissues [1, 1] (.against "name" .eq "pe") (.rightField "pe") rfl hrefused
  refine ⟨hissue, ?_, ?_⟩
  · rw [← Bool.not_eq_true, hvalid]
    intro hall
    have hnone := hall (.against "name" .eq "pe") (List.mem_cons_of_mem _ (List.mem_cons_of_mem _ List.mem_cons_self))
    rw [hrefused] at hnone
    exact absurd hnone (by simp)
  · obtain ⟨path, l, haddress, hleaf, -, -⟩ := hplaces _ hissue
    have htext : (Place.condition [1, 1]).toText = "conditions.children[1].children[1]" := rfl
    have hpath : path = [1, 1] := Option.some.inj (haddress.symm.trans (Place.address?_toText [1, 1]))
    exact ⟨path, htext ▸ haddress, hpath ▸ rfl⟩

end EquityScreen
