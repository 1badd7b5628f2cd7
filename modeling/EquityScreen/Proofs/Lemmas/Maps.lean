import Mathlib.Data.List.Nodup
import EquityScreen.Named

/-!
# Finite maps: what a look-up finds

Statements about `Named`. A map is determined by its look-ups (`ext_get?`), so two maps are compared by what they give for
each name and never by their lists of entries.
-/

namespace EquityScreen
namespace Named

variable {α : Type}

/-- Among entries in increasing order the first with the name of an entry is that entry. -/
theorem find?_of_mem {es : List (String × α)} (h : es.Pairwise (fun a b => a.1 < b.1)) {e : String × α} (he : e ∈ es) :
    es.find? (·.1 == e.1) = some e := by
  induction es with
  | nil => simp at he
  | cons first rest ih =>
    obtain ⟨hf, hr⟩ := List.pairwise_cons.1 h
    rcases List.mem_cons.1 he with rfl | he
    · simp
    · have hne : (first.1 == e.1) = false := by
        rw [beq_eq_false_iff_ne]
        intro heq
        have hlt := hf e he
        rw [heq] at hlt
        exact String.lt_irrefl e.1 hlt
      rw [List.find?_cons, hne]
      exact ih hr he

/-- The value of a name is the value of the entry with the name. -/
theorem get?_eq_some_iff (m : Named α) (name : String) (v : α) : m.get? name = some v ↔ (name, v) ∈ m.entries := by
  constructor
  · intro h
    obtain ⟨e, he, rfl⟩ := Option.map_eq_some_iff.1 h
    have hn : e.1 = name := by simpa using List.find?_some he
    subst hn
    exact List.mem_of_find?_eq_some he
  · intro h
    simp [get?, find?_of_mem m.sorted h]

/-- A name has a value when the look-up finds one. -/
theorem contains_eq_isSome (m : Named α) (name : String) : m.contains name = (m.get? name).isSome := by
  rw [get?, Option.isSome_map, Bool.eq_iff_iff, List.find?_isSome, contains, List.any_eq_true]

/-- A name has a value when it is one of the names of the map. -/
theorem contains_iff_mem_names {m : Named α} {name : String} : m.contains name = true ↔ name ∈ m.names := by
  simp [contains, names]

/-- The names of a map are different. -/
theorem nodup_names (m : Named α) : m.names.Nodup := by
  refine (List.pairwise_map.2 m.sorted).imp ?_
  intro a b hab heq
  exact String.lt_irrefl b (heq ▸ hab)

/-- Two lists of the same members, each in increasing order of a key, are equal. -/
theorem eq_of_sorted {β : Type} {key : β → String} {es es' : List β} (hs : es.Pairwise fun a b => key a < key b)
    (hs' : es'.Pairwise fun a b => key a < key b) (h : ∀ e, e ∈ es ↔ e ∈ es') : es = es' := by
  have hnodup {l : List β} (hl : l.Pairwise fun a b => key a < key b) : l.Nodup := by
    refine hl.imp fun {a b} hab heq => ?_
    rw [heq] at hab
    exact String.lt_irrefl (key b) hab
  refine List.Perm.eq_of_pairwise ?_ hs hs' ((List.perm_ext_iff_of_nodup (hnodup hs) (hnodup hs')).2 h)
  intro a b _ _ hab hba
  exact absurd (String.lt_trans hab hba) (String.lt_irrefl _)

/-- Two maps that give the same for every name are equal. -/
theorem ext_get? {m m' : Named α} (h : ∀ name, m.get? name = m'.get? name) : m = m' := by
  have heq : m.entries = m'.entries := by
    refine eq_of_sorted m.sorted m'.sorted fun e => ?_
    rw [← get?_eq_some_iff m, ← get?_eq_some_iff m', h]
  obtain ⟨es, hs⟩ := m
  obtain ⟨es', hs'⟩ := m'
  simp only at heq
  subst heq
  rfl

@[simp] theorem get?_empty (name : String) : (empty : Named α).get? name = none := rfl

/-- The entry found after an insertion. -/
theorem find?_insertEntry (name n : String) (v : α) (es : List (String × α)) :
    (insertEntry name v es).find? (·.1 == n) = if n = name then some (name, v) else es.find? (·.1 == n) := by
  induction es with
  | nil =>
    by_cases hn : n = name
    · simp [insertEntry, hn]
    · simp [insertEntry, hn, Ne.symm hn]
  | cons e rest ih =>
    simp only [insertEntry]
    split
    · by_cases hn : n = name
      · simp [hn]
      · simp [hn, Ne.symm hn]
    · split
      · rename_i heq
        by_cases hn : n = name
        · simp [hn]
        · simp [hn, Ne.symm hn, ← heq]
      · rename_i hne
        rw [List.find?_cons, List.find?_cons, ih]
        by_cases hn : n = name
        · have he : (e.1 == n) = false := by
            rw [beq_eq_false_iff_ne, hn]
            exact Ne.symm hne
          rw [he, if_pos hn]
        · simp only [if_neg hn]

@[simp] theorem get?_insert (m : Named α) (name n : String) (v : α) :
    (m.insert name v).get? n = if n = name then some v else m.get? n := by
  simp only [get?, insert, find?_insertEntry]
  split <;> rfl

@[simp] theorem get?_erase (m : Named α) (name n : String) :
    (m.erase name).get? n = if n = name then none else m.get? n := by
  by_cases hn : n = name
  · subst hn
    simp [get?, erase, List.find?_filter]
  · have hp : (fun e : String × α => decide ((e.1 != name) = true ∧ (e.1 == n) = true)) = fun e => e.1 == n := by
      funext e
      by_cases he : e.1 = n
      · simp [he, hn]
      · simp [he]
    rw [if_neg hn]
    simp only [get?, erase, List.find?_filter, hp]

/-- Entries put into a map one after another: the last with the name counts, and else what the map had. -/
theorem get?_foldl_insert (es : List (String × α)) (m : Named α) (n : String) :
    (es.foldl (fun m e => m.insert e.1 e.2) m).get? n = ((es.reverse.find? (·.1 == n)).map (·.2)).or (m.get? n) := by
  induction es generalizing m with
  | nil => simp
  | cons e rest ih =>
    rw [List.foldl_cons, ih, List.reverse_cons, List.find?_append, get?_insert]
    by_cases hn : n = e.1
    · cases rest.reverse.find? (·.1 == n) <;> simp [hn]
    · cases rest.reverse.find? (·.1 == n) <;> simp [hn, Ne.symm hn]

/-- Where all entries of one name have one value, the last of them has it. -/
theorem find?_reverse_of_forall {es : List (String × α)} {n : String} {v : α} (hv : (n, v) ∈ es)
    (h : ∀ w, (n, w) ∈ es → w = v) : (es.reverse.find? (·.1 == n)).map (·.2) = some v := by
  obtain ⟨e, he⟩ : ∃ e, es.reverse.find? (·.1 == n) = some e := by
    refine Option.isSome_iff_exists.1 ?_
    rw [List.find?_isSome]
    exact ⟨(n, v), List.mem_reverse.2 hv, by simp⟩
  have hn : e.1 = n := by simpa using List.find?_some he
  have hmem : e ∈ es := List.mem_reverse.1 (List.mem_of_find?_eq_some he)
  rw [he, Option.map_some, h e.2 (hn ▸ hmem)]

/-- Of entries with different names the last with a name is the one with the name. -/
theorem find?_reverse_eq_some_iff {es : List (String × α)} (h : (es.map (·.1)).Nodup) (n : String) (v : α) :
    (es.reverse.find? (·.1 == n)).map (·.2) = some v ↔ (n, v) ∈ es := by
  constructor
  · intro hv
    obtain ⟨e, he, rfl⟩ := Option.map_eq_some_iff.1 hv
    have hn : e.1 = n := by simpa using List.find?_some he
    subst hn
    exact List.mem_reverse.1 (List.mem_of_find?_eq_some he)
  · intro hv
    refine find?_reverse_of_forall hv fun w hw => ?_
    exact congrArg Prod.snd (List.inj_on_of_nodup_map h hw hv rfl)

/-- Entries put into a map leave the value of a name that none of them has. -/
theorem get?_foldl_insert_of_not_mem {es : List (String × α)} {n : String} (h : n ∉ es.map (·.1)) (m : Named α) :
    (es.foldl (fun m e => m.insert e.1 e.2) m).get? n = m.get? n := by
  have hnone : es.reverse.find? (·.1 == n) = none := by
    rw [List.find?_eq_none]
    intro e he heq
    exact h (List.mem_map.2 ⟨e, List.mem_reverse.1 he, beq_iff_eq.1 heq⟩)
  rw [get?_foldl_insert, hnone, Option.map_none, Option.none_or]

/-- Entries put into a map add their names to its names. -/
theorem contains_foldl_insert {es : List (String × α)} {m : Named α} {n : String} :
    (es.foldl (fun m e => m.insert e.1 e.2) m).contains n = true ↔ m.contains n = true ∨ n ∈ es.map (·.1) := by
  rw [contains_eq_isSome, contains_eq_isSome, get?_foldl_insert, Option.isSome_or, Option.isSome_map, Bool.or_eq_true,
    List.find?_isSome, or_comm]
  simp

/-- Entries with different names put into a map are all in it. -/
theorem get?_foldl_insert_of_mem {es : List (String × α)} (h : (es.map (·.1)).Nodup) {n : String} {v : α} (hv : (n, v) ∈ es)
    (m : Named α) : (es.foldl (fun m e => m.insert e.1 e.2) m).get? n = some v := by
  rw [get?_foldl_insert, (find?_reverse_eq_some_iff h n v).2 hv, Option.some_or]

/-- A map of entries with different names holds each of them. -/
theorem get?_ofList_eq_some_iff {es : List (String × α)} (h : (es.map (·.1)).Nodup) (n : String) (v : α) :
    (ofList es).get? n = some v ↔ (n, v) ∈ es := by
  rw [ofList, get?_foldl_insert, get?_empty, Option.or_none]
  exact find?_reverse_eq_some_iff h n v

/-! ## Values changed -/

variable {β : Type} (f : α → β) (m : Named α)

/-- The map with every value changed. -/
def map : Named β := ⟨m.entries.map fun e => (e.1, f e.2), List.pairwise_map.2 m.sorted⟩

@[simp] theorem get?_map (name : String) : (m.map f).get? name = (m.get? name).map f := by
  rw [get?, get?, map, List.find?_map, Option.map_map, Option.map_map]
  rfl

@[simp] theorem contains_map (name : String) : (m.map f).contains name = m.contains name := by
  rw [contains, contains, map, List.any_map]
  rfl

@[simp] theorem names_map : (m.map f).names = m.names := by
  rw [names, names, map, List.map_map]
  rfl

theorem map_insert (name : String) (v : α) : (m.insert name v).map f = (m.map f).insert name (f v) := by
  refine ext_get? fun n => ?_
  rw [get?_map, get?_insert, get?_insert, get?_map]
  split <;> rfl

end Named
end EquityScreen
