import EquityScreen.Proofs.Lemmas.DocumentEntries
import EquityScreen.Proofs.Lemmas.Maps

/-!
# What the document of a filter asks

A filter's document has one entry for each column and key, so of several entries that the predicates put in one place the last
stands and the others are lost (`get?_asked`). A record meets the document where it meets the entries that stand; it meets the
filter where it meets the lost ones as well (`document_asks_last_entries`).
-/

namespace EquityScreen

open Json

namespace Filter

/-- The entries that the predicates of the filter put into its document, one after another: column, key and what is asked. -/
def entries (f : Filter) : List (String × String × Json) := f.flatMap fun p => p.asked.map (p.column, ·)

/-- The last of the entries with the column and the key. -/
def last? (f : Filter) (c key : String) : Option Json :=
  (f.entries.reverse.find? fun e => e.1 == c && e.2.1 == key).map (·.2.2)

/-- Every number of the filter is finite or missing. -/
def Plain (f : Filter) : Prop := ∀ p ∈ f, p.Plain

instance (f : Filter) : Decidable f.Plain := inferInstanceAs (Decidable (∀ p ∈ f, p.Plain))

theorem mem_entries_of_last? {f : Filter} {c key : String} {v : Json} (h : f.last? c key = some v) :
    (c, key, v) ∈ f.entries := by
  obtain ⟨⟨c', key', v'⟩, hfind, rfl⟩ := Option.map_eq_some_iff.1 h
  have hplace := List.find?_some hfind
  rw [Bool.and_eq_true, beq_iff_eq, beq_iff_eq] at hplace
  obtain ⟨rfl, rfl⟩ := hplace
  exact List.mem_reverse.1 (List.mem_of_find?_eq_some hfind)

/-- Where no two entries have one place, every entry is the last in its place. -/
theorem last?_of_nodup {f : Filter} (h : (f.entries.map fun e => (e.1, e.2.1)).Nodup) {e : String × String × Json}
    (he : e ∈ f.entries) : f.last? e.1 e.2.1 = some e.2.2 := by
  obtain ⟨v, hv⟩ : ∃ v, f.last? e.1 e.2.1 = some v := by
    refine Option.isSome_iff_exists.1 ?_
    rw [last?, Option.isSome_map, List.find?_isSome]
    exact ⟨e, List.mem_reverse.2 he, by simp⟩
  rw [hv, ← List.inj_on_of_nodup_map h (mem_entries_of_last? hv) he rfl]

/-- The entries of one more predicate are looked for last. -/
theorem last?_cons (p : Predicate String) (f : Filter) (c key : String) :
    last? (p :: f) c key =
      (f.last? c key).or (if p.column = c then (p.asked.reverse.find? (·.1 == key)).map (·.2) else none) := by
  have hfind : ((p.asked.map (p.column, ·)).reverse.find? fun e => e.1 == c && e.2.1 == key) =
      if p.column = c then (p.asked.reverse.find? (·.1 == key)).map (p.column, ·) else none := by
    rw [← List.map_reverse, List.find?_map]
    by_cases hc : p.column = c
    · rw [if_pos hc]
      congr 2
      funext e
      simp [hc]
    · rw [if_neg hc, Option.map_eq_none_iff, List.find?_eq_none]
      simp [hc]
  rw [last?, entries, List.flatMap_cons, List.reverse_append, List.find?_append, Option.map_or, hfind]
  congr 1
  split
  · rw [Option.map_map]
    rfl
  · rfl

/-- Under a column and a key the document has the last entry with them. -/
theorem get?_asked (f : Filter) (c key : String) : ((asked f).get? c).bind (·.get? key) = f.last? c key := by
  -- The map that the predicates are added to is left open: what is under the key so far stands if no entry replaces it.
  have hrun : ∀ (f : Filter) (doc : Named (Named Json)),
      ((f.foldl (fun doc p => doc.insert p.column (((doc.get? p.column).getD .empty).overlay p.asked)) doc).get? c).bind
        (·.get? key) = (f.last? c key).or ((doc.get? c).bind (·.get? key)) := by
    intro f
    induction f with
    | nil => exact fun _ => rfl
    | cons p f ih =>
      intro doc
      have hstep : ((doc.insert p.column (((doc.get? p.column).getD .empty).overlay p.asked)).get? c).bind (·.get? key) =
          (if p.column = c then (p.asked.reverse.find? (·.1 == key)).map (·.2) else none).or
            ((doc.get? c).bind (·.get? key)) := by
        rw [Named.get?_insert]
        by_cases hc : p.column = c
        · subst hc
          rw [if_pos rfl, if_pos rfl, Option.bind_some, Named.overlay, Named.get?_foldl_insert]
          cases doc.get? p.column <;> rfl
        · rw [if_neg (Ne.symm hc), if_neg hc, Option.none_or]
      rw [List.foldl_cons, ih, hstep, last?_cons, Option.or_assoc]
  rw [asked, hrun, Named.get?_empty, Option.bind_none, Option.or_none]

end Filter

namespace Record

/-- The record meets every entry that a document has for a column. -/
def meetsColumn (r : Record) (c : String) : Json → Bool
  | .object entries => entries.all fun e => r.meetsEntry c e.1 e.2
  | _ => false

/-- The record meets every entry of every column of a document. -/
def meetsDocument (r : Record) : Json → Bool
  | .object columns => columns.all fun e => r.meetsColumn e.1 e.2
  | _ => false

/-- A record meets a filter's document where it meets the last entry of each column and key. -/
theorem meetsDocument_iff (r : Record) (f : Filter) : r.meetsDocument f.document.asWritten = true ↔
    ∀ c key v, f.last? c key = some v → r.meetsEntry c key v.asWritten = true := by
  have hcolumn : ∀ c (m : Named Json), r.meetsColumn c (Json.object m.entries).asWritten = true ↔
      ∀ key v, m.get? key = some v → r.meetsEntry c key v.asWritten = true := by
    intro c m
    rw [asWritten, asWrittenMembers_eq_map, meetsColumn, List.all_map, List.all_eq_true]
    simp only [Named.get?_eq_some_iff]
    exact ⟨fun h key v hv => h (key, v) hv, fun h e he => h e.1 e.2 he⟩
  rw [Filter.document, asWritten, asWrittenMembers_eq_map, meetsDocument, List.map_map, List.all_map, List.all_eq_true]
  simp only [← Filter.get?_asked, Option.bind_eq_some_iff]
  constructor
  · rintro h c key v ⟨m, hm, hv⟩
    exact (hcolumn c m).1 (h (c, m) ((Named.get?_eq_some_iff _ c m).1 hm)) key v hv
  · intro h e he
    exact (hcolumn e.1 e.2).2 fun key v hv => h e.1 key v ⟨e.2, (Named.get?_eq_some_iff _ e.1 e.2).2 he, hv⟩

/-- A record meets the predicates of a filter where it meets all the entries that they ask for. -/
theorem all_meets_iff {f : Filter} (hf : f.Plain) (r : Record) : f.all r.meets = true ↔
    ∀ e ∈ f.entries, r.meetsEntry e.1 e.2.1 e.2.2.asWritten = true := by
  rw [List.all_eq_true]
  constructor
  · intro h e he
    obtain ⟨p, hp, hasked⟩ := List.mem_flatMap.1 he
    obtain ⟨a, ha, rfl⟩ := List.mem_map.1 hasked
    exact (Predicate.meets_iff_asked (hf p hp) r).1 (h p hp) a ha
  · intro h p hp
    exact (Predicate.meets_iff_asked (hf p hp) r).2 fun a ha =>
      h (p.column, a) (List.mem_flatMap.2 ⟨p, hp, List.mem_map.2 ⟨a, ha, rfl⟩⟩)

end Record

/-- The document of a filter asks for the last of the entries with one column and key. So a record that meets the filter meets
the document, and one that meets the document meets the filter where it meets the entries that others replaced; where no two
predicates ask in one way of one column, the two are met by the same records. This is for numbers that are finite or missing:
an infinite one is written as null, and no record meets it. -/
theorem document_asks_last_entries (f : Filter) (r : Record) :
    (r.meetsDocument f.document.asWritten = true ↔
      ∀ c key v, f.last? c key = some v → r.meetsEntry c key v.asWritten = true) ∧
    (∀ c (rel : Relation) x, f.last? c rel.key = some (.real x) → x.isFinite = false →
      r.meetsDocument f.document.asWritten = false) ∧
    (f.Plain →
      (f.all r.meets = true → r.meetsDocument f.document.asWritten = true) ∧
      (f.all r.meets = true ↔ r.meetsDocument f.document.asWritten = true ∧
        ∀ e ∈ f.entries, f.last? e.1 e.2.1 ≠ some e.2.2 → r.meetsEntry e.1 e.2.1 e.2.2.asWritten = true) ∧
      ((f.entries.map fun e => (e.1, e.2.1)).Nodup →
        (r.meetsDocument f.document.asWritten = true ↔ f.all r.meets = true))) := by
  have hdocument := r.meetsDocument_iff f
  refine ⟨hdocument, fun c rel x hlast hx => ?_, fun hf => ?_⟩
  · rw [Bool.eq_false_iff]
    intro h
    have hmet := hdocument.1 h c rel.key (.real x) hlast
    rw [Predicate.meetsEntry_of_not_finite r c rel hx] at hmet
    exact Bool.false_ne_true hmet
  have hfilter := Record.all_meets_iff hf r
  have hkept : f.all r.meets = true → r.meetsDocument f.document.asWritten = true := by
    intro h
    exact hdocument.2 fun c key v hv => hfilter.1 h (c, key, v) (Filter.mem_entries_of_last? hv)
  have hlost : r.meetsDocument f.document.asWritten = true →
      (∀ e ∈ f.entries, f.last? e.1 e.2.1 ≠ some e.2.2 → r.meetsEntry e.1 e.2.1 e.2.2.asWritten = true) →
      f.all r.meets = true := by
    intro h hreplaced
    refine hfilter.2 fun e he => ?_
    by_cases hlast : f.last? e.1 e.2.1 = some e.2.2
    · exact hdocument.1 h e.1 e.2.1 e.2.2 hlast
    · exact hreplaced e he hlast
  refine ⟨hkept, ⟨fun h => ⟨hkept h, fun e he _ => hfilter.1 h e he⟩, fun h => hlost h.1 h.2⟩, fun hplaces => ?_⟩
  exact ⟨fun h => hlost h fun e he hne => absurd (Filter.last?_of_nodup hplaces he) hne, hkept⟩

/-- A record of the table with two of its columns. -/
def Record.sample (name : String) (earnings : Float) : Record where
  symbol := "A"
  text c := if c = .name then some name else none
  number c := if c = .pe then some earnings else none

/-- Two bounds of different kinds and a search are all in the document. -/
theorem bounds_and_search_kept :
    let f : Filter := [.compare "pe" .gt (.number 0.0), .compare "pe" .lt (.number 20.0), .contains "name" "a.b"]
    (Record.sample "xA.By" 5.0).meetsDocument f.document.asWritten = true ∧
      (Record.sample "xAcBy" 5.0).meetsDocument f.document.asWritten = false := by
  intro f
  have hplain : f.Plain := by decide +kernel
  have hplaces : (f.entries.map fun e => (e.1, e.2.1)).Nodup := by decide +kernel
  refine ⟨(((document_asks_last_entries f _).2.2 hplain).2.2 hplaces).2 (by decide +kernel), ?_⟩
  rw [Bool.eq_false_iff, ne_eq, ((document_asks_last_entries f _).2.2 hplain).2.2 hplaces]
  decide +kernel

/-- Of two lower bounds the document has the later one, which a record can meet without the other. -/
theorem earlier_bound_is_lost :
    let f : Filter := [.compare "pe" .gt (.number 10.0), .compare "pe" .gt (.number 0.0)]
    (Record.sample "A" 5.0).meetsDocument f.document.asWritten = true ∧ f.all (Record.sample "A" 5.0).meets = false := by
  decide +kernel

end EquityScreen
