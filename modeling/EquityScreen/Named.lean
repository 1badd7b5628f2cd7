/-!
# Finite maps from names

A snapshot, the columns of a series and the fields of a result row are maps from names to values. The entries are kept in
strictly increasing order of their names, so two maps with the same entries are equal and a map is always listed in one
order. Names are ordered by their characters.
-/

namespace EquityScreen

/-- A finite map from names. -/
structure Named (α : Type) where
  entries : List (String × α)
  sorted : entries.Pairwise (fun a b => a.1 < b.1)

namespace Named

variable {α : Type}

/-- The map without entries. -/
def empty : Named α := ⟨[], .nil⟩

instance : Inhabited (Named α) := ⟨empty⟩

instance [DecidableEq α] : DecidableEq (Named α) := fun a b =>
  decidable_of_iff (a.entries = b.entries) (by cases a; cases b; simp)

/-- The value of a name. -/
def get? (m : Named α) (name : String) : Option α :=
  (m.entries.find? (·.1 == name)).map (·.2)

/-- The name has a value. -/
def contains (m : Named α) (name : String) : Bool :=
  m.entries.any (·.1 == name)

/-- The names that have a value, in increasing order. -/
def names (m : Named α) : List String :=
  m.entries.map (·.1)

/-- An entry put in its place, over an entry of the same name. -/
def insertEntry (name : String) (value : α) : List (String × α) → List (String × α)
  | [] => [(name, value)]
  | e :: rest =>
    if name < e.1 then (name, value) :: e :: rest
    else if name = e.1 then (name, value) :: rest
    else e :: insertEntry name value rest

theorem mem_insertEntry {name : String} {value : α} {es : List (String × α)} {e : String × α}
    (h : e ∈ insertEntry name value es) : e = (name, value) ∨ e ∈ es := by
  induction es with
  | nil => simpa [insertEntry] using h
  | cons first rest ih =>
    simp only [insertEntry] at h
    split at h
    · simpa using h
    · split at h
      · rcases List.mem_cons.1 h with h | h
        · exact .inl h
        · exact .inr (List.mem_cons_of_mem _ h)
      · rcases List.mem_cons.1 h with h | h
        · exact .inr (h ▸ List.mem_cons_self)
        · exact (ih h).imp_right (List.mem_cons_of_mem _)

theorem sorted_insertEntry {name : String} {value : α} {es : List (String × α)}
    (h : es.Pairwise (fun a b => a.1 < b.1)) : (insertEntry name value es).Pairwise (fun a b => a.1 < b.1) := by
  induction es with
  | nil => simp [insertEntry]
  | cons first rest ih =>
    obtain ⟨hf, hr⟩ := List.pairwise_cons.1 h
    simp only [insertEntry]
    split
    · rename_i hlt
      refine List.pairwise_cons.2 ⟨fun e he => ?_, h⟩
      rcases List.mem_cons.1 he with rfl | he
      · exact hlt
      · exact String.lt_trans hlt (hf e he)
    · split
      · rename_i heq
        exact List.pairwise_cons.2 ⟨fun e he => heq ▸ hf e he, hr⟩
      · rename_i hlt hne
        refine List.pairwise_cons.2 ⟨fun e he => ?_, ih hr⟩
        rcases mem_insertEntry he with rfl | he
        · have hle : first.1 ≤ name := String.not_lt.1 hlt
          exact String.not_le.1 fun hge => hne (String.le_antisymm hge hle)
        · exact hf e he

/-- The map with a value for the name. -/
def insert (m : Named α) (name : String) (value : α) : Named α :=
  ⟨insertEntry name value m.entries, sorted_insertEntry m.sorted⟩

/-- The map without a value for the name. -/
def erase (m : Named α) (name : String) : Named α :=
  ⟨m.entries.filter (·.1 != name), m.sorted.filter _⟩

/-- The map of a list of entries; of several with one name the last counts. -/
def ofList (es : List (String × α)) : Named α :=
  es.foldl (fun m e => m.insert e.1 e.2) empty

end Named

end EquityScreen
