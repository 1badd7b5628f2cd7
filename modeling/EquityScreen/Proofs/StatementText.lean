import EquityScreen.Proofs.Lemmas.Statements

/-!
# The text of a statement

A statement says which columns are compared, how, and with how many values; what the values are it does not say. This is read
off its text: as tokens it is the filter, predicate after predicate, with a mark where a literal stands
(`Filter.ofText_statement`), and blanking the literals changes nothing in it (`Filter.condition_blank`). The values are bound
in the order of the marks (`literals_stay_behind_marks`).
-/

namespace EquityScreen

/-! ## Words -/

/-- The words of a statement that are no names of columns. -/
def keywords : List String := ["0", "1", "AND", "IN", "IS", "NOT", "NULL", "LOWER", "LIKE", "ESCAPE"]

namespace Predicate

/-- The words of a predicate that are no keywords are its names. -/
theorem mem_columns_of_mem_tokens {p : Predicate String} {w : String} (h : Token.word w ∈ p.tokens) :
    w ∈ keywords ∨ w ∈ p.columns := by
  have hlisted : ∀ vs, Token.word w ∉ Token.listed vs := by
    intro vs
    cases vs <;> simp [Token.listed]
  cases p with
  | among c vs =>
    cases vs <;> simp [tokens, hlisted, keywords, columns, column] at h ⊢
    all_goals tauto
  | outside c vs =>
    cases vs <;> simp [tokens, hlisted, keywords, columns, column] at h ⊢
    all_goals tauto
  | _ =>
    simp [tokens, keywords, columns, column] at h ⊢
    tauto

/-! ## Predicates without their values -/

variable {κ : Type}

/-- The predicate with nothing known of its values but how many they are. -/
def blank : Predicate κ → Predicate κ
  | compare c rel _ => compare c rel (.text "")
  | compareColumns c rel d => compareColumns c rel d
  | range c _ _ => range c 0 0
  | among c vs => among c (vs.map fun _ => .text "")
  | outside c vs => outside c (vs.map fun _ => .text "")
  | contains c _ => contains c ""

theorem check_blank (p : Predicate String) : p.blank.check = p.check.map blank := by
  cases p
  case compareColumns c rel d =>
    simp only [blank, check]
    cases Column.check c with
    | error e => rfl
    | ok left => cases Column.check d <;> rfl
  all_goals
    simp only [blank, check]
    cases Column.check _ <;> rfl

theorem mapM_check_blank (f : Filter) : (f.map blank).mapM check = (f.mapM check).map (List.map blank) := by
  induction f with
  | nil => rfl
  | cons p rest ih =>
    rw [List.map_cons, List.mapM_cons, List.mapM_cons, check_blank, ih]
    cases p.check with
    | error e => rfl
    | ok q => cases rest.mapM check <;> rfl

/-- The clause of a predicate shows nothing of its values. -/
theorem clause_blank (p : Predicate Column) : p.blank.clause = p.clause := by
  cases p <;> simp [blank, clause]

end Predicate

namespace Filter

theorem refused_statement (f : Filter) : RefusedFor (f.flatMap Predicate.columns) f.statement := by
  rw [← List.append_nil (f.flatMap Predicate.columns)]
  exact (RefusedFor.mapM Predicate.refused_check f).bind fun ps => .ok _

/-- What a statement says does not depend on the values that it binds, and neither does an error. -/
theorem condition_blank (f : Filter) :
    (Filter.statement (f.map Predicate.blank)).map (·.condition) = f.statement.map (·.condition) := by
  rw [statement, statement, Predicate.mapM_check_blank]
  cases f.mapM Predicate.check with
  | error e => rfl
  | ok ps =>
    have hclauses : (ps.map Predicate.blank).map Predicate.clause = ps.map Predicate.clause := by
      rw [List.map_map]
      exact List.map_congr_left fun p _ => p.clause_blank
    simp [Except.map, bind, Except.bind, pure, Except.pure, hclauses]

/-- The words of a statement are keywords and names of columns. -/
theorem word_of_mem_ofText {f : Filter} {st : Statement} (h : f.statement = .ok st) {w : String}
    (hw : Token.word w ∈ Token.ofText st.condition) : w ∈ keywords ∨ ∃ c : Column, c.label = w := by
  have hnames := f.refused_statement
  rw [h] at hnames
  rw [ofText_statement h] at hw
  obtain ⟨t, ht, herase⟩ := List.mem_map.1 hw
  obtain rfl := Token.eq_word_of_erase herase
  rcases List.mem_append.1 ht with halways | hpredicate
  · obtain rfl : w = "1" := by simpa using halways
    exact .inl (by decide)
  · obtain ⟨p, hp, hmem⟩ := List.mem_flatMap.1 hpredicate
    rcases List.mem_cons.1 hmem with hand | hmem
    · obtain rfl := Token.word.inj hand
      exact .inl (by decide)
    · rcases Predicate.mem_columns_of_mem_tokens hmem with hkeyword | hcolumn
      · exact .inl hkeyword
      · exact .inr (hnames.exists_label (List.mem_flatMap.2 ⟨p, hp, hcolumn⟩))

end Filter

/-- The literals of a filter stay behind the marks of its statement. A filter is refused for the first name in it that is the
name of no column, predicate after predicate, and for no other reason. The words of a statement are keywords and names of
columns; it has as many question marks as it binds values; and with the values put behind the marks in their order the text is
read as the predicates, each with its own literals in their places. Filters that differ in literals alone have the same text
or the same error. -/
theorem literals_stay_behind_marks (f : Filter) :
    (∀ e, f.statement = .error e ↔ firstUnknown? (f.flatMap Predicate.columns) = some e.name) ∧
      (∀ st, f.statement = .ok st →
        (∀ w, Token.word w ∈ Token.ofText st.condition → w ∈ keywords ∨ ∃ c : Column, c.label = w) ∧
          st.condition.toList.count '?' = st.binds.length ∧ st.binds = f.flatMap Predicate.binds ∧
          Token.fill (Token.ofText st.condition) st.binds = some f.tokens) ∧
      ∀ other : Filter, other.map Predicate.blank = f.map Predicate.blank →
        other.statement.map (·.condition) = f.statement.map (·.condition) := by
  refine ⟨f.refused_statement, ?_, ?_⟩
  · intro st hst
    obtain ⟨hbinds, hvalues⟩ := Filter.binds_statement hst
    refine ⟨fun w => Filter.word_of_mem_ofText hst, ?_, hbinds, ?_⟩
    · rw [← Token.countP_isMark_ofText, Filter.ofText_statement hst, Token.countP_isMark_erase, hvalues]
    · rw [Filter.ofText_statement hst, hvalues]
      exact Token.fill_erase f.tokens
  · intro other hother
    rw [← other.condition_blank, hother, f.condition_blank]

/-- Texts that a statement would read as more of itself are bound, and one that is given as a column is refused. -/
theorem quotes_are_bound :
    let f : Filter := [.among "industry" [.text "x' OR '1'='1", .text "?"], .contains "name" "50%"]
    let harmless : Filter := [.among "industry" [.text "bank", .text "steel"], .contains "name" "50"]
    let text := "1=1 AND industry IN (?, ?) AND LOWER(name) LIKE ? ESCAPE '\\'"
    let binds : List Value := [.text "x' OR '1'='1", .text "?", .text "%50\\%%"]
    f.statement = .ok ⟨text, binds⟩ ∧ Token.fill (Token.ofText text) binds = some f.tokens ∧
      harmless.statement.map (·.condition) = .ok text ∧
      Filter.statement (.compare "pe OR 1=1" .eq (.number 0) :: f) = .error ⟨"pe OR 1=1"⟩ := by
  intro f harmless text binds
  obtain ⟨-, hread, hsame⟩ := literals_stay_behind_marks f
  have hstatement : f.statement = .ok ⟨text, binds⟩ := rfl
  refine ⟨hstatement, (hread _ hstatement).2.2.2, (hsame harmless rfl).trans (by rw [hstatement]; rfl), ?_⟩
  exact ((literals_stay_behind_marks (.compare "pe OR 1=1" .eq (.number 0) :: f)).1 _).2 (by decide)

end EquityScreen
