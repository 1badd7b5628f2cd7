import EquityScreen.Proofs.Lemmas.Checks
import EquityScreen.Proofs.Lemmas.Orders
import EquityScreen.Proofs.Lemmas.Selections
import EquityScreen.Proofs.Lemmas.Tokens

/-!
# Statements read back

The text of a filter is read as its predicates, token by token (`Filter.ofText_statement`), and the values are bound in the order
of the marks (`Filter.binds_statement`). So what the store makes of the text are the clauses of the predicates
(`Filter.exists_statement`), and what it makes of an `ORDER BY` are the terms of the sorts (`exists_orderBy`).
-/

namespace EquityScreen

/-- Where the parts of each item are read as something, all parts are read as these one after another. -/
theorem mapM_flatMap_of_forall {α β γ : Type} {f : β → Option γ} {parts : α → List β} {read : α → List γ}
    (h : ∀ a, (parts a).mapM f = some (read a)) (as : List α) : (as.flatMap parts).mapM f = some (as.flatMap read) := by
  induction as with
  | nil => rfl
  | cons a rest ih =>
    rw [List.flatMap_cons, List.mapM_append, h, ih]
    rfl

/-! ## Predicates as tokens -/

/-- Values with commas between them. -/
def Token.listed : List Value → List (Token Value)
  | [] => []
  | v :: vs => mark v :: vs.flatMap fun v => [sign ',', mark v]

namespace Predicate

/-- The predicate as tokens, its values behind their marks. -/
def tokens : Predicate String → List (Token Value)
  | compare c rel v => [.word c, .relation rel.symbol, .mark v]
  | compareColumns c rel d => [.word c, .relation rel.symbol, .word d]
  | range c low high =>
    [.word c, .relation ">=", .mark (.number low), .word "AND", .word c, .relation "<=", .mark (.number high)]
  -- Nothing is among no values, so the column is not looked at.
  | among _ [] => [.word "0", .relation "=", .word "1"]
  | among c vs => [.word c, .word "IN", .sign '('] ++ Token.listed vs ++ [.sign ')']
  | outside c [] => [.word c, .word "IS", .word "NOT", .word "NULL"]
  | outside c vs => [.word c, .word "NOT", .word "IN", .sign '('] ++ Token.listed vs ++ [.sign ')']
  | contains c needle =>
    [.word "LOWER", .sign '(', .word c, .sign ')', .word "LIKE", .mark (.text (containsPattern needle)), .word "ESCAPE",
      .sign '\'', .sign '\\', .sign '\'']

/-- As many marks are read as there are values. -/
theorem ofText_marks (vs : List Value) : Token.ofText (marks vs.length) = (Token.listed vs).map Token.erase := by
  cases vs with
  | nil => rfl
  | cons v rest =>
    have hrest : ((List.replicate rest.length "?").flatMap fun t => Token.ofText ", " ++ Token.ofText t) =
        (rest.flatMap fun v => [Token.sign ',', Token.mark v]).map Token.erase := by
      induction rest with
      | nil => rfl
      | cons w rest ih =>
        rw [List.length_cons, List.replicate_succ, List.flatMap_cons, ih]
        rfl
    rw [marks, List.length_cons, List.replicate_succ, Token.ofText_join (by decide), hrest]
    rfl

/-- The clause of a predicate is read as the tokens of the predicate. -/
theorem ofText_clause (p : Predicate Column) :
    Token.ofText p.clause = (p.rename Column.label).tokens.map Token.erase := by
  -- Each clause is taken apart at its blanks and brackets, from the right; what is left are names and fixed texts.
  cases p with
  | compare c rel v =>
    show Token.ofText (c.label ++ " " ++ rel.symbol ++ " ?") = _
    rw [Token.ofText_append_right _ " ?" (by decide), Token.ofText_separated (by decide), Token.ofText_label,
      Token.ofText_symbol]
    rfl
  | compareColumns c rel d =>
    show Token.ofText (c.label ++ " " ++ rel.symbol ++ " " ++ d.label) = _
    rw [Token.ofText_separated (by decide), Token.ofText_separated (by decide), Token.ofText_label, Token.ofText_label,
      Token.ofText_symbol]
    rfl
  | range c low high =>
    show Token.ofText (c.label ++ " >= ? AND " ++ c.label ++ " <= ?") = _
    rw [Token.ofText_append_right _ " <= ?" (by decide), Token.ofText_separated (by decide), Token.ofText_label]
    rfl
  | among c vs =>
    cases vs with
    | nil =>
      show Token.ofText "0=1" = _
      rfl
    | cons v vs =>
      show Token.ofText (c.label ++ " IN (" ++ marks (v :: vs).length ++ ")") = _
      rw [Token.ofText_append_right _ ")" (by decide), Token.ofText_separated (by decide), Token.ofText_label, ofText_marks,
        rename, tokens, List.map_append, List.map_append]
      · rfl
      · simp
  | outside c vs =>
    cases vs with
    | nil =>
      show Token.ofText (c.label ++ " IS NOT NULL") = _
      rw [Token.ofText_append_right _ " IS NOT NULL" (by decide), Token.ofText_label]
      rfl
    | cons v vs =>
      show Token.ofText (c.label ++ " NOT IN (" ++ marks (v :: vs).length ++ ")") = _
      rw [Token.ofText_append_right _ ")" (by decide), Token.ofText_separated (by decide), Token.ofText_label, ofText_marks,
        rename, tokens, List.map_append, List.map_append]
      · rfl
      · simp
  | contains c needle =>
    show Token.ofText ("LOWER(" ++ c.label ++ ") LIKE ? ESCAPE '\\'") = _
    rw [Token.ofText_append_right _ ") LIKE ? ESCAPE '\\'" (by decide), Token.ofText_append_left "LOWER(" _ (by decide),
      Token.ofText_label]
    rfl

theorem values_listed (vs : List Value) : (Token.listed vs).filterMap Token.value? = vs := by
  cases vs with
  | nil => rfl
  | cons v rest =>
    rw [Token.listed, List.filterMap_cons]
    simp only [Token.value?, List.cons.injEq, true_and]
    induction rest with
    | nil => rfl
    | cons w rest ih =>
      rw [List.flatMap_cons, List.filterMap_append, ih]
      rfl

/-- The values that a predicate binds are those behind the marks of its tokens. -/
theorem binds_eq (p : Predicate String) : p.binds = p.tokens.filterMap Token.value? := by
  cases p with
  | among c vs =>
    cases vs with
    | nil => rfl
    | cons v vs => simp [binds, tokens, List.filterMap_cons, Token.value?, values_listed]
  | outside c vs =>
    cases vs with
    | nil => rfl
    | cons v vs => simp [binds, tokens, List.filterMap_cons, Token.value?, values_listed]
  | _ => rfl

end Predicate

namespace Filter

/-- The tokens of a filter: a comparison that always holds, and after it the predicates. -/
def tokens (f : Filter) : List (Token Value) :=
  [.word "1", .relation "=", .word "1"] ++ f.flatMap fun p => .word "AND" :: p.tokens

/-- The statement of a filter is read as the tokens of the filter. -/
theorem ofText_statement {f : Filter} {st : Statement} (h : f.statement = .ok st) :
    Token.ofText st.condition = f.tokens.map Token.erase := by
  obtain ⟨ps, hps, h⟩ := bind_eq_ok h
  obtain rfl := Except.ok.inj h
  obtain rfl := Predicate.map_rename_mapM_check hps
  rw [Token.ofText_join (by decide), tokens, List.map_append, List.flatMap_map, List.flatMap_map, List.map_flatMap]
  simp only [Predicate.ofText_clause]
  rfl

/-- The statement of a filter binds the values of its predicates, and they are those behind the marks of its tokens. -/
theorem binds_statement {f : Filter} {st : Statement} (h : f.statement = .ok st) :
    st.binds = f.flatMap Predicate.binds ∧ st.binds = f.tokens.filterMap Token.value? := by
  obtain ⟨ps, hps, h⟩ := bind_eq_ok h
  obtain rfl := Except.ok.inj h
  obtain rfl := Predicate.map_rename_mapM_check hps
  have hbinds : ps.flatMap Predicate.binds = (ps.map (Predicate.rename Column.label)).flatMap Predicate.binds := by
    rw [List.flatMap_map]
    refine List.flatMap_congr fun p _ => ?_
    cases p <;> rfl
  refine ⟨hbinds, hbinds.trans ?_⟩
  rw [tokens, List.filterMap_append, List.filterMap_flatMap]
  refine List.flatMap_congr fun p _ => ?_
  rw [p.binds_eq]
  rfl

end Filter

/-! ## Clauses -/

/-- No column is named as the word between clauses. -/
theorem Column.label_ne_and (c : Column) : c.label ≠ "AND" := by
  cases c with
  | symbol => decide
  | text c => cases c <;> decide
  | number c => cases c <;> decide

/-- The name of a column is read as the column. -/
theorem Side.ofToken?_label (c : Column) : Side.ofToken? (.word c.label) = some (.column c) := by
  cases c with
  | symbol => rfl
  | text c => cases c <;> rfl
  | number c => cases c <;> rfl

/-- The signs of a relation are read as the relation. -/
theorem Relation.ofSigns?_symbol (rel : Relation) : Relation.ofSigns? rel.symbol = some rel := by
  cases rel <;> rfl

namespace Clause

/-- Listed values are read as they are. -/
theorem listed?_listed (v : Value) (vs : List Value) : listed? (Token.listed (v :: vs) ++ [.sign ')']) = some (v :: vs) := by
  induction vs generalizing v with
  | nil => rfl
  | cons w rest ih =>
    show listed? (.mark v :: .sign ',' :: (Token.listed (w :: rest) ++ [.sign ')'])) = _
    rw [listed?, ih, Option.map_some]

/-- A comparison is read as one. -/
theorem ofTokens?_compare {left right : Token Value} {l r : Side} (hl : Side.ofToken? left = some l)
    (hr : Side.ofToken? right = some r) (rel : Relation) :
    ofTokens? [left, .relation rel.symbol, right] = some (.compare l rel r) := by
  rw [ofTokens?, hl, hr, rel.ofSigns?_symbol]
  rfl

/-- What is listed behind a column is looked up. -/
theorem ofTokens?_isIn (c : Column) {values : List (Token Value)} {vs : List Value} (h : listed? values = some vs) :
    ofTokens? (.word c.label :: .word "IN" :: .sign '(' :: values) = some (.isIn c vs) := by
  simp [ofTokens?, Column.ofName?_label, h]

theorem ofTokens?_notIn (c : Column) {values : List (Token Value)} {vs : List Value} (h : listed? values = some vs) :
    ofTokens? (.word c.label :: .word "NOT" :: .word "IN" :: .sign '(' :: values) = some (.notIn c vs) := by
  simp [ofTokens?, Column.ofName?_label, h]

theorem ofTokens?_notNull (c : Column) :
    ofTokens? [.word c.label, .word "IS", .word "NOT", .word "NULL"] = some (.notNull c) := by
  rw [ofTokens?, Column.ofName?_label]
  rfl

theorem ofTokens?_lowerLike (c : Column) (v : Value) :
    ofTokens? [.word "LOWER", .sign '(', .word c.label, .sign ')', .word "LIKE", .mark v, .word "ESCAPE", .sign '\'', .sign '\\',
      .sign '\''] = some (.lowerLike c v) := by
  rw [ofTokens?, Column.ofName?_label]
  rfl

/-- Tokens without the word between clauses are one clause. -/
theorem mapM_split_eq_singleton {ts : List (Token Value)} {clause : Clause} (h : ∀ t ∈ ts, Token.isAnd t = false)
    (hread : ofTokens? ts = some clause) : (Token.split Token.isAnd ts).mapM ofTokens? = some [clause] := by
  rw [Token.split_eq_singleton h, List.mapM_cons, hread]
  rfl

/-- Values in brackets do not separate. -/
theorem isAnd_bracketed {front : List (Token Value)} (h : ∀ t ∈ front, Token.isAnd t = false) (vs : List Value) :
    ∀ t ∈ front ++ Token.listed vs ++ [.sign ')'], Token.isAnd t = false := by
  have hlisted : ∀ t ∈ Token.listed vs, Token.isAnd t = false := by
    intro t ht
    cases vs with
    | nil => exact absurd ht (by simp [Token.listed])
    | cons v vs =>
      rcases List.mem_cons.1 ht with rfl | ht
      · rfl
      · obtain ⟨w, -, ht⟩ := List.mem_flatMap.1 ht
        simp only [List.mem_cons, List.not_mem_nil, or_false] at ht
        rcases ht with rfl | rfl <;> rfl
  intro t ht
  rcases List.mem_append.1 ht with ht | ht
  · exact (List.mem_append.1 ht).elim (h t) (hlisted t)
  · obtain rfl := List.mem_singleton.1 ht
    rfl

end Clause

/-- The only word between clauses in a predicate is that between the bounds of a range, and the parts that it leaves are read as
the clauses of the predicate. -/
theorem Predicate.mapM_ofTokens? (p : Predicate Column) :
    (Token.split Token.isAnd (p.rename Column.label).tokens).mapM Clause.ofTokens? = some p.clauses := by
  have hcolumn := fun c => Side.ofToken?_label c
  have hbound : ∀ v, Side.ofToken? (.mark v) = some (.bound v) := fun v => rfl
  cases p with
  | compare c rel v =>
    refine Clause.mapM_split_eq_singleton ?_ (Clause.ofTokens?_compare (hcolumn c) (hbound v) rel)
    simp [rename, tokens, Token.isAnd, c.label_ne_and]
  | compareColumns c rel d =>
    refine Clause.mapM_split_eq_singleton ?_ (Clause.ofTokens?_compare (hcolumn c) (hcolumn d) rel)
    simp [rename, tokens, Token.isAnd, c.label_ne_and, d.label_ne_and]
  | range c low high =>
    let bound (rel : Relation) (v : Value) : List (Token Value) := [.word c.label, .relation rel.symbol, .mark v]
    have hone : ∀ rel v, (Token.split Token.isAnd (bound rel v)).mapM Clause.ofTokens? =
        some [.compare (.column c) rel (.bound v)] := by
      intro rel v
      refine Clause.mapM_split_eq_singleton ?_ (Clause.ofTokens?_compare (hcolumn c) (hbound v) rel)
      simp [bound, Token.isAnd, c.label_ne_and]
    show (Token.split Token.isAnd (bound .gte (.number low) ++ .word "AND" :: bound .lte (.number high))).mapM _ = _
    rw [Token.split_append rfl, List.mapM_append, hone, hone]
    rfl
  | among c vs =>
    cases vs with
    | nil => rfl
    | cons v vs =>
      refine Clause.mapM_split_eq_singleton (Clause.isAnd_bracketed ?_ _) (Clause.ofTokens?_isIn c (Clause.listed?_listed v vs))
      simp [Token.isAnd, c.label_ne_and]
  | outside c vs =>
    cases vs with
    | nil =>
      refine Clause.mapM_split_eq_singleton ?_ (Clause.ofTokens?_notNull c)
      simp [rename, tokens, Token.isAnd, c.label_ne_and]
    | cons v vs =>
      refine Clause.mapM_split_eq_singleton (Clause.isAnd_bracketed ?_ _) (Clause.ofTokens?_notIn c (Clause.listed?_listed v vs))
      simp [Token.isAnd, c.label_ne_and]
  | contains c needle =>
    refine Clause.mapM_split_eq_singleton ?_ (Clause.ofTokens?_lowerLike c _)
    simp [rename, tokens, Token.isAnd, c.label_ne_and]

/-- A filter that passes its check has a statement, and what the store makes of that are the clauses of the predicates. -/
theorem Filter.exists_statement {f : Filter} {ps : List (Predicate Column)} (hps : f.mapM Predicate.check = .ok ps) :
    ∃ st, f.statement = .ok st ∧ st.clauses? = some (Filter.clauses ps) := by
  obtain ⟨st, hst⟩ : ∃ st, f.statement = .ok st := ⟨_, by rw [statement, hps]; rfl⟩
  obtain ⟨-, hbinds⟩ := Filter.binds_statement hst
  refine ⟨st, hst, ?_⟩
  rw [Statement.clauses?, Filter.ofText_statement hst, hbinds, Token.fill_erase]
  obtain rfl := Predicate.map_rename_mapM_check hps
  show (Token.split Token.isAnd (_ ++ _)).mapM Clause.ofTokens? = _
  rw [Token.split_flatMap rfl, List.mapM_append, List.flatMap_map, mapM_flatMap_of_forall Predicate.mapM_ofTokens?]
  rfl

/-! ## Orders -/

namespace OrderTerm

/-- The term in an `ORDER BY`. -/
def text : OrderTerm → String
  | isNull c => s!"{c.label} IS NULL"
  | ascending c => s!"{c.label} {Direction.asc.keyword}"
  | descending c => s!"{c.label} {Direction.desc.keyword}"

/-- A term is read as words, the first of them the name of its column. -/
theorem ofText_text (t : OrderTerm) :
    Token.ofText t.text = match t with
      | isNull c => [.word c.label, .word "IS", .word "NULL"]
      | ascending c => [.word c.label, .word "ASC"]
      | descending c => [.word c.label, .word "DESC"] := by
  cases t with
  | isNull c =>
    show Token.ofText (c.label ++ " IS NULL") = _
    rw [Token.ofText_append_right _ " IS NULL" (by decide), Token.ofText_label]
    rfl
  | ascending c =>
    show Token.ofText (c.label ++ " " ++ "ASC") = _
    rw [Token.ofText_separated (by decide), Token.ofText_label]
    rfl
  | descending c =>
    show Token.ofText (c.label ++ " " ++ "DESC") = _
    rw [Token.ofText_separated (by decide), Token.ofText_label]
    rfl

/-- No word of a term separates. -/
theorem isComma_text (t : OrderTerm) : ∀ token ∈ Token.ofText t.text, Token.isComma token = false := by
  rw [ofText_text]
  cases t <;> simp [Token.isComma]

/-- A term is read as itself. -/
theorem ofTokens?_text (t : OrderTerm) : ofTokens? (Token.ofText t.text) = some t := by
  rw [ofText_text]
  cases t <;> simp [ofTokens?, Column.ofName?_label]

/-- Terms with commas between them are read as they are. -/
theorem ofText?_join (t : OrderTerm) (more : List OrderTerm) :
    ofText? (Text.join ", " ((t :: more).map text)) = some (t :: more) := by
  have hread : ∀ t : OrderTerm, (Token.split Token.isComma (Token.ofText t.text)).mapM ofTokens? = some [t] := by
    intro t
    rw [Token.split_eq_singleton t.isComma_text, List.mapM_cons, t.ofTokens?_text]
    rfl
  have htokens : Token.ofText (Text.join ", " ((t :: more).map text)) =
      Token.ofText t.text ++ more.flatMap fun t => .sign ',' :: Token.ofText t.text := by
    rw [List.map_cons, Token.ofText_join (by decide), List.flatMap_map]
    rfl
  have hall := mapM_flatMap_of_forall hread (t :: more)
  rw [List.flatMap_cons, List.flatMap_singleton'] at hall
  rw [ofText?, htokens, Token.split_flatMap rfl, hall]

end OrderTerm

/-- A sort is written as its terms. -/
theorem ColumnSort.clauses_eq (s : ColumnSort Column) : s.clauses = s.terms.map OrderTerm.text := by
  obtain ⟨c, d⟩ := s
  cases d <;> rfl

/-- Sorts that pass their check have an `ORDER BY`, and what the store makes of that are the terms of the sorts. -/
theorem exists_orderBy {sorts : List (ColumnSort String)} {checked : List (ColumnSort Column)}
    (h : sorts.mapM ColumnSort.check = .ok checked) :
    ∃ order, orderBy sorts = .ok order ∧ OrderTerm.ofText? order = some (orderTerms checked) := by
  refine ⟨Text.join ", " ((orderTerms checked).map OrderTerm.text), ?_, ?_⟩
  · have hclauses : checked.flatMap ColumnSort.clauses = (checked.flatMap ColumnSort.terms).map OrderTerm.text := by
      rw [List.map_flatMap]
      exact List.flatMap_congr fun s _ => s.clauses_eq
    rw [orderBy, h, orderTerms, List.map_append, ← hclauses]
    rfl
  · cases hterms : orderTerms checked with
    | nil => exact absurd hterms (by simp [orderTerms])
    | cons t more => exact OrderTerm.ofText?_join t more

end EquityScreen
