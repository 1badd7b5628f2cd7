import EquityScreen.Proofs.Lemmas.Conditions
import EquityScreen.Proofs.Lemmas.Documents

/-!
# Conditions written and read back

The document of a condition is read as the condition it was made of (`Condition.ofJson_toJson`): a group has children, which a
leaf has not, and a leaf has one side, which is null only where a number is not finite. What is read of a document is finite
(`Condition.Finite.of_ofInput`), whatever the shape it was given in. So a condition that was read is written as a
document that reads back as the same condition.
-/

namespace EquityScreen

open Json

/-! ## Literals -/

namespace Literal

theorem toJsonAll_eq_map (items : List Literal) : toJson.toJsonAll items = items.map toJson := by
  induction items with
  | nil => rfl
  | cons item rest ih => rw [toJson.toJsonAll, ih, List.map_cons]

theorem ofItems_eq_mapM (items : List Json) : ofItems items = items.mapM ofJson := by
  induction items with
  | nil => rfl
  | cons item rest ih => rw [ofItems, ih, List.mapM_cons]

/-- The document of a literal reads as the literal. -/
theorem ofJson_toJson (v : Literal) : ofJson v.toJson = .ok v := by
  induction v using Literal.induct with
  | number x => rfl
  | text s => rfl
  | list items ih =>
    rw [toJson, toJsonAll_eq_map, ofJson, ofItems_eq_mapM, mapM_map_of_forall ih]
    rfl

/-- Every number of the literal is finite. -/
inductive Finite : Literal → Prop where
  | number {x : Float} (h : x.isFinite = true) : Finite (.number x)
  | text (s : String) : Finite (.text s)
  | list {items : List Literal} (h : ∀ v ∈ items, Finite v) : Finite (.list items)

/-- A finite literal has a document in range. -/
theorem Finite.inRange_toJson {v : Literal} (hv : v.Finite) : v.toJson.InRange := by
  induction hv with
  | number h => exact .number h
  | text s => exact .text s
  | list h ih =>
    rw [Literal.toJson, toJsonAll_eq_map]
    refine .list fun w hw => ?_
    obtain ⟨item, hitem, rfl⟩ := List.mem_map.1 hw
    exact ih item hitem

/-- A literal is written as a document in range. -/
theorem inRange_asWritten (v : Literal) : v.toJson.asWritten.InRange := by
  induction v using Literal.induct with
  | number x =>
    show (if x.isFinite then Json.real x else .null).InRange
    split
    · rename_i h
      exact .number h
    · exact .null
  | text s => exact .text s
  | list items ih =>
    rw [Literal.toJson, toJsonAll_eq_map, Json.asWritten, asWrittenItems_eq_map, List.map_map]
    refine .list fun w hw => ?_
    obtain ⟨item, hitem, rfl⟩ := List.mem_map.1 hw
    exact ih item hitem

/-- What is read of a document in range is a finite literal. -/
theorem Finite.of_ofJson {v : Literal} {w : Json} (hw : w.InRange) (h : ofJson w = .ok v) : v.Finite := by
  induction v using Literal.induct generalizing w with
  | number x =>
    cases w with
    | number n =>
      obtain rfl := Literal.number.inj (Except.ok.inj h)
      cases hw with
      | number h => exact .number h.isFinite
    | list items =>
      obtain ⟨vs, -, hvs⟩ := map_eq_ok h
      exact absurd hvs (by simp)
    | _ => exact absurd h (by simp [ofJson])
  | text s => exact .text s
  | list items ih =>
    cases w with
    | list ws =>
      rw [ofJson, ofItems_eq_mapM] at h
      obtain ⟨vs, hvs, hitems⟩ := map_eq_ok h
      obtain rfl := Literal.list.inj hitems
      refine .list fun v hv => ?_
      obtain ⟨w, hmem, hread⟩ := exists_of_mem_mapM hvs hv
      exact ih v hv (hw.of_mem_parts hmem) hread
    | _ => exact absurd h (by simp [ofJson])

end Literal

/-! ## Comparisons -/

namespace Operator

/-- The symbol of an operator names it. -/
theorem ofName?_symbol (op : Operator) : ofName? op.symbol = some op := by cases op <;> decide

theorem ofJson_symbol (op : Operator) : ofJson (.text op.symbol) = .ok op := by
  simp only [ofJson, asName, bind, Except.bind, ofName?_symbol]
  rfl

end Operator

namespace Leaf

/-- The number that a comparison is with, if it is with a literal, is finite. -/
def Finite (l : Leaf) : Prop := ∀ v, l.right = .literal v → v.Finite

/-- A literal is no null side. -/
theorem asOptional_toJson (v : Literal) : asOptional Literal.ofJson v.toJson = .ok (some v) := by
  have hread : asOptional Literal.ofJson v.toJson = (Literal.ofJson v.toJson).map some := by cases v <;> rfl
  rw [hread, v.ofJson_toJson]
  rfl

/-- The document of a comparison reads as the comparison. -/
theorem ofJson_toJson (l : Leaf) : ofJson l.toJson = .ok l := by
  obtain ⟨field, op, right⟩ := l
  cases right with
  | literal v =>
    have hfields : Json.fields names (toJson ⟨field, op, .literal v⟩) =
        .ok ⟨.keyed, [(0, .text field), (1, .text op.symbol), (2, v.toJson)]⟩ := rfl
    have hop : Fields.required ⟨.keyed, [(0, .text field), (1, .text op.symbol), (2, v.toJson)]⟩ 1 Operator.ofJson =
        .ok op := op.ofJson_symbol
    have hliteral : Fields.orElse ⟨.keyed, [(0, .text field), (1, .text op.symbol), (2, v.toJson)]⟩ 2 none
        (asOptional Literal.ofJson) = .ok (some v) := asOptional_toJson v
    simp only [ofJson, hfields, hop, hliteral, bind, Except.bind]
    rfl
  | field other =>
    have hfields : Json.fields names (toJson ⟨field, op, .field other⟩) =
        .ok ⟨.keyed, [(0, .text field), (1, .text op.symbol), (3, .text other)]⟩ := rfl
    have hop : Fields.required ⟨.keyed, [(0, .text field), (1, .text op.symbol), (3, .text other)]⟩ 1 Operator.ofJson =
        .ok op := op.ofJson_symbol
    simp only [ofJson, hfields, hop, bind, Except.bind]
    rfl

/-- A finite comparison has a document in range. -/
theorem Finite.inRange_toJson {l : Leaf} (hl : l.Finite) : l.toJson.InRange := by
  obtain ⟨field, op, right⟩ := l
  cases right with
  | literal v => exact .object (List.forall_mem_cons.2 ⟨.text _, List.forall_mem_cons.2 ⟨.text _,
      List.forall_mem_singleton.2 (hl v rfl).inRange_toJson⟩⟩)
  | field other => exact .object (List.forall_mem_cons.2 ⟨.text _, List.forall_mem_cons.2 ⟨.text _,
      List.forall_mem_singleton.2 (.text _)⟩⟩)

/-- A comparison is written as a document in range. -/
theorem inRange_asWritten (l : Leaf) : l.toJson.asWritten.InRange := by
  obtain ⟨field, op, right⟩ := l
  cases right with
  | literal v => exact .object (List.forall_mem_cons.2 ⟨.text _, List.forall_mem_cons.2 ⟨.text _,
      List.forall_mem_singleton.2 v.inRange_asWritten⟩⟩)
  | field other => exact .object (List.forall_mem_cons.2 ⟨.text _, List.forall_mem_cons.2 ⟨.text _,
      List.forall_mem_singleton.2 (.text _)⟩⟩)

/-- A literal that may be null and is read is the literal of its document. -/
theorem ofJson_of_asOptional {v : Literal} {w : Json} (h : asOptional Literal.ofJson w = .ok (some v)) :
    Literal.ofJson w = .ok v := by
  have hcases : asOptional Literal.ofJson w = .ok none ∨ asOptional Literal.ofJson w = (Literal.ofJson w).map some := by
    cases w <;> first | exact .inl rfl | exact .inr rfl
  rcases hcases with hnone | hmap
  · exact absurd (hnone.symm.trans h) (by simp)
  · obtain ⟨v', hv', hsome⟩ := map_eq_ok (hmap.symm.trans h)
    rwa [← Option.some.inj hsome]

/-- What is read of a document in range is a finite comparison. -/
theorem Finite.of_ofJson {l : Leaf} {w : Json} (hw : w.InRange) (h : ofJson w = .ok l) : l.Finite := by
  obtain ⟨fs, hfs, h⟩ := bind_eq_ok h
  obtain ⟨field, -, h⟩ := bind_eq_ok h
  obtain ⟨op, -, h⟩ := bind_eq_ok h
  obtain ⟨literal, hliteral, h⟩ := bind_eq_ok h
  obtain ⟨other, -, h⟩ := bind_eq_ok h
  cases other with
  | some name =>
    obtain rfl := Except.ok.inj h
    exact fun v hv => absurd hv (by simp [against])
  | none =>
    cases literal with
    | none => exact absurd h (by simp [throw, throwThe, MonadExceptOf.throw])
    | some v =>
      obtain rfl := Except.ok.inj h
      rintro _ ⟨⟩
      rw [Fields.orElse] at hliteral
      cases hside : fs.get? 2 with
      | none => simp [hside] at hliteral
      | some side =>
        rw [hside] at hliteral
        exact .of_ofJson (hw.of_mem_parts (mem_parts_of_get? hfs hside)) (ofJson_of_asOptional hliteral)

end Leaf

/-! ## Trees -/

namespace Condition

theorem toJsonAll_eq_map (children : List Condition) : toJson.toJsonAll children = children.map toJson := by
  induction children with
  | nil => rfl
  | cons c rest ih => rw [toJson.toJsonAll, ih, List.map_cons]

/-- The condition of a document that is no group of conditions: a comparison. -/
def leafOfJson (v : Json) : Read Condition :=
  match Leaf.ofJson v with
  | .ok l => .ok (.leaf l)
  | .error _ => .error .shape

/-- A document is read as a group of its children, or else as a comparison. -/
theorem ofJson_eq (v : Json) : ofJson v =
    match groupParts v with
    | .error _ => leafOfJson v
    | .ok (logic, children) =>
      match children.mapM ofJson with
      | .ok cs => .ok (.group logic cs)
      | .error _ => leafOfJson v := by
  rw [ofJson]
  split
  · rename_i hparts
    rw [hparts]
    rfl
  · rename_i logic children hparts
    rw [List.mapM_subtype (g := ofJson) fun _ _ => rfl, List.unattach_attach, hparts]
    rfl

/-- A comparison has no children. -/
theorem groupParts_leaf (l : Leaf) : groupParts l.toJson = .error .shape := by
  obtain ⟨field, op, right⟩ := l
  cases right <;> rfl

/-- The document of a group has its logic and the documents of its children. -/
theorem groupParts_group (logic : Logic) (children : List Condition) :
    groupParts (toJson (.group logic children)) = .ok (logic, children.map toJson) := by
  rw [toJson, toJsonAll_eq_map]
  cases logic <;> rfl

/-- The document of a condition reads as the condition. -/
theorem ofJson_toJson (c : Condition) : ofJson c.toJson = .ok c := by
  induction c using Condition.induct with
  | leaf l =>
    have hleaf : leafOfJson l.toJson = .ok (.leaf l) := by rw [leafOfJson, l.ofJson_toJson]
    rw [toJson, ofJson_eq, groupParts_leaf, hleaf]
  | group logic children ih =>
    rw [ofJson_eq, groupParts_group]
    simp only [mapM_map_of_forall ih]

/-- Every number of the condition is finite. -/
def Finite (c : Condition) : Prop := ∀ l ∈ c.leaves, l.Finite

theorem finite_leaf {l : Leaf} : (leaf l).Finite ↔ l.Finite := List.forall_mem_singleton

theorem finite_group {logic : Logic} {children : List Condition} :
    (group logic children).Finite ↔ ∀ c ∈ children, c.Finite := by
  rw [Finite, leaves, leavesAll_eq_flatMap]
  constructor
  · intro h c hc l hl
    exact h l (List.mem_flatMap.2 ⟨c, hc, hl⟩)
  · intro h l hl
    obtain ⟨c, hc, hl⟩ := List.mem_flatMap.1 hl
    exact h c hc l hl

/-- A finite condition has a document in range. -/
theorem Finite.inRange_toJson {c : Condition} (hc : c.Finite) : c.toJson.InRange := by
  induction c using Condition.induct with
  | leaf l => exact (finite_leaf.1 hc).inRange_toJson
  | group logic children ih =>
    rw [Condition.toJson, toJsonAll_eq_map]
    refine .object (List.forall_mem_cons.2 ⟨.text _, List.forall_mem_singleton.2 (.list fun w hw => ?_)⟩)
    obtain ⟨c, hmem, rfl⟩ := List.mem_map.1 hw
    exact ih c hmem (finite_group.1 hc c hmem)

/-- A condition is written as a document in range. -/
theorem inRange_asWritten (c : Condition) : c.toJson.asWritten.InRange := by
  induction c using Condition.induct with
  | leaf l => exact l.inRange_asWritten
  | group logic children ih =>
    rw [Condition.toJson, toJsonAll_eq_map]
    refine .object (List.forall_mem_cons.2 ⟨.text _, List.forall_mem_singleton.2 ?_⟩)
    rw [Json.asWritten, asWrittenItems_eq_map, List.map_map]
    refine .list fun w hw => ?_
    obtain ⟨c, hmem, rfl⟩ := List.mem_map.1 hw
    exact ih c hmem

/-- The children of a document are parts of a part of it. -/
theorem inRange_of_groupParts {v w : Json} {logic : Logic} {children : List Json} (hv : v.InRange)
    (h : groupParts v = .ok (logic, children)) (hw : w ∈ children) : w.InRange := by
  obtain ⟨fs, hfs, h⟩ := bind_eq_ok h
  obtain ⟨logic', -, h⟩ := bind_eq_ok h
  cases hget : fs.get? 1 with
  | none => simp [hget, throw, throwThe, MonadExceptOf.throw] at h
  | some given =>
    have hgiven : given.InRange := hv.of_mem_parts (mem_parts_of_get? hfs hget)
    cases given with
    | list items =>
      rw [hget] at h
      obtain ⟨-, rfl⟩ := Prod.mk.inj (Except.ok.inj h)
      exact hgiven.of_mem_parts hw
    | _ => simp [hget, throw, throwThe, MonadExceptOf.throw] at h

/-- What is read of a document in range as a comparison is finite. -/
theorem Finite.of_leafOfJson {v : Json} {c : Condition} (hv : v.InRange) (h : leafOfJson v = .ok c) : c.Finite := by
  rw [leafOfJson] at h
  split at h
  · rename_i l hl
    obtain rfl := Except.ok.inj h
    exact finite_leaf.2 (.of_ofJson hv hl)
  · exact absurd h (by simp)

/-- What is read of a document in range is a finite condition. -/
theorem Finite.of_ofJson {v : Json} {c : Condition} (hv : v.InRange) (h : ofJson v = .ok c) : c.Finite := by
  rw [ofJson_eq] at h
  split at h
  · exact .of_leafOfJson hv h
  · rename_i logic children hparts
    split at h
    · rename_i cs hcs
      obtain rfl := Except.ok.inj h
      refine finite_group.2 fun c hc => ?_
      obtain ⟨w, hw, hread⟩ := exists_of_mem_mapM hcs hc
      have hsize : sizeOf w < sizeOf v := sizeOf_lt_of_groupParts hparts hw
      exact Finite.of_ofJson (inRange_of_groupParts hv hparts hw) hread
    · exact .of_leafOfJson hv h
termination_by sizeOf v

/-- What is read of an input in range is a finite condition. -/
theorem Finite.of_ofInput {v : Json} {c : Condition} (hv : v.InRange) (h : ofInput v = .ok c) : c.Finite := by
  rw [ofInput] at h
  split at h
  · rename_i c' hc'
    obtain rfl := Except.ok.inj h
    exact .of_ofJson hv hc'
  · split at h
    · rename_i cs hcs
      obtain rfl := Except.ok.inj h
      cases v with
      | list items =>
        refine finite_group.2 fun c hc => ?_
        obtain ⟨w, hw, hread⟩ := exists_of_mem_mapM hcs hc
        exact .of_ofJson (hv.of_mem_parts hw) hread
      | _ => exact absurd hcs (by simp [asList])
    · exact absurd h (by simp)

/-- What is read as one condition is read as the same input. -/
theorem ofInput_of_ofJson {v : Json} {c : Condition} (h : ofJson v = .ok c) : ofInput v = .ok c := by
  rw [ofInput, h]

/-- A finite condition is written as a document that reads as the condition. -/
theorem Finite.ofJson_asWritten {c : Condition} (hc : c.Finite) : ofJson c.toJson.asWritten = .ok c := by
  rw [hc.inRange_toJson.asWritten_eq, c.ofJson_toJson]

end Condition

/-- A condition that is read of a document has finite numbers only, and is written as a document that reads as the same
condition, as the input of a screen and by itself. A condition of any numbers is written as a document that reads back as the
condition exactly if they are finite. -/
theorem condition_reads_back :
    (∀ (v : Json) (c : Condition), v.InRange → Condition.ofInput v = .ok c →
      c.Finite ∧ Condition.ofInput c.toJson.asWritten = .ok c ∧ Condition.ofJson c.toJson.asWritten = .ok c) ∧
    ∀ c : Condition, (Condition.ofInput c.toJson.asWritten = .ok c ↔ c.Finite) ∧
      (Condition.ofJson c.toJson.asWritten = .ok c ↔ c.Finite) := by
  refine ⟨fun v c hv h => ?_, fun c => ⟨⟨fun h => ?_, fun hc => ?_⟩, fun h => ?_, fun hc => hc.ofJson_asWritten⟩⟩
  · have hc : c.Finite := .of_ofInput hv h
    exact ⟨hc, Condition.ofInput_of_ofJson hc.ofJson_asWritten, hc.ofJson_asWritten⟩
  · exact .of_ofInput c.inRange_asWritten h
  · exact Condition.ofInput_of_ofJson hc.ofJson_asWritten
  · exact .of_ofJson c.inRange_asWritten h

/-- A crossing given as a list of its fields, of which the literal is null. -/
def crossingDocument : Json := .list [.text "ma5", .text "cross_up", .null, .text "ma20"]

/-- A list of a comparison, under an old name of its operator and with a member of no field, and a group of a crossing. -/
def cheapOrRising : Json :=
  .list [.object [("field", .text "pe"), ("operator", .text "lte"), ("value", .nat 30), ("note", .null)],
    .object [("children", .list [crossingDocument]), ("logic", .text "oR")]]

/-- The list is read as one condition, which reads back from what is written of it. -/
theorem cheapOrRising_reads_back :
    let c : Condition := .all [.leaf (.withLiteral "pe" .lte (.number (Float.ofNat 30))),
      .any [.leaf (.against "ma5" .crossUp "ma20")]]
    Condition.ofInput cheapOrRising = .ok c ∧ Condition.ofInput c.toJson.asWritten = .ok c := by
  intro c
  have hrange : cheapOrRising.InRange := by
    have hnumber : (Json.nat 30).InRange := .number (show 30 < 2 ^ 64 by decide)
    have hcrossing : crossingDocument.InRange := .list (by simp [Json.InRange.null, Json.InRange.text])
    have hcomparison : (Json.object [("field", .text "pe"), ("operator", .text "lte"), ("value", .nat 30),
        ("note", .null)]).InRange := .object (by simp [hnumber, Json.InRange.null, Json.InRange.text])
    have hgroup : (Json.object [("children", .list [crossingDocument]), ("logic", .text "oR")]).InRange :=
      .object (by simp [Json.InRange.list (List.forall_mem_singleton.2 hcrossing), Json.InRange.text])
    exact .list (List.forall_mem_cons.2 ⟨hcomparison, List.forall_mem_singleton.2 hgroup⟩)
  have hcrossing : Condition.ofJson crossingDocument = .ok (.leaf (.against "ma5" .crossUp "ma20")) := by
    rw [Condition.ofJson_eq]
    rfl
  have hgroup : Condition.ofJson (.object [("children", .list [crossingDocument]), ("logic", .text "oR")]) =
      .ok (.any [.leaf (.against "ma5" .crossUp "ma20")]) := by
    rw [Condition.ofJson_eq]
    show (match [crossingDocument].mapM Condition.ofJson with
      | .ok cs => Except.ok (Condition.group .any cs)
      | .error _ => Condition.leafOfJson _) = _
    rw [List.mapM_cons, hcrossing]
    rfl
  have hcomparison : Condition.ofJson (.object [("field", .text "pe"), ("operator", .text "lte"), ("value", .nat 30),
      ("note", .null)]) = .ok (.leaf (.withLiteral "pe" .lte (.number (Float.ofNat 30)))) := by
    rw [Condition.ofJson_eq]
    rfl
  have hlist : Condition.ofJson cheapOrRising = .error .shape := by
    rw [Condition.ofJson_eq]
    rfl
  have hread : Condition.ofInput cheapOrRising = .ok c := by
    rw [Condition.ofInput, hlist]
    simp only [cheapOrRising, asList, List.mapM_cons, hcomparison, hgroup]
    rfl
  exact ⟨hread, (condition_reads_back.1 _ c hrange hread).2.1⟩

end EquityScreen
