import EquityScreen.Command.Program
import EquityScreen.Proofs.Lemmas.Drafts
import EquityScreen.Proofs.WireRoundTrip

/-!
# Conditions on the command line

The conditions of a command are the first document in the text of its argument. The text is accepted whatever follows the
document, which has no part in the conditions; nothing but white space may follow where the text is to be one document
(`conditions_end_with_first_document`). A file of records is read to its end (`recordsOf_reads_to_end`).
-/

namespace EquityScreen

open Json

/-- The document is a list or an object. -/
def Json.IsNested : Json → Prop
  | .list _ | .object _ => True
  | _ => False

/-- A draft with a list or an object for its document is closed. -/
theorem Json.Draft.isClosed_of_whole? {d : Draft} {room : Nat} {v : Json} (h : d.whole? room = some v) (hv : v.IsNested) :
    d.IsClosed := by
  cases d with
  | list items finished =>
    cases finished with
    | true => rfl
    | false => cases h
  | object members finished =>
    cases finished with
    | true => rfl
    | false => cases h
  | null | bool b | number n | text s =>
    obtain rfl := Option.some.inj h
    exact hv.elim
  | unreadable | broken => cases h

namespace Json

/-- The tokens of a text that is one document end with it. -/
theorem ofText_of_read? {s : String} {v : Json} (h : read? s = some v) :
    (Draft.ofText s).2 = [] ∧ (Draft.ofText s).1.whole? depthLimit = some v := by
  unfold read? at h
  split at h
  · rename_i d hd
    exact ⟨by rw [hd], by rw [hd]; exact h⟩
  · cases h

theorem read?_of_ofText {s : String} {v : Json} (hrest : (Draft.ofText s).2 = [])
    (hv : (Draft.ofText s).1.whole? depthLimit = some v) : read? s = some v := by
  unfold read?
  split
  · rename_i d hd
    rw [hd] at hv
    exact hv
  · rename_i hne
    exact (hne _ (Prod.ext rfl hrest)).elim

/-- The first document of a text, where it is a list or an object, is all of the text up to its end, and the text is one
document exactly when nothing but white space follows. -/
theorem exists_front {s : String} {v : Json} (h : readFirst? s = some v) (hv : v.IsNested) :
    ∃ front after : String, s = front ++ after ∧ read? front = some v ∧
      ∀ more, readFirst? (front ++ more) = some v ∧ ((read? (front ++ more)).isSome ↔ IsBlank more) := by
  obtain ⟨front, after, hs, hread⟩ := Draft.ofText_append_of_isClosed (Draft.isClosed_of_whole? h hv)
  have hfirst : ∀ more, readFirst? (front ++ more) = some v := by
    intro more
    rw [readFirst?, hread]
    exact h
  have hblank : ∀ more, (Draft.ofText (front ++ more)).2 = [] ↔ IsBlank more := by
    intro more
    rw [hread]
    exact Scan.tokens_between_eq_nil_iff more.toList
  refine ⟨front, after, hs, ?_, fun more => ⟨hfirst more, ?_⟩⟩
  · have hempty : (Draft.ofText (front ++ "")).2 = [] := (hblank "").2 (by decide)
    rw [String.append_empty] at hempty
    have hwhole := hfirst ""
    rw [String.append_empty] at hwhole
    exact read?_of_ofText hempty hwhole
  · rw [← hblank, Option.isSome_iff_exists]
    constructor
    · rintro ⟨w, hw⟩
      exact (ofText_of_read? hw).1
    · intro hrest
      exact ⟨v, read?_of_ofText hrest (hfirst more)⟩

end Json

namespace Condition

/-- A condition is written as a list or an object. -/
theorem isNested_of_ofInput {v : Json} {c : Condition} (h : ofInput v = .ok c) : v.IsNested := by
  cases v with
  | list items | object members => trivial
  | null | bool b | number n | text s =>
    rw [ofInput, ofJson_eq] at h
    cases h

/-- A text gives the conditions that its first document is read as, and this document ends where white space alone could
follow it. -/
theorem ofText_eq_ok_iff {s : String} {c : Condition} :
    ofText s = .ok c ↔ ∃ front after v, s = front ++ after ∧ Json.read? front = some v ∧ ofInput v = .ok c := by
  have hfirst : ∀ s, ofText s = .ok c ↔ ∃ v, Json.readFirst? s = some v ∧ ofInput v = .ok c := by
    intro s
    unfold ofText
    cases Json.readFirst? s <;> simp
  constructor
  · intro h
    obtain ⟨v, hv, hc⟩ := (hfirst s).1 h
    obtain ⟨front, after, hs, hfront, -⟩ := Json.exists_front hv (isNested_of_ofInput hc)
    exact ⟨front, after, v, hs, hfront, hc⟩
  · rintro ⟨front, after, v, rfl, hfront, hc⟩
    obtain ⟨inner, space, rfl, -, hmore⟩ := Json.exists_front (Json.ofText_of_read? hfront).2 (isNested_of_ofInput hc)
    rw [String.append_assoc]
    exact (hfirst _).2 ⟨v, (hmore (space ++ after)).1, hc⟩

/-- After a document that gives conditions, nothing but white space may follow where the text is to be one document. -/
theorem isSome_read?_append_iff {front : String} {v : Json} {c : Condition} (hfront : Json.read? front = some v)
    (hc : ofInput v = .ok c) (after : String) : (Json.read? (front ++ after)).isSome ↔ IsBlank after := by
  obtain ⟨inner, space, rfl, -, hmore⟩ := Json.exists_front (Json.ofText_of_read? hfront).2 (isNested_of_ofInput hc)
  have hspace : IsBlank space := (hmore space).2.1 (by rw [hfront]; rfl)
  rw [String.append_assoc, (hmore (space ++ after)).2]
  unfold IsBlank
  rw [String.toList_append, List.forall_mem_append]
  exact ⟨fun h => h.2, fun h => ⟨hspace, h⟩⟩

end Condition

namespace Surroundings

/-- The text that an argument for conditions gives: itself, or that of the file whose path follows `@`. -/
def conditionText (w : Surroundings) (arg : String) : Except String String :=
  match arg.toList with
  | '@' :: path => w.fileText (String.ofList path)
  | _ => .ok arg

/-- What a text of conditions is read as. -/
def conditionsOf (text : String) : Except String Condition :=
  (Condition.ofText text).mapError fun _ => "Invalid conditions: neither a condition nor a list of conditions"

theorem conditions_of_path (w : Surroundings) {arg : String} {path : List Char} (h : arg.toList = '@' :: path) :
    w.conditions arg = w.fileText (String.ofList path) >>= conditionsOf := by
  unfold conditions
  rw [h]
  show w.fileText (String.ofList path) >>= _ = w.fileText (String.ofList path) >>= _
  refine bind_congr fun text => ?_
  unfold conditionsOf
  dsimp only
  cases Condition.ofText text <;> rfl

theorem conditions_of_inline (w : Surroundings) {arg : String} (h : ∀ path, arg.toList ≠ '@' :: path) :
    w.conditions arg = conditionsOf arg := by
  unfold conditions conditionsOf
  split
  · rename_i path harg
    exact absurd harg (h path)
  · refine (pure_bind arg _).trans ?_
    dsimp only
    cases Condition.ofText arg <;> rfl

theorem conditions_eq (w : Surroundings) (arg : String) : w.conditions arg = w.conditionText arg >>= conditionsOf := by
  by_cases h : ∃ path, arg.toList = '@' :: path
  · obtain ⟨path, hpath⟩ := h
    rw [conditions_of_path w hpath, conditionText, hpath]
    rfl
  · have hinline : ∀ path, arg.toList ≠ '@' :: path := fun path hpath => h ⟨path, hpath⟩
    have htext : w.conditionText arg = .ok arg := by
      unfold conditionText
      split
      · rename_i path harg
        exact absurd harg (hinline path)
      · rfl
    rw [conditions_of_inline w hinline, htext]
    rfl

theorem conditions_eq_ok_iff {w : Surroundings} {arg : String} {c : Condition} :
    w.conditions arg = .ok c ↔ ∃ text, w.conditionText arg = .ok text ∧ Condition.ofText text = .ok c := by
  rw [conditions_eq]
  constructor
  · intro h
    obtain ⟨text, htext, hc⟩ := bind_eq_ok h
    exact ⟨text, htext, mapError_eq_ok hc⟩
  · rintro ⟨text, htext, hc⟩
    rw [htext]
    show conditionsOf text = _
    rw [conditionsOf, hc]
    rfl

/-- A file of records is read only where nothing but its one document stands in it. -/
theorem recordsOf_reads_to_end {α : Type} {w : Surroundings} {names : List (List String)} {read : Json → Read α}
    {path : String} {records : List α} (h : w.recordsOf names read path = .ok records) :
    ∃ text, w.fileText path = .ok text ∧ (Draft.ofText text).2 = [] := by
  unfold recordsOf at h
  obtain ⟨text, htext, h⟩ := bind_eq_ok h
  refine ⟨text, htext, ?_⟩
  split at h
  · rename_i found hfound
    unfold Draft.readText at hfound
    obtain ⟨_, -, hend⟩ := bind_eq_ok hfound
    split at hend
    · rename_i hrest
      exact List.isEmpty_iff.1 hrest
    · cases hend
  · cases h

/-- The conditions of a command are read from the front of its text, which is one document by itself; the whole text is one
document exactly when white space alone follows. So a text that is accepted is accepted with anything behind it, which has no
part in the conditions, and it is one document no more when this is not white space. -/
theorem conditions_end_with_first_document (w : Surroundings) :
    (∀ arg c, w.conditions arg = .ok c ↔ ∃ front after v, w.conditionText arg = .ok (front ++ after) ∧
      Json.read? front = some v ∧ Condition.ofInput v = .ok c) ∧
    (∀ front v c, Json.read? front = some v → Condition.ofInput v = .ok c →
      ∀ after, (Json.read? (front ++ after)).isSome ↔ IsBlank after) ∧
    ∀ arg arg' text more c, w.conditionText arg = .ok text → w.conditionText arg' = .ok (text ++ more) →
      w.conditions arg = .ok c → w.conditions arg' = .ok c ∧ (¬IsBlank more → Json.read? (text ++ more) = none) := by
  have hread : ∀ arg c, w.conditions arg = .ok c ↔ ∃ front after v, w.conditionText arg = .ok (front ++ after) ∧
      Json.read? front = some v ∧ Condition.ofInput v = .ok c := by
    intro arg c
    rw [conditions_eq_ok_iff]
    constructor
    · rintro ⟨text, htext, hc⟩
      obtain ⟨front, after, v, rfl, hfront, hc⟩ := Condition.ofText_eq_ok_iff.1 hc
      exact ⟨front, after, v, htext, hfront, hc⟩
    · rintro ⟨front, after, v, htext, hfront, hc⟩
      exact ⟨front ++ after, htext, Condition.ofText_eq_ok_iff.2 ⟨front, after, v, rfl, hfront, hc⟩⟩
  refine ⟨hread, fun front v c hfront hc => Condition.isSome_read?_append_iff hfront hc, ?_⟩
  intro arg arg' text more c htext htext' h
  obtain ⟨front, after, v, hsplit, hfront, hc⟩ := (hread arg c).1 h
  obtain rfl : text = front ++ after := Except.ok.inj (htext.symm.trans hsplit)
  rw [String.append_assoc] at htext' ⊢
  refine ⟨(hread arg' c).2 ⟨front, after ++ more, v, htext', hfront, hc⟩, fun hmore => ?_⟩
  rw [← Option.not_isSome_iff_eq_none, Condition.isSome_read?_append_iff hfront hc]
  intro hblank
  exact hmore fun a ha => hblank a (by rw [String.toList_append]; exact List.mem_append_right _ ha)

/-- Surroundings in which no variable is set and no file can be read. -/
def bare : Surroundings where
  lookup _ := none
  textAt _ := .error "No such file or directory (os error 2)"
  openStore _ _ := .ok .absent
  today := ⟨2024, 1, 2⟩

theorem read?_emptyList : Json.read? "[]" = some (.list []) := by rfl

theorem ofInput_emptyList : Condition.ofInput (.list []) = .ok (.all []) := by
  have hlist : Condition.ofJson (.list []) = .error .shape := by
    rw [Condition.ofJson_eq]
    rfl
  rw [Condition.ofInput, hlist]
  rfl

/-- With a line end after it an empty list is one document still. -/
theorem line_end_after_document :
    bare.conditions "[]\n" = .ok (.all []) ∧ (Json.read? ("[]" ++ "\n")).isSome := by
  obtain ⟨hread, hblank, -⟩ := conditions_end_with_first_document bare
  refine ⟨(hread _ _).2 ⟨"[]", "\n", .list [], rfl, read?_emptyList, ofInput_emptyList⟩, ?_⟩
  exact (hblank "[]" (.list []) (.all []) read?_emptyList ofInput_emptyList "\n").2 (by decide)

/-- With a letter after it an empty list is no document, but the same conditions. -/
theorem letter_after_document_ignored :
    bare.conditions "[]" = .ok (.all []) ∧ bare.conditions ("[]" ++ " x") = .ok (.all []) ∧
      Json.read? "[]" = some (.list []) ∧ Json.read? ("[]" ++ " x") = none := by
  have hconditions : ∀ arg, bare.conditionText arg = .ok arg → Json.readFirst? arg = some (.list []) →
      bare.conditions arg = .ok (.all []) := by
    intro arg htext hfirst
    refine conditions_eq_ok_iff.2 ⟨arg, htext, ?_⟩
    rw [Condition.ofText, hfirst]
    exact ofInput_emptyList
  exact ⟨hconditions _ rfl rfl, hconditions _ rfl rfl, read?_emptyList, rfl⟩

end Surroundings
end EquityScreen
