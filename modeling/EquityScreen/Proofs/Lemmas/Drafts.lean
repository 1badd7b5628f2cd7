import Mathlib.Data.List.Basic
import EquityScreen.Json.Reader

/-!
# Where a document ends

A list or an object ends at the character that closes it. The scanner is between tokens there, whatever text follows, so the
text after it has no part in the draft (`Draft.ofText_append_of_isClosed`), and the tokens after it are those of the following
text alone, of which there are none exactly for white space (`Scan.tokens_between_eq_nil_iff`).
-/

namespace EquityScreen.Json

/-! ## The steps of the scanner -/

/-- The characters that may stand between tokens. -/
def IsSpace (c : Char) : Prop := c = ' ' ∨ c = '\n' ∨ c = '\t' ∨ c = '\r'

instance (c : Char) : Decidable (IsSpace c) := inferInstanceAs (Decidable (_ ∨ _))

/-- The text is white space. -/
def IsBlank (s : String) : Prop := ∀ c ∈ s.toList, IsSpace c

-- Looked for among the characters of the text, and not among all characters there are.
instance (s : String) : Decidable (IsBlank s) :=
  decidable_of_iff (s.toList.all (fun c => decide (IsSpace c)) = true) (by simp [IsBlank])

/-- The token ends a list or an object. -/
def Token.Closes : Token → Prop
  | .closeList | .closeObject => True
  | _ => False

theorem Token.not_closes_numberToken (run : List Char) : ¬(numberToken run).Closes := by
  unfold numberToken
  split <;> exact id

namespace Scan

/-- The scanner is inside a token; a word has letters to come. -/
def Midway : Scan → Prop
  | .between | .stopped => False
  | .word left _ => left ≠ []
  | _ => True

/-- What a character may come to: the scanner goes on inside a token, a token ends, or nothing more is read. -/
inductive Outcome : Scan × List Token → Prop where
  | goesOn {next : Scan} (h : next.Midway) : Outcome (next, [])
  | ends (t : Token) : Outcome (.between, [t])
  | breaks : Outcome (.stopped, [.bad])

theorem Outcome.ite {p : Prop} [Decidable p] {a b : Scan × List Token} (ha : Outcome a) (hb : Outcome b) :
    Outcome (if p then a else b) := by
  by_cases hp : p
  · rwa [if_pos hp]
  · rwa [if_neg hp]

/-- A character between tokens is white space, or it comes to something. -/
theorem start_cases (c : Char) : IsSpace c ∧ start c = (.between, []) ∨ ¬IsSpace c ∧ Outcome (start c) := by
  have hspace : (c = ' ' || c = '\n' || c = '\t' || c = '\r') = true ↔ IsSpace c := by simp [IsSpace, or_assoc]
  unfold start
  by_cases hc : IsSpace c
  · exact .inl ⟨hc, if_pos (hspace.2 hc)⟩
  · refine .inr ⟨hc, ?_⟩
    have hword : ∀ (letter : Char) (left : List Char) (t : Token), Midway (.word (letter :: left) t) := fun _ _ _ =>
      List.cons_ne_nil _ _
    rw [if_neg fun h => hc (hspace.1 h)]
    repeat' apply Outcome.ite
    all_goals first
      | exact .ends _
      | exact .breaks
      | exact .goesOn trivial
      | exact .goesOn (hword _ _ _)

/-- A character inside a token comes to something, or it ends a number and is a character between tokens after it. -/
theorem step_cases {s : Scan} (hs : s.Midway) (c : Char) :
    Outcome (s.step c) ∨ ∃ t : Token, ¬t.Closes ∧ s.step c = ((start c).1, t :: (start c).2) := by
  cases s with
  | between | stopped => exact hs.elim
  | number place run =>
    rw [step]
    split
    · exact .inl (.goesOn trivial)
    · exact .inl .breaks
    · exact .inr ⟨numberToken run, Token.not_closes_numberToken run, rfl⟩
  | word left token =>
    left
    cases left with
    | nil => exact absurd rfl hs
    | cons letter left =>
      cases left with
      | nil =>
        rw [step]
        exact .ite (.ends _) .breaks
      | cons second left =>
        rw [step]
        · exact .ite (.goesOn (List.cons_ne_nil _ _)) .breaks
        · exact fun h => List.cons_ne_nil _ _ h
  | text run =>
    left
    rw [step]
    repeat' apply Outcome.ite
    all_goals first
      | exact .ends _
      | exact .breaks
      | exact .goesOn trivial
  | escape run =>
    left
    rw [step, escaped]
    repeat' apply Outcome.ite
    all_goals first
      | exact .breaks
      | exact .goesOn trivial
  | unit run left value =>
    left
    rw [step]
    split
    · exact .breaks
    · exact .ite (.goesOn trivial) (.goesOn trivial)

/-- The scanner is in a state that the beginning of a text leads to. -/
def Proper (s : Scan) : Prop := s = .between ∨ s = .stopped ∨ s.Midway

theorem Outcome.proper {r : Scan × List Token} (h : Outcome r) : r.1.Proper := by
  cases h with
  | goesOn h => exact .inr (.inr h)
  | ends t => exact .inl rfl
  | breaks => exact .inr (.inl rfl)

theorem proper_start (c : Char) : (start c).1.Proper := by
  rcases start_cases c with ⟨-, h⟩ | ⟨-, h⟩
  · exact .inl (by rw [h])
  · exact h.proper

theorem Proper.step {s : Scan} (hs : s.Proper) (c : Char) : (s.step c).1.Proper := by
  rcases hs with rfl | rfl | hs
  · exact proper_start c
  · exact .inr (.inl rfl)
  · rcases step_cases hs c with h | ⟨t, -, h⟩
    · exact h.proper
    · rw [h]
      exact proper_start c

theorem Outcome.closes {r : Scan × List Token} (h : Outcome r) {before after : List Token} {t : Token}
    (hfound : r.2 = before ++ t :: after) (ht : t.Closes) : after = [] ∧ r.1 = .between := by
  cases h with
  | goesOn h => exact absurd hfound.symm (by simp)
  | ends t' =>
    cases before with
    | nil => exact ⟨(List.cons.inj hfound).2.symm, rfl⟩
    | cons a before => exact absurd (List.cons.inj hfound).2.symm (by simp)
  | breaks =>
    cases before with
    | nil =>
      rw [← (List.cons.inj hfound).1] at ht
      exact ht.elim
    | cons a before => exact absurd (List.cons.inj hfound).2.symm (by simp)

theorem start_closes {c : Char} {before after : List Token} {t : Token} (hfound : (start c).2 = before ++ t :: after)
    (ht : t.Closes) : after = [] ∧ (start c).1 = .between := by
  rcases start_cases c with ⟨-, h⟩ | ⟨-, h⟩
  · rw [h] at hfound
    exact absurd hfound.symm (by simp)
  · exact h.closes hfound ht

/-- The end of a list or an object is the last token that a character gives, and the scanner is between tokens after it. -/
theorem Proper.closes {s : Scan} (hs : s.Proper) {c : Char} {before after : List Token} {t : Token}
    (hfound : (s.step c).2 = before ++ t :: after) (ht : t.Closes) : after = [] ∧ (s.step c).1 = .between := by
  rcases hs with rfl | rfl | hs
  · exact start_closes hfound ht
  · exact absurd hfound.symm (by simp [Scan.step])
  · rcases step_cases hs c with h | ⟨t', ht', h⟩
    · exact h.closes hfound ht
    · rw [h] at hfound ⊢
      cases before with
      | nil =>
        rw [(List.cons.inj hfound).1] at ht'
        exact absurd ht ht'
      | cons a before => exact start_closes (List.cons.inj hfound).2 ht

/-- The end of the text gives one token at most, which is not the end of a list or an object. -/
theorem finish_cases (s : Scan) : s.finish = [] ∨ ∃ t : Token, ¬t.Closes ∧ s.finish = [t] := by
  cases s with
  | between | stopped => exact .inl rfl
  | number place run =>
    right
    rw [finish]
    split
    · exact ⟨numberToken run, Token.not_closes_numberToken run, rfl⟩
    · exact ⟨.bad, id, rfl⟩
  | _ => exact .inr ⟨.bad, id, rfl⟩

/-! ## White space -/

/-- A token that was begun is given, or what is wrong with it. -/
theorem tokens_ne_nil_of_midway {s : Scan} (hs : s.Midway) (cs : List Char) : s.tokens cs ≠ [] := by
  induction cs generalizing s with
  | nil =>
    cases s with
    | between | stopped => exact hs.elim
    | number place run =>
      rw [tokens, finish]
      split <;> exact List.cons_ne_nil _ _
    | _ => exact List.cons_ne_nil _ _
  | cons c rest ih =>
    rw [tokens]
    rcases step_cases hs c with h | ⟨t, -, h⟩
    · cases hstep : s.step c with
      | mk next found =>
        rw [hstep] at h
        cases h with
        | goesOn hnext => exact ih hnext
        | ends t => exact List.cons_ne_nil _ _
        | breaks => exact List.cons_ne_nil _ _
    · rw [h]
      exact List.cons_ne_nil _ _

/-- Between tokens, a text gives no token exactly when it is white space. -/
theorem tokens_between_eq_nil_iff (cs : List Char) : Scan.between.tokens cs = [] ↔ ∀ c ∈ cs, IsSpace c := by
  induction cs with
  | nil => simp [tokens, finish]
  | cons c rest ih =>
    rw [tokens, step, List.forall_mem_cons]
    rcases start_cases c with ⟨hc, h⟩ | ⟨hc, h⟩
    · rw [h]
      show Scan.between.tokens rest = [] ↔ _
      rw [ih]
      exact ⟨fun hrest => ⟨hc, hrest⟩, fun hall => hall.2⟩
    · refine iff_of_false ?_ fun hall => hc hall.1
      cases hstart : start c with
      | mk next found =>
        rw [hstart] at h
        cases h with
        | goesOn hnext => exact tokens_ne_nil_of_midway hnext rest
        | ends t => exact List.cons_ne_nil _ _
        | breaks => exact List.cons_ne_nil _ _

end Scan

namespace Draft

/-! ## Drafts of lists and objects -/

/-- The draft is a list or an object that is written to its end. -/
def IsClosed : Draft → Prop
  | list _ finished | object _ finished => finished = true
  | _ => False

theorem not_isClosed_unfinishedIn {d : Draft} (hd : ¬d.IsClosed) (frames : List Frame) : ¬(unfinishedIn d frames).IsClosed := by
  induction frames generalizing d with
  | nil => exact hd
  | cons f rest ih => cases f <;> exact ih (by simp [IsClosed])

/-- What breaks off is not closed. -/
theorem not_isClosed_breakOff (frames : List Frame) (a : Awaits) : ¬(breakOff frames a).IsClosed := by
  cases a with
  | firstName | name members | colon members name => exact not_isClosed_unfinishedIn (by simp [IsClosed]) frames
  | value | firstItem | separator =>
    cases frames with
    | nil => exact id
    | cons f rest => cases f <;> exact not_isClosed_unfinishedIn (by simp [IsClosed]) rest

theorem Step.eq_of_complete {d d' : Draft} {frames : List Frame} (h : Step.complete d' frames = .done d) : d' = d := by
  cases frames with
  | nil => exact Step.done.inj h
  | cons f rest => cases f <;> cases h

theorem Step.not_closed_value {frames : List Frame} {t : Token} {d : Draft} (h : Step.value frames t = .done d) :
    ¬d.IsClosed := by
  cases t with
  | null | bool b | number n | text s | oversized | halved =>
    rw [← Step.eq_of_complete h]
    exact id
  | _ => cases h

theorem Step.name_ne_done {done : List (Option String × Draft)} {frames : List Frame} {t : Token} {d : Draft} :
    Step.name done frames t ≠ .done d := by
  cases t <;> exact Step.noConfusion

/-- A list or an object is done at a token that closes it. -/
theorem Step.closes_of_next {frames : List Frame} {a : Awaits} {t : Token} {d : Draft}
    (h : Step.next frames a t = .done d) (hd : d.IsClosed) : t.Closes := by
  cases a with
  | value => exact absurd hd (Step.not_closed_value h)
  | firstItem =>
    unfold Step.next at h
    dsimp only at h
    split at h
    · trivial
    · exact absurd hd (Step.not_closed_value h)
  | firstName =>
    unfold Step.next at h
    dsimp only at h
    split at h
    · trivial
    · exact absurd h Step.name_ne_done
  | name members => exact absurd h Step.name_ne_done
  | colon members name =>
    unfold Step.next at h
    dsimp only at h
    split at h <;> cases h
  | separator =>
    unfold Step.next at h
    dsimp only at h
    split at h
    · cases h
    · cases h
    · trivial
    · trivial
    · cases h

/-- Tokens in front of others: a list or an object is done among them, or it is not and the others are read next, or there
will be none. -/
theorem ofTokens_append (a : Awaits) (frames : List Frame) (found : List Token) :
    (∃ d before t after, found = before ++ t :: after ∧ t.Closes ∧ ∀ ts, ofTokens a frames (found ++ ts) = (d, after ++ ts)) ∨
      (∃ a' frames', ∀ ts, ofTokens a frames (found ++ ts) = ofTokens a' frames' ts) ∨
      ∀ ts, ¬(ofTokens a frames (found ++ ts)).1.IsClosed := by
  induction found generalizing a frames with
  | nil => exact .inr (.inl ⟨a, frames, fun _ => rfl⟩)
  | cons t rest ih =>
    cases hnext : Step.next frames a t with
    | more a' frames' =>
      have hmore : ∀ ts, ofTokens a frames (t :: rest ++ ts) = ofTokens a' frames' (rest ++ ts) := by
        intro ts
        rw [List.cons_append, ofTokens, hnext]
      simp only [hmore]
      rcases ih a' frames' with ⟨d, before, t', after, rfl, hclose, hdone⟩ | hon | hnever
      · exact .inl ⟨d, t :: before, t', after, rfl, hclose, hdone⟩
      · exact .inr (.inl hon)
      · exact .inr (.inr hnever)
    | done d =>
      have hdone : ∀ ts, ofTokens a frames (t :: rest ++ ts) = (d, rest ++ ts) := by
        intro ts
        rw [List.cons_append, ofTokens, hnext]
      by_cases hd : d.IsClosed
      · exact .inl ⟨d, [], t, rest, rfl, Step.closes_of_next hnext hd, hdone⟩
      · exact .inr (.inr fun ts => by rwa [hdone])
    | fail =>
      refine .inr (.inr fun ts => ?_)
      rw [List.cons_append, ofTokens, hnext]
      exact not_isClosed_breakOff frames a

/-- The characters that are read until a list or an object is done stand in front, and whatever comes after them has no part
in it. -/
theorem ofTokens_tokens {s : Scan} (hs : s.Proper) {a : Awaits} {frames : List Frame} {cs : List Char}
    (h : (ofTokens a frames (s.tokens cs)).1.IsClosed) :
    ∃ front after, cs = front ++ after ∧ ∀ more,
      ofTokens a frames (s.tokens (front ++ more)) = ((ofTokens a frames (s.tokens cs)).1, Scan.between.tokens more) := by
  -- The scanner and the reader move together; each character's tokens lead the reader on or end it.
  induction cs generalizing s a frames with
  | nil =>
    refine absurd h ?_
    rw [Scan.tokens]
    rcases s.finish_cases with hfinish | ⟨t, ht, hfinish⟩
    · rw [hfinish]
      exact not_isClosed_breakOff frames a
    · rw [hfinish, ofTokens]
      split
      · rename_i d hnext
        exact fun hd => ht (Step.closes_of_next hnext hd)
      · exact not_isClosed_breakOff _ _
      · exact not_isClosed_breakOff _ _
  | cons c rest ih =>
    have hstep : ∀ more, s.tokens (c :: more) = (s.step c).2 ++ (s.step c).1.tokens more := fun _ => rfl
    rw [hstep] at h ⊢
    rcases ofTokens_append a frames (s.step c).2 with ⟨d, before, t, after, hfound, ht, hdone⟩ | ⟨a', frames', hon⟩ | hnever
    · obtain ⟨rfl, hbetween⟩ := hs.closes hfound ht
      refine ⟨[c], rest, rfl, fun more => ?_⟩
      rw [List.singleton_append, hstep, hdone, hdone, hbetween]
      rfl
    · rw [hon] at h ⊢
      obtain ⟨front, after, rfl, hread⟩ := ih (hs.step c) h
      refine ⟨c :: front, after, rfl, fun more => ?_⟩
      rw [List.cons_append, hstep, hon, hread]
    · exact absurd h (hnever _)

/-- Where a text begins with a list or an object, what comes after its end has no part in it. -/
theorem ofText_append_of_isClosed {s : String} (h : (ofText s).1.IsClosed) :
    ∃ front after : String, s = front ++ after ∧
      ∀ more : String, ofText (front ++ more) = ((ofText s).1, Scan.between.tokens more.toList) := by
  obtain ⟨front, after, hs, hread⟩ := ofTokens_tokens (.inl rfl) h
  refine ⟨String.ofList front, String.ofList after, ?_, fun more => ?_⟩
  · rw [← String.ofList_append, ← hs, String.ofList_toList]
  · rw [ofText, String.toList_append, String.toList_ofList, hread]
    rfl

end Draft

end EquityScreen.Json
