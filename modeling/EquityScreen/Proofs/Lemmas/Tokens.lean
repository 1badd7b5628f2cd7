import Mathlib.Data.List.SplitBy
import EquityScreen.Proofs.Lemmas.Names
import EquityScreen.Store.Statement
import EquityScreen.Store.Token

/-!
# Reading tokens

Two texts put end to end are read one after the other where the first ends, or the second begins, with a character that is part
of no longer token (`Token.ofText_append_left`, `Token.ofText_append_right`). Values put behind the marks of a text are those
that its tokens have there (`Token.fill_erase`), and tokens with a separator between them are taken apart at the separator
(`Token.split_append`).
-/

namespace EquityScreen

namespace Token

/-! ## Reading a text -/

/-- The character is a token by itself or a blank. -/
def isSingle (c : Char) : Bool := !isWordChar c && !isRelationChar c

/-- The text ends with a character that is part of no longer token. -/
def EndsSingle (text : String) : Prop := text.toList.getLast?.any isSingle = true

/-- The text begins with a character that is part of no longer token. -/
def BeginsSingle (text : String) : Prop := text.toList.head?.any isSingle = true

instance (text : String) : Decidable (EndsSingle text) := inferInstanceAs (Decidable (_ = _))

instance (text : String) : Decidable (BeginsSingle text) := inferInstanceAs (Decidable (_ = _))

theorem EndsSingle.append {b : String} (a : String) (h : EndsSingle b) : EndsSingle (a ++ b) := by
  unfold EndsSingle at *
  rw [String.toList_append, List.getLast?_append]
  cases hlast : b.toList.getLast? with
  | none => simp [hlast] at h
  | some c => simpa [hlast] using h

theorem together_single_left {a : Char} (h : isSingle a = true) (b : Char) : together a b = false := by
  simp_all [isSingle, together]

theorem together_single_right {b : Char} (h : isSingle b = true) (a : Char) : together a b = false := by
  simp_all [isSingle, together]

/-- A text that ends with a single character is read before what follows it. -/
theorem ofText_append_left (a b : String) (h : EndsSingle a) : ofText (a ++ b) = ofText a ++ ofText b := by
  rw [ofText, String.toList_append, List.splitBy_append, List.filterMap_append]
  · rfl
  · intro x hx y _
    refine together_single_left ?_ y
    simpa [EndsSingle, Option.mem_def.1 hx] using h

/-- A text that begins with a single character is read after what precedes it. -/
theorem ofText_append_right (a b : String) (h : BeginsSingle b) : ofText (a ++ b) = ofText a ++ ofText b := by
  rw [ofText, String.toList_append, List.splitBy_append, List.filterMap_append]
  · rfl
  · intro x _ y hy
    refine together_single_right ?_ x
    simpa [BeginsSingle, Option.mem_def.1 hy] using h

/-- Texts with a separator between them. -/
theorem ofText_separated {s : String} (h : BeginsSingle s ∧ EndsSingle s) (a b : String) :
    ofText (a ++ s ++ b) = ofText a ++ ofText s ++ ofText b := by
  rw [ofText_append_left _ _ (h.2.append a), ofText_append_right _ _ h.1]

/-- Joined texts are read one after another, with the separator between each two. -/
theorem ofText_join {s : String} (h : BeginsSingle s ∧ EndsSingle s) (text : String) (more : List String) :
    ofText (Text.join s (text :: more)) = ofText text ++ more.flatMap fun t => ofText s ++ ofText t := by
  induction more generalizing text with
  | nil => simp [Text.join]
  | cons next rest ih =>
    have hjoin : Text.join s (text :: next :: rest) = text ++ s ++ Text.join s (next :: rest) := String.intercalate_cons_cons
    rw [hjoin, ofText_separated h, ih, List.flatMap_cons]
    simp only [List.append_assoc]

/-- The name of a column is one word. -/
theorem ofText_label (c : Column) : ofText c.label = [word c.label] := by
  cases c with
  | symbol => rfl
  | text c => cases c <;> rfl
  | number c => cases c <;> rfl

/-- A relation is one token. -/
theorem ofText_symbol (rel : Relation) : ofText rel.symbol = [relation rel.symbol] := by
  cases rel <;> rfl

/-! ## Marks of a text -/

variable {β : Type}

/-- The token is a mark. -/
def isMark : Token β → Bool
  | mark _ => true
  | _ => false

/-- A single character is a run by itself. -/
theorem eq_singleton_of_isChain {c : Char} (hc : isSingle c = true) {run : List Char}
    (hrun : run.IsChain fun a b => together a b) (h : c ∈ run) : run = [c] := by
  induction run with
  | nil => exact absurd h List.not_mem_nil
  | cons a rest ih =>
    cases rest with
    | nil => rw [List.mem_singleton.1 h]
    | cons b rest =>
      obtain ⟨hab, hchain⟩ := List.isChain_cons_cons.1 hrun
      -- Wherever the single character stands in a longer run, it would be together with a neighbour.
      rcases List.mem_cons.1 h with rfl | h
      · exact absurd hab (by simp [together_single_left hc])
      · rw [(List.cons.inj (ih hchain h)).1, together_single_right hc] at hab
        exact absurd hab Bool.false_ne_true

/-- A run is a mark when it holds a question mark, and then it holds no other character. -/
theorem count_run {run : List Char} (hrun : run.IsChain fun a b => together a b) :
    run.count '?' = if (ofRun? run).any isMark then 1 else 0 := by
  by_cases h : '?' ∈ run
  · rw [eq_singleton_of_isChain (by decide) hrun h]
    rfl
  · rw [List.count_eq_zero_of_not_mem h, if_neg]
    cases run with
    | nil => simp [ofRun?]
    | cons c cs =>
      have hc : c ≠ '?' := fun hc => h (hc ▸ List.mem_cons_self)
      simp only [ofRun?, if_neg hc]
      split_ifs <;> simp [isMark]

/-- A text has as many marks as question marks. -/
theorem countP_isMark_ofText (text : String) : (ofText text).countP isMark = text.toList.count '?' := by
  have hruns : ∀ runs : List (List Char), (∀ run ∈ runs, run.IsChain fun a b => together a b) →
      (runs.filterMap ofRun?).countP isMark = runs.flatten.count '?' := by
    intro runs h
    induction runs with
    | nil => rfl
    | cons run rest ih =>
      have hrest := ih fun r hr => h r (List.mem_cons_of_mem _ hr)
      rw [List.flatten_cons, List.count_append, count_run (h run List.mem_cons_self), ← hrest, List.filterMap_cons]
      cases ofRun? run with
      | none => simp
      | some t => simp [List.countP_cons, Nat.add_comm]
  rw [ofText, hruns _ fun run => List.isChain_of_mem_splitBy, List.flatten_splitBy]

/-! ## Values behind marks -/

/-- The token as it stands in the text. -/
def erase : Token β → Token Unit
  | word w => word w
  | relation s => relation s
  | mark _ => mark ()
  | sign c => sign c

/-- The value behind a mark. -/
def value? : Token β → Option β
  | mark m => some m
  | _ => none

/-- There are as many marks as values behind them. -/
theorem countP_isMark_erase (ts : List (Token β)) : (ts.map erase).countP isMark = (ts.filterMap value?).length := by
  rw [List.countP_map, List.length_filterMap_eq_countP]
  refine List.countP_congr fun t _ => ?_
  cases t <;> simp [erase, isMark, value?]

theorem eq_word_of_erase {t : Token β} {w : String} (h : t.erase = word w) : t = word w := by
  cases t with
  | word w' => exact congrArg word (word.inj h)
  | relation s => simp [erase] at h
  | mark m => simp [erase] at h
  | sign c => simp [erase] at h

/-- Values in the places that they have in a list of tokens. -/
theorem fill_erase (ts : List (Token β)) : fill (ts.map erase) (ts.filterMap value?) = some ts := by
  induction ts with
  | nil => rfl
  | cons t rest ih => cases t <;> simp [List.filterMap_cons, erase, value?, fill, ih]

/-! ## Parts -/

section Parts

variable {separates : Token β → Bool}

theorem split_ne_nil (ts : List (Token β)) : split separates ts ≠ [] := by
  cases ts with
  | nil => simp [split]
  | cons t rest =>
    rw [split]
    split
    · simp
    · split <;> simp

/-- Tokens of which none separates are one part. -/
theorem split_eq_singleton {ts : List (Token β)} (h : ∀ t ∈ ts, separates t = false) : split separates ts = [ts] := by
  induction ts with
  | nil => rfl
  | cons t rest ih =>
    rw [split, h t List.mem_cons_self, ih fun t ht => h t (List.mem_cons_of_mem _ ht)]
    rfl

/-- What stands before a separator and what stands behind it are taken apart each by itself. -/
theorem split_append {t : Token β} (ht : separates t = true) (ts rest : List (Token β)) :
    split separates (ts ++ t :: rest) = split separates ts ++ split separates rest := by
  induction ts with
  | nil =>
    show split separates (t :: rest) = [] :: split separates rest
    rw [split, if_pos ht]
  | cons u ts ih =>
    rw [List.cons_append, split, split, ih]
    cases separates u with
    | true => rfl
    | false =>
      cases hparts : split separates ts with
      | nil => exact absurd hparts (split_ne_nil ts)
      | cons part more => rfl

/-- Parts with a separator before each of them, behind tokens. -/
theorem split_flatMap {α : Type} {t : Token β} (ht : separates t = true) (ts : List (Token β)) (parts : List α)
    (tokens : α → List (Token β)) :
    split separates (ts ++ parts.flatMap fun a => t :: tokens a) =
      split separates ts ++ parts.flatMap fun a => split separates (tokens a) := by
  induction parts generalizing ts with
  | nil => simp
  | cons a rest ih =>
    have hrest : ts ++ (a :: rest).flatMap (fun a => t :: tokens a) =
        ts ++ t :: (tokens a ++ rest.flatMap fun a => t :: tokens a) := by
      rw [List.flatMap_cons, List.cons_append]
    rw [hrest, split_append ht, ih, List.flatMap_cons]

end Parts

end Token
end EquityScreen
