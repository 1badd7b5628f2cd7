import Mathlib.Data.List.Basic
import EquityScreen.Store.Like
import EquityScreen.Store.Statement

/-!
# The pattern of a substring search

The pattern that a substring search is made into is read as any run, the needle itself and any run again, whatever
characters the needle has (`ofPattern?_escapeWildcards`). It matches a text as the search does, where the store tells the
characters apart (`like_containsPattern`): it ends a text at its first NUL and takes two code points for the replacement
character.
-/

namespace EquityScreen

/-! ## Letters of ASCII -/

/-- A character stays, or it is a capital of ASCII and becomes the small letter thirty-two places on. -/
theorem toLower_cases (c : Char) :
    c.toLower = c ∨ 65 ≤ c.toNat ∧ c.toNat ≤ 90 ∧ c.toLower.toNat = c.toNat + 32 := by
  unfold Char.toLower
  split
  · rename_i h
    have h₁ : 65 ≤ c.toNat := h.1
    have h₂ : c.toNat ≤ 90 := h.2
    refine .inr ⟨h₁, h₂, ?_⟩
    show (c.val + ('a'.val - 'A'.val)).toNat = c.toNat + 32
    rw [UInt32.toNat_add]
    show (c.toNat + 32) % 2 ^ 32 = c.toNat + 32
    omega
  · exact .inl rfl

/-- A small letter stays. -/
theorem toLower_toLower (c : Char) : c.toLower.toLower = c.toLower := by
  rcases toLower_cases c with h | ⟨h₁, h₂, h⟩
  · rw [h, h]
  · rcases toLower_cases c.toLower with h' | ⟨_, h', _⟩
    · exact h'
    · omega

theorem toLower_eq_of_not_capital {c : Char} (h : ¬(65 ≤ c.toNat ∧ c.toNat ≤ 90)) : c.toLower = c := by
  rcases toLower_cases c with hc | ⟨h₁, h₂, -⟩
  · exact hc
  · exact absurd ⟨h₁, h₂⟩ h

/-! ## Characters as the store sees them -/

/-- A character stays, or it is one of two code points and counts as the replacement character. -/
theorem likeChar_cases (c : Char) :
    likeChar c = c ∨ (c.toNat = 0xFFFE ∨ c.toNat = 0xFFFF) ∧ likeChar c = Char.ofNat 0xFFFD := by
  unfold likeChar
  split
  · rename_i h
    exact .inr ⟨by simpa using h, rfl⟩
  · exact .inl rfl

/-- A character that the store sees as one of ASCII is that one. -/
theorem likeChar_eq_iff_of_ascii {c d : Char} (hd : d.toNat < 128) : likeChar c = d ↔ c = d := by
  constructor
  · intro h
    rcases likeChar_cases c with hc | ⟨-, hc⟩
    · exact hc.symm.trans h
    · have hnat : d.toNat = 0xFFFD := by
        rw [← h, hc]
        rfl
      omega
  · rintro rfl
    rcases likeChar_cases c with hc | ⟨hc, -⟩
    · exact hc
    · omega

/-- The store sees a small letter where it sees the capital. -/
theorem likeChar_toLower (c : Char) : likeChar c.toLower = (likeChar c).toLower := by
  rcases toLower_cases c with h | ⟨h₁, h₂, h⟩
  · rw [h]
    rcases likeChar_cases c with hc | ⟨-, hc⟩
    · rw [hc, h]
    · rw [hc]
      exact (toLower_eq_of_not_capital (by decide)).symm
  · rw [(likeChar_eq_iff_of_ascii (by omega : c.toNat < 128)).2 rfl]
    exact (likeChar_eq_iff_of_ascii (by omega : c.toLower.toNat < 128)).2 rfl

/-- No two different characters, the one of the needle and the other of the text, are one for the store. -/
def ToldApart (needle text : String) : Prop :=
  ∀ c ∈ needle.toList, ∀ d ∈ text.toList, likeChar c = likeChar d → c = d

/-- A needle of ASCII is told apart from any text. -/
theorem toldApart_of_ascii {needle : String} (h : needle.toList.all (·.toNat < 128) = true) (text : String) :
    ToldApart needle text := by
  intro c hc d _ hcd
  have hascii : c.toNat < 128 := of_decide_eq_true (List.all_eq_true.1 h c hc)
  rw [(likeChar_eq_iff_of_ascii hascii).2 rfl] at hcd
  exact ((likeChar_eq_iff_of_ascii hascii).1 hcd.symm).symm

/-- What is told apart is told apart with letters folded. -/
theorem toLower_eq_of_likeChar {c d : Char} (hcd : likeChar c = likeChar d → c = d)
    (h : likeChar c.toLower = likeChar d.toLower) : c.toLower = d.toLower := by
  rcases toLower_cases c with hc | ⟨-, hc, hl⟩
  · rcases toLower_cases d with hd | ⟨-, hd, hl⟩
    · rw [hc, hd] at h
      rw [hcd h]
    · rw [(likeChar_eq_iff_of_ascii (by omega : d.toLower.toNat < 128)).2 rfl] at h
      exact (likeChar_eq_iff_of_ascii (by omega)).1 h
  · rw [(likeChar_eq_iff_of_ascii (by omega : c.toLower.toNat < 128)).2 rfl] at h
    exact ((likeChar_eq_iff_of_ascii (by omega)).1 h.symm).symm

/-! ## Reading a pattern -/

namespace Wildcard

/-- A character that is neither a wildcard nor the escape stands for itself. -/
theorem ofPattern?_cons_plain {c : Char} (h : ¬(c = '%' ∨ c = '_' ∨ c = '\\')) (rest : List Char) :
    ofPattern? (c :: rest) = (ofPattern? rest).map (exactly c :: ·) := by
  simp only [not_or] at h
  rw [ofPattern?]
  · exact h.1
  · exact h.2.1
  · exact fun _ _ heq => absurd heq h.2.2
  · exact fun heq => absurd heq h.2.2

/-- The escaped needle in front of a pattern stands for itself, character by character. -/
theorem ofPattern?_escapeWildcards (needle rest : List Char) :
    ofPattern? (escapeWildcards needle ++ rest) = (ofPattern? rest).map (needle.map exactly ++ ·) := by
  induction needle with
  | nil => simp [escapeWildcards]
  | cons c needle ih =>
    have hstep : escapeWildcards (c :: needle) ++ rest =
        (if c = '%' ∨ c = '_' ∨ c = '\\' then ['\\', c] else [c]) ++ (escapeWildcards needle ++ rest) := by
      rw [escapeWildcards, List.flatMap_cons, List.append_assoc]
      rfl
    have hread : ofPattern? (escapeWildcards (c :: needle) ++ rest) =
        (ofPattern? (escapeWildcards needle ++ rest)).map (exactly c :: ·) := by
      rw [hstep]
      by_cases h : c = '%' ∨ c = '_' ∨ c = '\\'
      · rw [if_pos h]
        rfl
      · rw [if_neg h]
        exact ofPattern?_cons_plain h _
    rw [hread, ih, Option.map_map]
    rfl

/-- A run of any length is found at one of the ends of the characters. -/
theorem matchAll_anyRun (cs : List Char) : matchAll [anyRun] cs = true := by
  rw [matchAll, List.any_eq_true]
  induction cs with
  | nil => exact ⟨[], by simp [suffixes], rfl⟩
  | cons c rest ih =>
    obtain ⟨end', hend, hmatch⟩ := ih
    exact ⟨end', List.mem_cons_of_mem _ hend, hmatch⟩

/-- Characters and any run after them match what begins with the characters, letters folded. -/
theorem matchAll_exactly (needle cs : List Char) :
    matchAll (needle.map exactly ++ [anyRun]) cs = (needle.map Char.toLower).isPrefixOf (cs.map Char.toLower) := by
  induction needle generalizing cs with
  | nil => simpa using matchAll_anyRun cs
  | cons c needle ih =>
    cases cs with
    | nil => rfl
    | cons d cs =>
      rw [List.map_cons, List.cons_append, matchAll, ih]
      rfl

/-- Characters between two runs match what holds the characters, letters folded. -/
theorem matchAll_between (needle cs : List Char) :
    matchAll (anyRun :: (needle.map exactly ++ [anyRun])) cs =
      Text.holdsChars (needle.map Char.toLower) (cs.map Char.toLower) := by
  rw [matchAll]
  induction cs with
  | nil =>
    rw [suffixes, List.any_cons, List.any_nil, Bool.or_false, matchAll_exactly]
    cases needle <;> rfl
  | cons c rest ih =>
    rw [suffixes, List.any_cons, ih, matchAll_exactly]
    rfl

end Wildcard

/-- A needle is held where it is held in characters that are told apart. -/
theorem holdsChars_map {f : Char → Char} {needle text : List Char}
    (h : ∀ c ∈ needle, ∀ d ∈ text, f c = f d → c = d) :
    Text.holdsChars (needle.map f) (text.map f) = Text.holdsChars needle text := by
  have hfront : ∀ (needle text : List Char), (∀ c ∈ needle, ∀ d ∈ text, f c = f d → c = d) →
      (needle.map f).isPrefixOf (text.map f) = needle.isPrefixOf text := by
    intro needle
    induction needle with
    | nil => intro text _; rfl
    | cons c needle ih =>
      intro text h
      cases text with
      | nil => rfl
      | cons d text =>
        have hhead : (f c == f d) = (c == d) := by
          rw [Bool.eq_iff_iff, beq_iff_eq, beq_iff_eq]
          exact ⟨h c List.mem_cons_self d List.mem_cons_self, fun heq => heq ▸ rfl⟩
        rw [List.map_cons, List.map_cons, List.isPrefixOf, List.isPrefixOf, hhead]
        rw [ih text fun a ha b hb => h a (List.mem_cons_of_mem _ ha) b (List.mem_cons_of_mem _ hb)]
  induction text with
  | nil => cases needle <;> rfl
  | cons d text ih =>
    rw [List.map_cons, Text.holdsChars, Text.holdsChars, ih fun c hc a ha => h c hc a (List.mem_cons_of_mem _ ha)]
    rw [← List.map_cons, hfront needle (d :: text) h]

/-! ## The search -/

/-- The text has no NUL. -/
def HasNoNul (s : String) : Prop := ∀ c ∈ s.toList, c ≠ '\x00'

-- Looked for among the characters of the text, and not among all characters there are.
instance (s : String) : Decidable (HasNoNul s) :=
  decidable_of_iff (s.toList.all (· != '\x00') = true) (by simp [HasNoNul])

theorem likeChars_of_hasNoNul {cs : List Char} (h : ∀ c ∈ cs, c ≠ '\x00') :
    likeChars (String.ofList cs) = cs.map likeChar := by
  rw [likeChars, String.toList_ofList]
  congr 1
  induction cs with
  | nil => rfl
  | cons c rest ih =>
    rw [List.takeWhile_cons, if_pos (decide_eq_true (h c List.mem_cons_self)),
      ih fun d hd => h d (List.mem_cons_of_mem _ hd)]

/-- Folding letters makes no NUL. -/
theorem hasNoNul_foldAscii {s : String} (h : HasNoNul s) : ∀ c ∈ s.toList.map Char.toLower, c ≠ '\x00' := by
  intro c hc
  obtain ⟨d, hd, rfl⟩ := List.mem_map.1 hc
  rcases toLower_cases d with hlow | ⟨h₁, -, hlow⟩
  · rw [hlow]
    exact h d hd
  · intro hnul
    rw [hnul] at hlow
    have hzero : 0 = d.toNat + 32 := hlow
    omega

/-- The escape goes before the same characters as the store sees them. -/
theorem map_likeChar_escapeWildcards (cs : List Char) :
    (escapeWildcards cs).map likeChar = escapeWildcards (cs.map likeChar) := by
  have hspecial : ∀ c, (likeChar c = '%' ∨ likeChar c = '_' ∨ likeChar c = '\\') ↔ (c = '%' ∨ c = '_' ∨ c = '\\') := by
    intro c
    rw [likeChar_eq_iff_of_ascii (by decide), likeChar_eq_iff_of_ascii (by decide), likeChar_eq_iff_of_ascii (by decide)]
  rw [escapeWildcards, escapeWildcards, List.map_flatMap, List.flatMap_map]
  refine List.flatMap_congr fun c _ => ?_
  simp only [hspecial]
  split
  · rfl
  · rfl

/-- Escaping makes no NUL. -/
theorem ne_nul_of_mem_escapeWildcards {cs : List Char} (h : ∀ c ∈ cs, c ≠ '\x00') :
    ∀ c ∈ escapeWildcards cs, c ≠ '\x00' := by
  intro c hc
  obtain ⟨d, hd, hcd⟩ := List.mem_flatMap.1 hc
  split at hcd
  · rcases List.mem_cons.1 hcd with rfl | hcd
    · decide
    · rw [List.mem_singleton.1 hcd]
      exact h d hd
  · rw [List.mem_singleton.1 hcd]
    exact h d hd

/-- Without a NUL the pattern of a search matches where the needle is held, in the characters the store sees. -/
theorem like_containsPattern {text needle : String} (ht : HasNoNul text) (hn : HasNoNul needle) :
    like (Text.foldAscii text) (containsPattern needle) =
      Text.holdsChars ((needle.toList.map Char.toLower).map likeChar) ((text.toList.map Char.toLower).map likeChar) := by
  have hfold := hasNoNul_foldAscii hn
  have hpattern : likeChars (containsPattern needle) =
      '%' :: (escapeWildcards ((needle.toList.map Char.toLower).map likeChar) ++ ['%']) := by
    have hnul : ∀ c ∈ '%' :: (escapeWildcards (needle.toList.map Char.toLower) ++ ['%']), c ≠ '\x00' := by
      intro c hc
      rcases List.mem_cons.1 hc with rfl | hc
      · decide
      · rcases List.mem_append.1 hc with hc | hc
        · exact ne_nul_of_mem_escapeWildcards hfold c hc
        · rw [List.mem_singleton.1 hc]
          decide
    rw [containsPattern, Text.foldAscii, String.toList_ofList, likeChars_of_hasNoNul hnul, List.map_cons, List.map_append,
      map_likeChar_escapeWildcards]
    rfl
  have hparts : Wildcard.ofPattern? (likeChars (containsPattern needle)) =
      some (.anyRun :: (((needle.toList.map Char.toLower).map likeChar).map .exactly ++ [.anyRun])) := by
    rw [hpattern, Wildcard.ofPattern?, Wildcard.ofPattern?_escapeWildcards]
    rfl
  have hsmall : ∀ cs : List Char,
      ((cs.map Char.toLower).map likeChar).map Char.toLower = (cs.map Char.toLower).map likeChar := by
    intro cs
    rw [List.map_map, List.map_map, List.map_map]
    refine List.map_congr_left fun c _ => ?_
    rw [Function.comp_apply, Function.comp_apply, Function.comp_apply, ← likeChar_toLower, toLower_toLower]
  rw [like, hparts]
  show Wildcard.matchAll _ (likeChars (Text.foldAscii text)) = _
  rw [Text.foldAscii, likeChars_of_hasNoNul (hasNoNul_foldAscii ht), Wildcard.matchAll_between, hsmall, hsmall]

/-- Where the store tells their characters apart, the pattern of a search matches the texts that hold the needle. -/
theorem like_eq_holdsFolded {text needle : String} (ht : HasNoNul text) (hn : HasNoNul needle)
    (h : ToldApart needle text) : like (Text.foldAscii text) (containsPattern needle) = Text.holdsFolded text needle := by
  rw [like_containsPattern ht hn, Text.holdsFolded, Text.holds, Text.foldAscii, Text.foldAscii, String.toList_ofList,
    String.toList_ofList]
  refine holdsChars_map fun c hc d hd hcd => ?_
  obtain ⟨c', hc', rfl⟩ := List.mem_map.1 hc
  obtain ⟨d', hd', rfl⟩ := List.mem_map.1 hd
  exact toLower_eq_of_likeChar (h c' hc' d' hd') hcd

end EquityScreen
