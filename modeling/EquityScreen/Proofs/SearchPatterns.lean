import Mathlib.Data.List.Infix
import EquityScreen.Proofs.Lemmas.Patterns

/-!
# Escaped searches

What a pattern means is said here by its rules alone (`Like`), without a list of parts and without a search for the end of a
run; the store's match follows them (`like_iff`). By these rules the pattern of a search matches the texts that hold the
needle, and no others: in the pattern every character of the needle stands for itself (`escaped_search_exact`).
-/

namespace EquityScreen

/-- A text matches a pattern: `%` takes any run, `_` any one character, the escape makes the next character stand for
itself, and so does every other character; letters of ASCII match in either case. -/
inductive Like : List Char → List Char → Prop where
  | nil : Like [] []
  | anyRun {pattern text : List Char} (run : List Char) (rest : Like pattern text) : Like ('%' :: pattern) (run ++ text)
  | anyOne {pattern text : List Char} (c : Char) (rest : Like pattern text) : Like ('_' :: pattern) (c :: text)
  | escaped {pattern text : List Char} {c d : Char} (same : c.toLower = d.toLower) (rest : Like pattern text) :
      Like ('\\' :: c :: pattern) (d :: text)
  | plain {pattern text : List Char} {c d : Char} (hplain : ¬(c = '%' ∨ c = '_' ∨ c = '\\'))
      (same : c.toLower = d.toLower) (rest : Like pattern text) : Like (c :: pattern) (d :: text)

namespace Wildcard

theorem mem_suffixes {s cs : List Char} : s ∈ suffixes cs ↔ s <:+ cs := by
  induction cs with
  | nil => simp [suffixes]
  | cons c rest ih => rw [suffixes, List.mem_cons, ih, List.suffix_cons_iff]

/-- A run in front of a pattern takes a part of the text from its front. -/
theorem matchAll_anyRun_cons {parts : List Wildcard} {cs : List Char} :
    matchAll (anyRun :: parts) cs = true ↔ ∃ run rest, cs = run ++ rest ∧ matchAll parts rest = true := by
  rw [matchAll, List.any_eq_true]
  constructor
  · rintro ⟨rest, hrest, hmatch⟩
    obtain ⟨run, rfl⟩ := mem_suffixes.1 hrest
    exact ⟨run, rest, rfl, hmatch⟩
  · rintro ⟨run, rest, rfl, hmatch⟩
    exact ⟨rest, mem_suffixes.2 (List.suffix_append run rest), hmatch⟩

/-- A character of a pattern takes the same letter from the front of the text. -/
theorem matchAll_exactly_cons {c : Char} {parts : List Wildcard} {cs : List Char} :
    matchAll (exactly c :: parts) cs = true ↔
      ∃ d rest, cs = d :: rest ∧ c.toLower = d.toLower ∧ matchAll parts rest = true := by
  cases cs with
  | nil => simp [matchAll]
  | cons d rest =>
    rw [matchAll, Bool.and_eq_true, beq_iff_eq]
    constructor
    · rintro ⟨hsame, hmatch⟩
      exact ⟨d, rest, rfl, hsame, hmatch⟩
    · rintro ⟨_, _, heq, hsame, hmatch⟩
      cases heq
      exact ⟨hsame, hmatch⟩

/-- What matches the parts of a pattern matches the pattern. -/
theorem like_of_matchAll {pattern cs : List Char} {parts : List Wildcard} (hparts : ofPattern? pattern = some parts)
    (h : matchAll parts cs = true) : Like pattern cs := by
  -- Along the reading of the pattern; the text is left open, as a run may end anywhere in it.
  induction pattern using ofPattern?.induct generalizing parts cs with
  | case1 =>
    obtain rfl : [] = parts := Option.some.inj hparts
    rw [matchAll, List.isEmpty_iff] at h
    rw [h]
    exact .nil
  | case2 rest ih =>
    obtain ⟨tail, htail, rfl⟩ := Option.map_eq_some_iff.1 hparts
    obtain ⟨run, text, rfl, hmatch⟩ := matchAll_anyRun_cons.1 h
    exact .anyRun run (ih htail hmatch)
  | case3 rest ih =>
    obtain ⟨tail, htail, rfl⟩ := Option.map_eq_some_iff.1 hparts
    cases cs with
    | nil => cases h
    | cons c text => exact .anyOne c (ih htail h)
  | case4 c rest ih =>
    obtain ⟨tail, htail, rfl⟩ := Option.map_eq_some_iff.1 hparts
    obtain ⟨d, text, rfl, hsame, hmatch⟩ := matchAll_exactly_cons.1 h
    exact .escaped hsame (ih htail hmatch)
  | case5 => cases hparts
  | case6 c rest hrun hone hescape hend ih =>
    have hplain : ¬(c = '%' ∨ c = '_' ∨ c = '\\') := by
      rintro (rfl | rfl | rfl)
      · exact hrun rfl
      · exact hone rfl
      · cases rest with
        | nil => exact hend rfl rfl
        | cons d rest => exact hescape d rest rfl rfl
    rw [ofPattern?_cons_plain hplain] at hparts
    obtain ⟨tail, htail, rfl⟩ := Option.map_eq_some_iff.1 hparts
    obtain ⟨d, text, rfl, hsame, hmatch⟩ := matchAll_exactly_cons.1 h
    exact .plain hplain hsame (ih htail hmatch)

/-- A pattern that matches has parts, and they match. -/
theorem matchAll_of_like {pattern cs : List Char} (h : Like pattern cs) :
    ∃ parts, ofPattern? pattern = some parts ∧ matchAll parts cs = true := by
  induction h with
  | nil => exact ⟨[], rfl, rfl⟩
  | anyRun run _ ih =>
    obtain ⟨parts, hparts, hmatch⟩ := ih
    exact ⟨.anyRun :: parts, by rw [ofPattern?, hparts, Option.map_some], matchAll_anyRun_cons.2 ⟨run, _, rfl, hmatch⟩⟩
  | anyOne c _ ih =>
    obtain ⟨parts, hparts, hmatch⟩ := ih
    exact ⟨.anyOne :: parts, by rw [ofPattern?, hparts, Option.map_some], hmatch⟩
  | @escaped _ _ c _ hsame _ ih =>
    obtain ⟨parts, hparts, hmatch⟩ := ih
    refine ⟨.exactly c :: parts, ?_, matchAll_exactly_cons.2 ⟨_, _, rfl, hsame, hmatch⟩⟩
    rw [ofPattern?, hparts, Option.map_some]
  | @plain _ _ c _ hplain hsame _ ih =>
    obtain ⟨parts, hparts, hmatch⟩ := ih
    refine ⟨.exactly c :: parts, ?_, matchAll_exactly_cons.2 ⟨_, _, rfl, hsame, hmatch⟩⟩
    rw [ofPattern?_cons_plain hplain, hparts, Option.map_some]

/-- Where a pattern has parts, to match it is to match them. -/
theorem like_iff_matchAll {pattern cs : List Char} {parts : List Wildcard} (hparts : ofPattern? pattern = some parts) :
    Like pattern cs ↔ matchAll parts cs = true := by
  constructor
  · intro h
    obtain ⟨parts', hparts', hmatch⟩ := matchAll_of_like h
    obtain rfl : parts = parts' := Option.some.inj (hparts.symm.trans hparts')
    exact hmatch
  · exact like_of_matchAll hparts

end Wildcard

/-- The store matches by the rules, in the characters that it sees. -/
theorem like_iff (text pattern : String) : like text pattern = true ↔ Like (likeChars pattern) (likeChars text) := by
  unfold like
  cases hparts : Wildcard.ofPattern? (likeChars pattern) with
  | some parts => exact (Wildcard.like_iff_matchAll hparts).symm
  | none =>
    constructor
    · intro h
      cases h
    · intro h
      obtain ⟨parts, hsome, -⟩ := Wildcard.matchAll_of_like h
      cases hparts.symm.trans hsome

/-- A needle is held where it is one part of the text. -/
theorem holdsChars_iff (needle text : List Char) : Text.holdsChars needle text = true ↔ needle <:+: text := by
  induction text with
  | nil => simp [Text.holdsChars]
  | cons c rest ih =>
    rw [Text.holdsChars, Bool.or_eq_true, ih, List.isPrefixOf_iff_prefix, List.infix_cons_iff]

theorem holdsFolded_iff (text needle : String) :
    Text.holdsFolded text needle = true ↔ (Text.foldAscii needle).toList <:+: (Text.foldAscii text).toList :=
  holdsChars_iff _ _

/-- The pattern of a search is any run, the needle's characters for themselves and any run. -/
theorem ofPattern?_containsPattern (needle : String) :
    Wildcard.ofPattern? (containsPattern needle).toList =
      some (.anyRun :: ((Text.foldAscii needle).toList.map .exactly ++ [.anyRun])) := by
  rw [containsPattern, String.toList_ofList, Wildcard.ofPattern?, Wildcard.ofPattern?_escapeWildcards]
  rfl

theorem map_toLower_foldAscii (s : String) : (Text.foldAscii s).toList.map Char.toLower = (Text.foldAscii s).toList := by
  rw [Text.foldAscii, String.toList_ofList, List.map_map]
  exact List.map_congr_left fun c _ => toLower_toLower c

/-- The pattern made of a needle matches a text, letters folded, exactly when the text holds the needle: by the rules of
patterns; as the evaluator searches; and as the store matches where it tells their characters apart, and in the characters
it sees anywhere. No character of the needle is read as a wildcard or as the escape. -/
theorem escaped_search_exact (text needle : String) (htext : HasNoNul text) (hneedle : HasNoNul needle) :
    (Like (containsPattern needle).toList (Text.foldAscii text).toList ↔
      (Text.foldAscii needle).toList <:+: (Text.foldAscii text).toList) ∧
    (Text.holdsFolded text needle = true ↔ (Text.foldAscii needle).toList <:+: (Text.foldAscii text).toList) ∧
    (like (Text.foldAscii text) (containsPattern needle) = true ↔
      (Text.foldAscii needle).toList.map likeChar <:+: (Text.foldAscii text).toList.map likeChar) ∧
    (ToldApart needle text → (like (Text.foldAscii text) (containsPattern needle) = true ↔
      (Text.foldAscii needle).toList <:+: (Text.foldAscii text).toList)) ∧
    Wildcard.ofPattern? (containsPattern needle).toList =
      some (.anyRun :: ((Text.foldAscii needle).toList.map .exactly ++ [.anyRun])) := by
  refine ⟨?_, holdsFolded_iff text needle, ?_, ?_, ofPattern?_containsPattern needle⟩
  · rw [Wildcard.like_iff_matchAll (ofPattern?_containsPattern needle), Wildcard.matchAll_between, holdsChars_iff,
      map_toLower_foldAscii, map_toLower_foldAscii]
  · rw [like_containsPattern htext hneedle, holdsChars_iff, Text.foldAscii, Text.foldAscii, String.toList_ofList,
      String.toList_ofList]
  · intro hapart
    rw [like_eq_holdsFolded htext hneedle hapart, holdsFolded_iff]

/-- A needle of wildcards and the escape is looked for as it stands. -/
theorem escaped_search_of_wildcards :
    Like (containsPattern "%_\\").toList (Text.foldAscii "A%_\\B").toList ∧
      ¬Like (containsPattern "%_\\").toList (Text.foldAscii "A%X\\B").toList := by
  refine ⟨(escaped_search_exact "A%_\\B" "%_\\" (by decide) (by decide)).1.2 (by decide), fun h => ?_⟩
  exact absurd ((escaped_search_exact "A%X\\B" "%_\\" (by decide) (by decide)).1.1 h) (by decide)

end EquityScreen
