import EquityScreen.Proofs.Lemmas.Orders
import EquityScreen.Proofs.Lemmas.Pages

/-!
# Paging

The keys of a result, the symbol among them, tell rows of different symbols apart, so such rows stand in one order whatever
order they arrive in (`Row.Arranged.unique`). A page is a run of rows of that order. Page after page, from where the one
before it ended, every match is shown once and none is left out (`every_match_on_one_page`).
-/

namespace EquityScreen

/-! ## The order of a result -/

namespace Row

/-- The keys of a result put the one row before the other: the first key that tells the two apart does. -/
def Before (keys : List SortKey) (a b : Row) : Prop :=
  lexOrder ((effectiveSort keys).map compareBy) a b = .lt

/-- The rows put in the order of the keys: each is before all that come after it. -/
def Arranged (keys : List SortKey) (rows arranged : List Row) : Prop :=
  arranged.Perm rows ∧ arranged.Pairwise (Before keys)

theorem not_before_of_before {keys : List SortKey} {a b : Row} (h : Before keys a b) : ¬Before keys b a := by
  unfold Before at h ⊢
  rw [order_swap (lexOrder _) b a, h]
  decide

/-- Of two rows of different symbols the one that a sort leaves in front is before the other. -/
theorem before_of_isLE {keys : List SortKey} {a b : Row} (hne : a.symbol ≠ b.symbol)
    (hle : (lexOrder ((effectiveSort keys).map compareBy) a b).isLE = true) : Before keys a b := by
  unfold Before
  cases hcmp : lexOrder ((effectiveSort keys).map compareBy) a b with
  | lt => rfl
  | eq => exact absurd (symbol_eq_of_lexOrder hcmp) hne
  | gt => simp [hcmp] at hle

/-- Rows of different symbols are arranged by sorting them. -/
theorem arranged_sortRows {rows : List Row} (hsymbols : (rows.map (·.symbol)).Nodup) (keys : List SortKey) :
    Arranged keys rows (sortRows (effectiveSort keys) rows) := by
  have hperm := perm_sortRows (effectiveSort keys) rows
  have hdistinct := List.pairwise_map.1 ((hperm.map symbol).nodup_iff.2 hsymbols)
  refine ⟨hperm, ((pairwise_sortRows (effectiveSort keys) rows).and hdistinct).imp ?_⟩
  intro a b hab
  exact before_of_isLE hab.2 hab.1

/-- There is no other arrangement of rows. -/
theorem Arranged.unique {keys : List SortKey} {rows l l' : List Row} (h : Arranged keys rows l) (h' : Arranged keys rows l') :
    l = l' := by
  refine List.Perm.eq_of_pairwise ?_ h.2 h'.2 (h.1.trans h'.1.symm)
  intro a b _ _ hab hba
  exact absurd hba (not_before_of_before hab)

/-- Rows are arranged alike whatever order they arrive in. -/
theorem Arranged.of_perm {keys : List SortKey} {rows arrived l : List Row} (h : Arranged keys arrived l)
    (harrived : arrived.Perm rows) : Arranged keys rows l :=
  ⟨h.1.trans harrived, h.2⟩

/-- Rows of different symbols are sorted to the same list whatever order they arrive in. -/
theorem sortRows_eq_of_perm {rows arrived : List Row} (hsymbols : (rows.map (·.symbol)).Nodup) (harrived : arrived.Perm rows)
    (keys : List SortKey) : sortRows (effectiveSort keys) arrived = sortRows (effectiveSort keys) rows := by
  have hsame : (arrived.map symbol).Nodup := (harrived.map symbol).nodup_iff.2 hsymbols
  exact ((arranged_sortRows hsame keys).of_perm harrived).unique (arranged_sortRows hsymbols keys)

end Row

/-! ## Page after page -/

/-- Paging shows every match once. Matches of different symbols give the same pages and the same total in whatever order they
arrive. With a limit as it is taken from a request, a page has at most so many rows, the total on it is the number of all
matches, and a page that begins behind the last match is empty. Read from the first page on until one is empty, the pages are,
end to end, the one arrangement of the matches by the keys. The greatest offset that the store accepts changes no page of
fewer than `2 ^ 63` matches. -/
theorem every_match_on_one_page {matched : List Row} (hsymbols : (matched.map (·.symbol)).Nodup) (keys : List SortKey)
    (limit : Option Nat) :
    let l := (Page.ofRequest limit 0).limit
    let shown := fun offset => (assemble matched keys ⟨l, offset⟩).1
    (∀ arrived, arrived.Perm matched → ∀ page, assemble arrived keys page = assemble matched keys page) ∧
      (∀ offset, (shown offset).length ≤ l ∧ (assemble matched keys ⟨l, offset⟩).2 = matched.length ∧
        (matched.length ≤ offset → shown offset = [])) ∧
      (∃ arranged, (∀ other, Row.Arranged keys matched other ↔ other = arranged) ∧
        ∃ n, (∀ k < n, shown (k * l) ≠ []) ∧ shown (n * l) = [] ∧
          ((List.range n).flatMap fun k => shown (k * l)) = arranged) ∧
      (matched.length < 2 ^ 63 →
        ∀ offset, assemble matched keys (Page.ofRequest limit offset) = assemble matched keys ⟨l, offset⟩) := by
  intro l shown
  obtain ⟨hl, -, -⟩ := Page.ofRequest_bounds limit 0
  have harranged := Row.arranged_sortRows hsymbols keys
  have hlength : (sortRows (effectiveSort keys) matched).length = matched.length := harranged.1.length_eq
  refine ⟨?_, ?_, ?_, ?_⟩
  · intro arrived harrived page
    rw [assemble, assemble, Row.sortRows_eq_of_perm hsymbols harrived, harrived.length_eq]
  · intro offset
    refine ⟨?_, rfl, fun hbehind => ?_⟩
    · rw [show shown offset = Page.cut ⟨l, offset⟩ _ from rfl, Page.length_cut]
      exact Nat.min_le_left _ _
    · exact (Page.cut_eq_nil_iff (p := ⟨l, offset⟩) hl _).2 (hlength ▸ hbehind)
  · refine ⟨_, fun other => ⟨fun hother => hother.unique harranged, ?_⟩, Page.pages_end_to_end hl _⟩
    rintro rfl
    exact harranged
  · intro hfew offset
    have hgreatest : (sortRows (effectiveSort keys) matched).length ≤ Page.greatestOffset := by
      rw [hlength]
      exact Nat.le_sub_one_of_lt hfew
    have hsame := Page.cut_of_min_offset l offset hgreatest
    exact Prod.ext hsame rfl

/-- Three rows: one has a text where another has a number, and one has nothing. -/
def threeRows : List Row :=
  [.ofSymbol "C", (Row.ofSymbol "A").set "pe" (.number 12.5), (Row.ofSymbol "B").set "pe" (.text "high")]

/-- Two pages of two rows hold the three, the same in whatever order they arrive. -/
theorem three_rows_on_two_pages :
    let keys : List SortKey := [⟨"pe", .desc⟩]
    let shown := fun offset => (assemble threeRows keys ⟨2, offset⟩).1
    (threeRows.map (·.symbol)).Nodup ∧ (∀ page, assemble threeRows.reverse keys page = assemble threeRows keys page) ∧
      ∃ n, shown (n * 2) = [] ∧ ((List.range n).flatMap fun k => shown (k * 2)).map (·.symbol) = ["B", "A", "C"] := by
  intro keys shown
  have hsymbols : (threeRows.map (·.symbol)).Nodup := by decide
  obtain ⟨hperm, -, ⟨arranged, hunique, n, -, hlast, hall⟩, -⟩ := every_match_on_one_page hsymbols keys (some 2)
  have hgiven : Row.Arranged keys threeRows [threeRows[2], threeRows[1], threeRows[0]] :=
    ⟨threeRows.reverse_perm, by simp [Row.Before, threeRows]; decide⟩
  refine ⟨hsymbols, hperm _ threeRows.reverse_perm, n, hlast, ?_⟩
  rw [show ((List.range n).flatMap fun k => shown (k * 2)) = arranged from hall, ← (hunique _).1 hgiven]
  rfl

end EquityScreen
