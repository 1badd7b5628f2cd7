import Mathlib.Data.List.Basic
import EquityScreen.Proofs.Lemmas.Records

/-!
# Sorting in turn and sorting at once

Sorting by each key in turn, from the last to the first, with sorts that keep the order of equal rows, is sorting by all
keys at once (`pairwise_foldr_mergeSort`), and what the keys do not tell apart stays in its order
(`filter_foldr_mergeSort`). The store has two terms for a sort, whether its column is null and then the column, and together they
order records as a result orders rows (`OrderTerm.compareAll_terms`). Where the keys tell all rows apart only one list is sorted by
them, and that is how the computed route and the store come to one list (`sortRows_eq_map_mergeSort`).
-/

namespace EquityScreen

/-! ## Orders -/

section Orders

variable {α : Type} (cmp : α → α → Ordering) [Std.TransCmp cmp]

theorem order_swap (a b : α) : cmp a b = (cmp b a).swap := Std.OrientedCmp.eq_swap

theorem order_trans (a b c : α) (hab : (cmp a b).isLE = true) (hbc : (cmp b c).isLE = true) : (cmp a c).isLE = true :=
  Std.TransCmp.isLE_trans hab hbc

theorem order_total (a b : α) : ((cmp a b).isLE || (cmp b a).isLE) = true := by
  rw [order_swap cmp b a]
  cases cmp a b <;> rfl

/-- What comes neither before nor behind is equal. -/
theorem eq_of_isLE {a b : α} (hab : (cmp a b).isLE = true) (hba : (cmp b a).isLE = true) : cmp a b = .eq := by
  rw [order_swap cmp b a] at hba
  cases hcmp : cmp a b with
  | eq => rfl
  | gt => rw [hcmp] at hab; exact absurd hab Bool.false_ne_true
  | lt => rw [hcmp] at hba; exact absurd hba Bool.false_ne_true

/-- An order of what is seen of the elements is an order of the elements. -/
theorem transCmp_on {β : Type} (f : β → α) : Std.TransCmp fun a b => cmp (f a) (f b) where
  eq_swap := order_swap cmp _ _
  isLE_trans := order_trans cmp _ _ _

end Orders

/-! ## Orders of values -/

instance : Std.TransCmp Value.order where
  eq_swap {v w} := by
    cases v <;> cases w
    · exact order_swap (compare : Int → Int → Ordering) _ _
    · rfl
    · rfl
    · exact order_swap (compare : String → String → Ordering) _ _
  isLE_trans {u v w} huv hvw := by
    cases u <;> cases v <;> cases w
    · exact order_trans (compare : Int → Int → Ordering) _ _ _ huv hvw
    · rfl
    · exact absurd hvw Bool.false_ne_true
    · rfl
    · exact absurd huv Bool.false_ne_true
    · exact absurd huv Bool.false_ne_true
    · exact absurd hvw Bool.false_ne_true
    · exact order_trans (compare : String → String → Ordering) _ _ _ huv hvw

/-- Values of which neither comes before the other are equal. -/
theorem Value.eq_of_order {v w : Value} (h : v.order w = .eq) : v = w := by
  cases v with
  | number x =>
    cases w with
    | number y => rw [place_injective (compare_eq_iff_eq.1 h)]
    | text t => exact absurd h (by simp [Value.order])
  | text s =>
    cases w with
    | number y => exact absurd h (by simp [Value.order])
    | text t =>
      have hst : compare s t = .eq := h
      rw [Std.LawfulEqCmp.eq_of_compare hst]

instance (d : Direction) : Std.TransCmp fun v w => d.apply (Value.order v w) := by
  cases d with
  | asc => exact inferInstanceAs (Std.TransCmp Value.order)
  | desc =>
    have hswap : (fun v w => Direction.desc.apply (Value.order v w)) = fun v w => Value.order w v := by
      funext v w
      exact (order_swap Value.order w v).symm
    rw [hswap]
    infer_instance

/-- With absent values last it stays an order. -/
instance (d : Direction) : Std.TransCmp d.absentLast where
  eq_swap {v w} := by
    cases v <;> cases w
    · rfl
    · rfl
    · rfl
    · exact order_swap (fun v w => d.apply (Value.order v w)) _ _
  isLE_trans {u v w} huv hvw := by
    cases u <;> cases v <;> cases w
    · rfl
    · exact absurd hvw Bool.false_ne_true
    · exact absurd huv Bool.false_ne_true
    · exact absurd huv Bool.false_ne_true
    · rfl
    · exact absurd hvw Bool.false_ne_true
    · rfl
    · exact order_trans (fun v w => d.apply (Value.order v w)) _ _ _ huv hvw

/-! ## Sorts in turn -/

section Stable

variable {α : Type} (cmp : α → α → Ordering) [Std.TransCmp cmp]

/-- The elements of a class are equal. -/
theorem pairwise_class (a : α) (l : List α) : (l.filter (cmp a · == .eq)).Pairwise fun x y => cmp x y = .eq := by
  refine List.pairwise_of_forall_mem_list fun x hx y hy => ?_
  have hax : cmp a x = .eq := beq_iff_eq.1 (List.mem_filter.1 hx).2
  have hay : cmp a y = .eq := beq_iff_eq.1 (List.mem_filter.1 hy).2
  exact Std.TransCmp.eq_trans (Std.OrientedCmp.eq_symm hax) hay

/-- A list in another order that keeps some of its elements in theirs has these as they were. -/
theorem filter_eq_of_perm {p : α → Bool} {l l' : List α} (hperm : l'.Perm l) (hsub : (l.filter p).Sublist l') :
    l'.filter p = l.filter p := by
  have hfilter := hsub.filter p
  rw [List.filter_filter] at hfilter
  simp only [Bool.and_self] at hfilter
  exact (hfilter.eq_of_length (hperm.filter _).length_eq.symm).symm

/-- A sort keeps each class of equal elements as it was. -/
theorem filter_mergeSort (a : α) (l : List α) :
    (l.mergeSort fun x y => (cmp x y).isLE).filter (cmp a · == .eq) = l.filter (cmp a · == .eq) := by
  have hclass : (l.filter (cmp a · == .eq)).Pairwise fun x y => (cmp x y).isLE = true :=
    (pairwise_class cmp a l).imp fun hxy => by rw [hxy]; rfl
  have hsub := List.sublist_mergeSort (order_trans cmp) (order_total cmp) hclass List.filter_sublist
  exact filter_eq_of_perm (List.mergeSort_perm l _) hsub

/-- A sort of what is ordered by `R` is ordered by the sort, and by `R` where the sort finds elements equal. -/
theorem pairwise_mergeSort_stable {R : α → α → Prop} {l : List α} (h : l.Pairwise R) :
    (l.mergeSort fun x y => (cmp x y).isLE).Pairwise fun x y => cmp x y = .lt ∨ cmp x y = .eq ∧ R x y := by
  have hsorted := List.pairwise_mergeSort (order_trans cmp) (order_total cmp) l
  refine List.pairwise_iff_forall_sublist.2 fun {x y} hxy => ?_
  have hle := List.pairwise_iff_forall_sublist.1 hsorted hxy
  cases hcmp : cmp x y with
  | lt => exact .inl rfl
  | gt => exact absurd hle (by rw [hcmp]; exact Bool.false_ne_true)
  | eq =>
    have hclass := hxy.filter (cmp x · == .eq)
    have hself : cmp x x = .eq := Std.ReflCmp.compare_self
    rw [filter_mergeSort, List.filter_cons, List.filter_cons, List.filter_nil, hself, hcmp] at hclass
    exact .inr ⟨rfl, List.pairwise_iff_forall_sublist.1 (h.sublist List.filter_sublist) hclass⟩

/-- Ordered lists with the same classes of equal elements, each in the same order, are equal. -/
theorem eq_of_classes {l l' : List α} (h : l.Pairwise fun a b => (cmp a b).isLE = true)
    (h' : l'.Pairwise fun a b => (cmp a b).isLE = true)
    (hclass : ∀ a, l.filter (cmp a · == .eq) = l'.filter (cmp a · == .eq)) : l = l' := by
  have hself : ∀ a, (cmp a a == .eq) = true := fun a => beq_iff_eq.2 Std.ReflCmp.compare_self
  induction l generalizing l' with
  | nil =>
    cases l' with
    | nil => rfl
    | cons b rest' => exact absurd (hclass b) (by simp [hself])
  | cons a rest ih =>
    cases l' with
    | nil => exact absurd (hclass a) (by simp [hself])
    | cons b rest' =>
      obtain ⟨ha, hrest⟩ := List.pairwise_cons.1 h
      obtain ⟨hb, hrest'⟩ := List.pairwise_cons.1 h'
      -- Each head is among the elements of the other list, so neither comes before the other.
      have hmem : ∀ x, x ∈ a :: rest ↔ x ∈ b :: rest' := by
        intro x
        have hx := congrArg (x ∈ ·) (hclass x)
        simpa only [List.mem_filter, hself, and_true, eq_iff_iff] using hx
      have hle : ∀ {x y : α} {l : List α}, (∀ z ∈ l, (cmp x z).isLE = true) → y ∈ x :: l → (cmp x y).isLE = true := by
        intro x y l hall hy
        rcases List.mem_cons.1 hy with rfl | hy
        · rw [beq_iff_eq.1 (hself y)]
          rfl
        · exact hall y hy
      have hab : cmp a b = .eq :=
        eq_of_isLE cmp (hle ha ((hmem b).2 List.mem_cons_self)) (hle hb ((hmem a).1 List.mem_cons_self))
      have hheads := hclass a
      rw [List.filter_cons, List.filter_cons, if_pos (hself a), if_pos (beq_iff_eq.2 hab)] at hheads
      obtain ⟨rfl, -⟩ := List.cons.inj hheads
      refine congrArg _ (ih hrest hrest' fun x => ?_)
      have hx := hclass x
      rw [List.filter_cons, List.filter_cons] at hx
      split at hx
      · exact (List.cons.inj hx).2
      · exact hx

/-- A part of a list whose elements are all equal is a part of their class. -/
theorem sublist_of_classes {l l' tied : List α} (hsub : tied.Sublist l) (htied : tied.Pairwise fun a b => cmp a b = .eq)
    (hclass : ∀ a, l'.filter (cmp a · == .eq) = l.filter (cmp a · == .eq)) : tied.Sublist l' := by
  cases tied with
  | nil => exact List.nil_sublist l'
  | cons a rest =>
    have hall : ∀ x ∈ a :: rest, (cmp a x == .eq) = true := by
      intro x hx
      rcases List.mem_cons.1 hx with rfl | hx
      · exact beq_iff_eq.2 Std.ReflCmp.compare_self
      · exact beq_iff_eq.2 ((List.pairwise_cons.1 htied).1 x hx)
    have hfilter := hsub.filter (cmp a · == .eq)
    rw [List.filter_eq_self.2 hall, ← hclass a] at hfilter
    exact hfilter.trans List.filter_sublist

end Stable

/-- The order by several orders at once: the first that tells two elements apart counts. -/
def lexOrder {α : Type} (cmps : List (α → α → Ordering)) (a b : α) : Ordering :=
  cmps.foldr (fun cmp o => (cmp a b).then o) .eq

/-- Sorts in turn, from the last order to the first, sort by all orders at once. -/
theorem pairwise_foldr_mergeSort {α : Type} (cmps : List (α → α → Ordering)) (h : ∀ cmp ∈ cmps, Std.TransCmp cmp)
    (l : List α) : (cmps.foldr (fun cmp l => l.mergeSort fun a b => (cmp a b).isLE) l).Pairwise
      fun a b => (lexOrder cmps a b).isLE = true := by
  induction cmps with
  | nil => exact List.pairwise_of_forall fun _ _ => rfl
  | cons cmp rest ih =>
    have := h cmp List.mem_cons_self
    have hrest := ih fun c hc => h c (List.mem_cons_of_mem _ hc)
    refine (pairwise_mergeSort_stable cmp hrest).imp ?_
    rintro a b (hlt | ⟨heq, hle⟩)
    · show ((cmp a b).then (lexOrder rest a b)).isLE = true
      rw [hlt]
      rfl
    · show ((cmp a b).then (lexOrder rest a b)).isLE = true
      rw [heq]
      exact hle

/-- Sorts in turn only change the order. -/
theorem perm_foldr_mergeSort {α : Type} (cmps : List (α → α → Ordering)) (l : List α) :
    (cmps.foldr (fun cmp l => l.mergeSort fun a b => (cmp a b).isLE) l).Perm l := by
  induction cmps with
  | nil => exact .refl l
  | cons cmp rest ih => exact (List.mergeSort_perm _ _).trans ih

/-- Sorts in turn keep each class of elements that all orders find equal as it was. -/
theorem filter_foldr_mergeSort {α : Type} (cmps : List (α → α → Ordering)) (h : ∀ cmp ∈ cmps, Std.TransCmp cmp) (a : α)
    (l : List α) : (cmps.foldr (fun cmp l => l.mergeSort fun a b => (cmp a b).isLE) l).filter (lexOrder cmps a · == .eq) =
      l.filter (lexOrder cmps a · == .eq) := by
  induction cmps with
  | nil => rfl
  | cons cmp rest ih =>
    have := h cmp List.mem_cons_self
    have hboth : ∀ l : List α, l.filter (lexOrder (cmp :: rest) a · == .eq) =
        (l.filter (cmp a · == .eq)).filter (lexOrder rest a · == .eq) := by
      intro l
      rw [List.filter_filter]
      refine List.filter_congr fun x _ => ?_
      show ((cmp a x).then (lexOrder rest a x) == .eq) = _
      cases cmp a x <;> cases lexOrder rest a x <;> rfl
    rw [hboth, hboth, List.foldr_cons, filter_mergeSort, List.filter_comm, ih fun c hc => h c (List.mem_cons_of_mem _ hc),
      List.filter_comm]

/-- Orders at once are an order. -/
theorem transCmp_lexOrder {α : Type} {cmps : List (α → α → Ordering)} (h : ∀ cmp ∈ cmps, Std.TransCmp cmp) :
    Std.TransCmp (lexOrder cmps) := by
  induction cmps with
  | nil => exact { eq_swap := rfl, isLE_trans := fun _ _ => rfl }
  | cons cmp rest ih =>
    have := h cmp List.mem_cons_self
    have := ih fun c hc => h c (List.mem_cons_of_mem _ hc)
    exact inferInstanceAs (Std.TransCmp (compareLex cmp (lexOrder rest)))

/-- Two orders at once are the first list of orders and then the second. -/
theorem lexOrder_append {α : Type} (first second : List (α → α → Ordering)) (a b : α) :
    lexOrder (first ++ second) a b = (lexOrder first a b).then (lexOrder second a b) := by
  induction first with
  | nil => rfl
  | cons cmp rest ih =>
    show (cmp a b).then (lexOrder (rest ++ second) a b) = ((cmp a b).then (lexOrder rest a b)).then _
    rw [ih]
    cases cmp a b <;> rfl

/-- Elements that all orders at once find equal each of them finds equal. -/
theorem eq_of_lexOrder {α : Type} {cmps : List (α → α → Ordering)} {a b : α} (h : lexOrder cmps a b = .eq) :
    ∀ cmp ∈ cmps, cmp a b = .eq := by
  induction cmps with
  | nil => intro cmp hcmp; exact absurd hcmp (by simp)
  | cons first rest ih =>
    have hboth : first a b = .eq ∧ lexOrder rest a b = .eq := Ordering.then_eq_eq.1 h
    intro cmp hcmp
    rcases List.mem_cons.1 hcmp with rfl | hcmp
    · exact hboth.1
    · exact ih hboth.2 cmp hcmp

/-! ## Rows and records -/

instance (k : SortKey) : Std.TransCmp (Row.compareBy k) :=
  transCmp_on k.direction.absentLast (Row.sortValue? · k.field)

/-- The keys that a screen sorts by before the symbol. -/
def givenSort (keys : List SortKey) : List SortKey :=
  if keys.isEmpty then [⟨defaultSortField, .desc⟩] else keys

/-- A result is sorted by the given keys, and by symbol unless that is among them. -/
theorem effectiveSort_eq (keys : List SortKey) :
    effectiveSort keys =
      if (givenSort keys).any (·.field == "symbol") then givenSort keys else givenSort keys ++ [⟨"symbol", .asc⟩] :=
  rfl

/-- The sorts of the store are those of the keys a screen sorts by. -/
theorem columnSorts_eq (keys : List SortKey) :
    columnSorts keys = (givenSort (keys.map SortKey.normalize)).map fun k => ⟨k.field, k.direction⟩ := by
  cases keys with
  | nil => rfl
  | cons k rest => simp [columnSorts, givenSort, SortKey.normalize]

/-- The sorts stand for the keys, each for its own: it has the column of its field and its direction. -/
def SortsOf (keys : List SortKey) (sorts : List (ColumnSort Column)) : Prop :=
  List.Forall₂ (fun k s => Column.ofName? k.field = some s.column ∧ k.direction = s.direction) keys sorts

/-- Keys of stored fields have sorts that stand for them. -/
theorem exists_sorts {keys : List SortKey} (h : ∀ k ∈ keys, ∃ c, Column.ofName? k.field = some c) :
    ∃ sorts, (keys.map fun k => (⟨k.field, k.direction⟩ : ColumnSort String)).mapM ColumnSort.check = .ok sorts ∧
      SortsOf keys sorts := by
  induction keys with
  | nil => exact ⟨[], rfl, .nil⟩
  | cons k rest ih =>
    obtain ⟨sorts, hcheck, hsorts⟩ := ih fun k hk => h k (List.mem_cons_of_mem _ hk)
    obtain ⟨c, hc⟩ := h k List.mem_cons_self
    refine ⟨⟨c, k.direction⟩ :: sorts, ?_, .cons ⟨hc, rfl⟩ hsorts⟩
    rw [List.map_cons, List.mapM_cons, ColumnSort.check, Column.check_of_ofName? hc, hcheck]
    rfl

/-! ## Terms of the store -/

/-- The terms of a sort: whether its column is null, and then the column in the direction of the sort. -/
def ColumnSort.terms (s : ColumnSort Column) : List OrderTerm :=
  [.isNull s.column, match s.direction with
    | .asc => .ascending s.column
    | .desc => .descending s.column]

/-- The terms of sorts in turn, and the symbol at the end. -/
def orderTerms (sorts : List (ColumnSort Column)) : List OrderTerm :=
  sorts.flatMap ColumnSort.terms ++ [.ascending .symbol]

theorem orderTerms_cons (s : ColumnSort Column) (sorts : List (ColumnSort Column)) :
    orderTerms (s :: sorts) = s.terms ++ orderTerms sorts := by
  rw [orderTerms, List.flatMap_cons, List.append_assoc, orderTerms]

/-- A text is compared by its characters. -/
theorem compare_eq_lt_iff {s t : String} : compare s t = .lt ↔ s < t := by
  show compareOfLessAndEq s t = .lt ↔ s < t
  exact compareOfLessAndEq_eq_lt

/-- A value is above another where that one is below it. -/
theorem Relation.gt_holds (v w : Value) :
    Relation.gt.holds (.ofValue v) (.ofValue w) = Relation.lt.holds (.ofValue w) (.ofValue v) := by
  cases v <;> cases w <;> rfl

/-- Of the numbers that the table keeps, and of texts, the store takes that for less which a result puts first. -/
theorem Relation.lt_holds_iff {v w : Value} (hv : ∀ x, v = .number x → IsTame x) (hw : ∀ y, w = .number y → IsTame y) :
    Relation.lt.holds (.ofValue v) (.ofValue w) = true ↔ v.order w = .lt := by
  cases v with
  | number x =>
    cases w with
    | number y =>
      show decide (x < y) = true ↔ compare (place x) (place y) = .lt
      rw [decide_eq_true_iff, lt_iff_place_lt (hv x rfl) (hw y rfl), compare_lt_iff_lt]
    | text t => exact iff_of_true rfl rfl
  | text s =>
    cases w with
    | number y => exact iff_of_false Bool.false_ne_true nofun
    | text t =>
      show decide (s < t) = true ↔ compare s t = .lt
      rw [decide_eq_true_iff, compare_eq_lt_iff]

namespace OrderTerm

/-- Values whose numbers are ones the table keeps are ordered by the store as a result orders them. -/
theorem cells_some {v w : Value} (hv : ∀ x, v = .number x → IsTame x) (hw : ∀ y, w = .number y → IsTame y) :
    cells (some v) (some w) = v.order w := by
  have hback := Relation.lt_holds_iff hw hv
  rw [order_swap Value.order w v, Ordering.swap_eq_lt] at hback
  rw [cells, Relation.gt_holds]
  simp only [Relation.lt_holds_iff hv hw, hback]
  cases v.order w <;> rfl

variable {a b : Record}

/-- Terms one after another are an order by several orders at once. -/
theorem compareAll_append (first second : List OrderTerm) :
    compareAll (first ++ second) a b = (compareAll first a b).then (compareAll second a b) := by
  have hlex : ∀ terms, compareAll terms a b = lexOrder (terms.map fun t a b => t.compare a b) a b := by
    intro terms
    rw [compareAll, lexOrder, List.foldr_map]
  rw [hlex, List.map_append, lexOrder_append, ← hlex, ← hlex]

/-- The two terms of a sort put what has no value last, whatever the direction: the first sets apart what is null, and the second
decides between values. -/
theorem compareAll_terms (ha : a.Kept) (hb : b.Kept) (s : ColumnSort Column) :
    compareAll s.terms a b = s.direction.absentLast (a.cell? s.column) (b.cell? s.column) := by
  obtain ⟨c, d⟩ := s
  simp only [ColumnSort.terms, compareAll, List.foldr_cons, List.foldr_nil, OrderTerm.compare]
  cases hv : a.cell? c with
  | none =>
    cases hw : b.cell? c with
    | none => cases d <;> simp [hv, hw, cells, Direction.absentLast, Ordering.then]
    | some w => rfl
  | some v =>
    cases hw : b.cell? c with
    | none => rfl
    | some w =>
      have htv : ∀ x, v = .number x → IsTame x := fun x hx => Record.isTame_of_cell ha (hx ▸ hv)
      have htw : ∀ y, w = .number y → IsTame y := fun y hy => Record.isTame_of_cell hb (hy ▸ hw)
      cases d with
      | asc =>
        simp only [hv, hw, cells_some htv htw]
        show (v.order w).then .eq = v.order w
        cases v.order w <;> rfl
      | desc =>
        simp only [hv, hw, cells_some htw htv]
        show (w.order v).then .eq = (v.order w).swap
        rw [order_swap Value.order w v]
        cases v.order w <;> rfl

end OrderTerm

/-- The order of two records whose rows are ordered by keys, and then by symbol. -/
def Record.compareRows (keys : List SortKey) (a b : Record) : Ordering :=
  (lexOrder (keys.map Row.compareBy) a.row b.row).then (compare a.symbol b.symbol)

/-- The terms of the store order kept records as their rows are ordered by the keys that the sorts stand for. -/
theorem compareAll_orderTerms {keys : List SortKey} {sorts : List (ColumnSort Column)} (h : SortsOf keys sorts) {a b : Record}
    (ha : a.Kept) (hb : b.Kept) : OrderTerm.compareAll (orderTerms sorts) a b = Record.compareRows keys a b := by
  induction h with
  | nil =>
    show (OrderTerm.cells (some (.text a.symbol)) (some (.text b.symbol))).then .eq = compare a.symbol b.symbol
    rw [OrderTerm.cells_some (fun _ hx => absurd hx (by simp)) (fun _ hy => absurd hy (by simp))]
    show (compare a.symbol b.symbol).then .eq = _
    cases compare a.symbol b.symbol <;> rfl
  | cons hk _ ih =>
    rename_i k s keys sorts hrest
    have hfirst : Row.compareBy k a.row b.row = s.direction.absentLast (a.cell? s.column) (b.cell? s.column) := by
      rw [Row.compareBy, Record.sortValue?_row ha hk.1, Record.sortValue?_row hb hk.1, hk.2]
    show _ = ((Row.compareBy k a.row b.row).then (lexOrder (keys.map Row.compareBy) a.row b.row)).then _
    rw [orderTerms_cons, OrderTerm.compareAll_append, OrderTerm.compareAll_terms ha hb, ih, hfirst, Record.compareRows]
    cases s.direction.absentLast (a.cell? s.column) (b.cell? s.column) <;> rfl

/-- Rows that the keys of a result do not tell apart have one symbol. -/
theorem symbol_eq_of_lexOrder {keys : List SortKey} {a b : Row}
    (h : lexOrder ((effectiveSort keys).map Row.compareBy) a b = .eq) : a.symbol = b.symbol := by
  obtain ⟨k, hk, hfield⟩ : ∃ k ∈ effectiveSort keys, k.field = "symbol" := by
    rw [effectiveSort_eq]
    split
    · rename_i hany
      obtain ⟨k, hk, hfield⟩ := List.any_eq_true.1 hany
      exact ⟨k, hk, beq_iff_eq.1 hfield⟩
    · exact ⟨⟨"symbol", .asc⟩, by simp, rfl⟩
  have hkey := eq_of_lexOrder h _ (List.mem_map_of_mem hk)
  rw [Row.compareBy, Row.sortValue?, Row.sortValue?, if_pos hfield, if_pos hfield] at hkey
  have horder : (Value.text a.symbol).order (.text b.symbol) = .eq := by
    cases hd : k.direction with
    | asc => rwa [hd] at hkey
    | desc =>
      rw [hd] at hkey
      exact Ordering.swap_eq_eq.1 hkey
  exact Value.text.inj (Value.eq_of_order horder)

/-- What comes first by the given keys and by symbol comes first in a result. -/
theorem isLE_lexOrder_of_compareRows {keys : List SortKey} {a b : Record}
    (hle : (Record.compareRows (givenSort keys) a b).isLE = true) :
    (lexOrder ((effectiveSort keys).map Row.compareBy) a.row b.row).isLE = true := by
  rw [Record.compareRows] at hle
  have heff : effectiveSort keys = givenSort keys ∨ effectiveSort keys = givenSort keys ++ [⟨"symbol", .asc⟩] := by
    rw [effectiveSort_eq]
    exact ite_eq_or_eq _ _ _
  rcases heff with heff | heff <;> rw [heff]
  · cases hlex : lexOrder ((givenSort keys).map Row.compareBy) a.row b.row with
    | lt => rfl
    | eq => rfl
    | gt => rw [hlex] at hle; exact absurd hle Bool.false_ne_true
  · have hlast : lexOrder [Row.compareBy ⟨"symbol", .asc⟩] a.row b.row = compare a.symbol b.symbol := by
      show (compare a.symbol b.symbol).then .eq = _
      cases compare a.symbol b.symbol <;> rfl
    rw [List.map_append, lexOrder_append, List.map_cons, List.map_nil, hlast]
    exact hle

/-- Rows are sorted by all keys in turn, the last key first. -/
theorem sortRows_eq_foldr (keys : List SortKey) (rows : List Row) :
    sortRows keys rows = (keys.map Row.compareBy).foldr (fun cmp rows => rows.mergeSort fun a b => (cmp a b).isLE) rows := by
  rw [List.foldr_map]
  rfl

theorem transCmp_of_mem_keys {keys : List SortKey} : ∀ cmp ∈ keys.map Row.compareBy, Std.TransCmp cmp := by
  intro cmp hcmp
  obtain ⟨k, -, rfl⟩ := List.mem_map.1 hcmp
  infer_instance

instance (keys : List SortKey) : Std.TransCmp (lexOrder (keys.map Row.compareBy)) :=
  transCmp_lexOrder transCmp_of_mem_keys

/-- Rows sorted by all keys in turn are in the order of all keys at once. -/
theorem pairwise_sortRows (keys : List SortKey) (rows : List Row) :
    (sortRows keys rows).Pairwise fun a b => (lexOrder (keys.map Row.compareBy) a b).isLE = true := by
  rw [sortRows_eq_foldr]
  exact pairwise_foldr_mergeSort _ transCmp_of_mem_keys rows

/-- Sorting rows changes only their order. -/
theorem perm_sortRows (keys : List SortKey) (rows : List Row) : (sortRows keys rows).Perm rows := by
  rw [sortRows_eq_foldr]
  exact perm_foldr_mergeSort _ rows

instance (keys : List SortKey) : Std.TransCmp (Record.compareRows keys) := by
  have := transCmp_on (lexOrder (keys.map Row.compareBy)) Record.row
  have := transCmp_on (compare : String → String → Ordering) Record.symbol
  exact inferInstanceAs (Std.TransCmp (compareLex (fun a b => lexOrder (keys.map Row.compareBy) (Record.row a) (Record.row b))
    fun a b => compare (Record.symbol a) (Record.symbol b)))

/-- Kept records are sorted by the terms of the store as their rows are by the keys. -/
theorem mergeSort_orderTerms {keys : List SortKey} {sorts : List (ColumnSort Column)} (h : SortsOf keys sorts)
    {rs : List Record} (hkept : ∀ r ∈ rs, r.Kept) :
    (rs.mergeSort fun a b => (OrderTerm.compareAll (orderTerms sorts) a b).isLE) =
      rs.mergeSort fun a b => (Record.compareRows keys a b).isLE := by
  simpa using List.map_mergeSort (f := id) fun a ha b hb =>
    congrArg Ordering.isLE (compareAll_orderTerms h (hkept a ha) (hkept b hb))

/-- Records of different symbols are sorted by the store into the rows that a result has of them. -/
theorem sortRows_eq_map_mergeSort {keys : List SortKey} {sorts : List (ColumnSort Column)} (h : SortsOf (givenSort keys) sorts)
    {rs : List Record} (hkept : ∀ r ∈ rs, r.Kept) (hsymbols : (rs.map (·.symbol)).Nodup) {rows : List Row}
    (hrows : rows.Perm (rs.map Record.row)) :
    sortRows (effectiveSort keys) rows =
      (rs.mergeSort fun a b => (OrderTerm.compareAll (orderTerms sorts) a b).isLE).map Record.row := by
  rw [mergeSort_orderTerms h hkept]
  have hperm := perm_sortRows (effectiveSort keys) rows
  have hstore := List.mergeSort_perm rs fun a b => (Record.compareRows (givenSort keys) a b).isLE
  -- Both lists are sorted by all keys at once, and that order tells any two of these rows apart.
  refine @List.Perm.eq_of_pairwise _ (fun a b => (lexOrder ((effectiveSort keys).map Row.compareBy) a b).isLE) _ _ ?_ ?_ ?_ ?_
  · intro a b ha hb hab hba
    obtain ⟨r, hr, rfl⟩ := List.mem_map.1 (hrows.mem_iff.1 (hperm.mem_iff.1 ha))
    obtain ⟨q, hq, rfl⟩ := List.mem_map.1 hb
    have hlex : lexOrder ((effectiveSort keys).map Row.compareBy) r.row q.row = .eq :=
      eq_of_isLE _ hab hba
    rw [List.inj_on_of_nodup_map hsymbols hr (hstore.mem_iff.1 hq) (symbol_eq_of_lexOrder hlex)]
  · exact pairwise_sortRows _ rows
  · rw [List.pairwise_map]
    exact (List.pairwise_mergeSort (order_trans _) (order_total _) rs).imp isLE_lexOrder_of_compareRows
  · exact (hperm.trans hrows).trans (hstore.map _).symm

end EquityScreen
