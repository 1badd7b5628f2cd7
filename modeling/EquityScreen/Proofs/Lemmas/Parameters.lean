import EquityScreen.Proofs.Lemmas.Doubles
import EquityScreen.Proofs.Lemmas.Specs

/-!
# Parameters and their faults

A parameter has to be a period, a factor or a smoothing; one that is absent takes the usual value. A specification is an
indicator unless one of its parameters is out of range, and its error names the first that is (`Spec.readsAs_checked`).
Specifications that are the same are the same indicator (`Spec.checked_of_same`), although one may hold `0.0` where the other
holds `-0.0`: no parameter may be zero.
-/

namespace EquityScreen

/-- What a parameter has to be. -/
inductive ParameterKind where
  | period | factor | smoothing

/-- The values that a parameter may have. -/
def ParameterKind.accepts : ParameterKind → Value → Bool
  | .period, .number x => (wholeNumber? x).any (1 ≤ ·)
  | .factor, .number x => x.isFinite && 0.0 < x
  | .smoothing, .text t => (RsiMethod.ofName? (Text.foldAscii t)).isSome
  | _, _ => false

/-- The parameters of an indicator, in the order in which they are checked. -/
def IndicatorName.parameters : IndicatorName → List (String × ParameterKind)
  | .ma | .ema | .atr => [("n", .period)]
  | .macd => [("fast", .period), ("slow", .period), ("signal", .period)]
  | .rsi => [("n", .period), ("method", .smoothing)]
  | .boll => [("n", .period), ("k", .factor)]
  | .kdj => [("n", .period), ("m1", .factor), ("m2", .factor)]

namespace Spec

variable {α β : Type}

/-! ## The first parameter out of range -/

/-- A parameter with its value, if it has one that it may not have. -/
def outOfRange? (s : Spec) (p : String × ParameterKind) : Option (String × Value) :=
  (s.params.get? p.1).bind fun v => if p.2.accepts v then none else some (p.1, v)

/-- The first parameter of a specification that is out of range, with its value. -/
def fault? (s : Spec) : Option (String × Value) := s.name.parameters.findSome? s.outOfRange?

/-- An answer is had where no parameter is out of range, and else is the error of the first that is. -/
def ReadsAs (s : Spec) (ps : List (String × ParameterKind)) (answer : Except IndicatorError α) : Prop :=
  match ps.findSome? s.outOfRange? with
  | none => ∃ a, answer = .ok a
  | some (key, v) => answer = .error (s.invalid key v)

theorem readsAs_pure (s : Spec) (a : α) : s.ReadsAs [] (pure a : Except IndicatorError α) := ⟨a, rfl⟩

/-- One parameter is read and then the others. -/
theorem ReadsAs.bind {s : Spec} {p : String × ParameterKind} {x : Except IndicatorError α} (hx : s.ReadsAs [p] x)
    {ps : List (String × ParameterKind)} {f : α → Except IndicatorError β} (hf : ∀ a, s.ReadsAs ps (f a)) :
    s.ReadsAs (p :: ps) (x >>= f) := by
  unfold ReadsAs at hx ⊢
  rw [List.findSome?_cons] at hx ⊢
  cases hp : s.outOfRange? p with
  | none =>
    rw [hp] at hx
    obtain ⟨a, rfl⟩ := hx
    exact hf a
  | some fault =>
    rw [hp] at hx
    subst hx
    rfl

theorem readsAs_period (s : Spec) (key : String) (usual : Nat) : s.ReadsAs [(key, .period)] (s.period key usual) := by
  unfold ReadsAs period
  rw [List.findSome?_singleton, outOfRange?]
  cases s.params.get? key with
  | none => exact ⟨usual, rfl⟩
  | some v =>
    cases v with
    | text t => rfl
    | number x =>
      cases hx : wholeNumber? x with
      | none => simp [ParameterKind.accepts, hx]
      | some n => by_cases hn : 1 ≤ n <;> simp [ParameterKind.accepts, hx, hn]

theorem readsAs_factor (s : Spec) (key : String) (usual : Float) : s.ReadsAs [(key, .factor)] (s.factor key usual) := by
  unfold ReadsAs factor
  rw [List.findSome?_singleton, outOfRange?]
  cases s.params.get? key with
  | none => exact ⟨usual, rfl⟩
  | some v =>
    cases v with
    | text t => rfl
    | number x => by_cases hx : (x.isFinite && decide (0.0 < x)) = true <;> simp [ParameterKind.accepts, hx]

theorem readsAs_method (s : Spec) : s.ReadsAs [("method", .smoothing)] s.method := by
  unfold ReadsAs method
  rw [List.findSome?_singleton, outOfRange?]
  cases s.params.get? "method" with
  | none => exact ⟨.ema, rfl⟩
  | some v =>
    cases v with
    | number x => rfl
    | text t => cases ht : RsiMethod.ofName? (Text.foldAscii t) <;> simp [ParameterKind.accepts, ht]

/-- A specification is an indicator unless a parameter is out of range, and its error names the first that is. -/
theorem readsAs_checked (s : Spec) : s.ReadsAs s.name.parameters s.checked := by
  unfold checked
  cases s.name with
  | ma | ema | atr => exact (s.readsAs_period _ _).bind fun n => s.readsAs_pure _
  | macd =>
    refine (s.readsAs_period _ _).bind fun fast => ?_
    refine (s.readsAs_period _ _).bind fun slow => ?_
    exact (s.readsAs_period _ _).bind fun signal => s.readsAs_pure _
  | rsi =>
    refine (s.readsAs_period _ _).bind fun n => ?_
    exact s.readsAs_method.bind fun m => s.readsAs_pure _
  | boll =>
    refine (s.readsAs_period _ _).bind fun n => ?_
    exact (s.readsAs_factor _ _).bind fun k => s.readsAs_pure _
  | kdj =>
    refine (s.readsAs_period _ _).bind fun n => ?_
    refine (s.readsAs_factor _ _).bind fun m1 => ?_
    exact (s.readsAs_factor _ _).bind fun m2 => s.readsAs_pure _

theorem exists_checked_iff {s : Spec} : (∃ i, s.checked = .ok i) ↔ s.fault? = none := by
  have h := s.readsAs_checked
  unfold ReadsAs at h
  rw [fault?]
  cases hfault : s.name.parameters.findSome? s.outOfRange? with
  | none =>
    rw [hfault] at h
    exact ⟨fun _ => rfl, fun _ => h⟩
  | some fault =>
    rw [hfault] at h
    exact ⟨fun ⟨i, hi⟩ => absurd (h.symm.trans hi) nofun, nofun⟩

theorem checked_of_fault {s : Spec} {key : String} {v : Value} (h : s.fault? = some (key, v)) :
    s.checked = .error (s.invalid key v) := by
  have hread := s.readsAs_checked
  unfold ReadsAs at hread
  rw [fault?] at h
  rwa [h] at hread

/-! ## Specifications that are the same -/

variable {s t : Spec}

/-- Specifications that are the same have the same name. -/
theorem name_of_same (h : s.same t = true) : t.name = s.name := by
  simp only [same, Bool.and_eq_true] at h
  exact (beq_iff_eq.1 h.1.1).symm

/-- The parameters of specifications that are the same are the same one by one. -/
theorem get?_of_same (h : s.same t = true) (key : String) :
    Option.Rel (fun v w => v.same w = true) (s.params.get? key) (t.params.get? key) := by
  simp only [same, Bool.and_eq_true] at h
  obtain ⟨⟨-, hlength⟩, hall⟩ := h
  have hentries : List.Forall₂ (fun p q : String × Value => p.1 = q.1 ∧ p.2.same q.2 = true) s.params.entries
      t.params.entries := by
    refine List.forall₂_iff_zip.2 ⟨beq_iff_eq.1 hlength, fun {p q} hpq => ?_⟩
    have hpair := List.all_eq_true.1 hall _ hpq
    rw [Bool.and_eq_true, beq_iff_eq] at hpair
    exact hpair
  unfold Named.get?
  generalize s.params.entries = ps at hentries
  generalize t.params.entries = qs at hentries
  induction hentries with
  | nil => exact .none
  | @cons p q ps qs hpq _ ih =>
    rw [List.find?_cons, List.find?_cons, ← hpq.1]
    cases p.1 == key with
    | true => exact .some hpq.2
    | false => exact ih

/-- A value that a parameter may have is the same only as itself. -/
theorem eq_of_same_of_accepts {kind : ParameterKind} {v w : Value} (hv : kind.accepts v = true) (h : v.same w = true) :
    w = v := by
  have hzero : kind.accepts (.number 0) = false ∧ kind.accepts (.number (-0)) = false := by
    cases kind <;> decide +kernel
  cases v with
  | text t =>
    cases w with
    | text u => rw [beq_iff_eq.1 h]
    | number y => exact absurd h nofun
  | number x =>
    cases w with
    | text u => exact absurd h nofun
    | number y =>
      obtain ⟨-, -, heq | ⟨rfl, -⟩ | ⟨rfl, -⟩⟩ := Float.beq_iff_ne_nan_and_eq.1 h
      · rw [heq]
      · rw [hzero.1] at hv
        exact absurd hv nofun
      · rw [hzero.2] at hv
        exact absurd hv nofun

/-- What a specification is depends on its name and on the parameters that are checked. -/
theorem checked_congr (hname : t.name = s.name)
    (h : ∀ p ∈ s.name.parameters, t.params.get? p.1 = s.params.get? p.1) : t.checked = s.checked := by
  have hperiod (key : String) (usual : Nat) (hkey : (key, ParameterKind.period) ∈ s.name.parameters) :
      t.period key usual = s.period key usual := by
    unfold period invalid
    rw [hname, h _ hkey]
  have hfactor (key : String) (usual : Float) (hkey : (key, ParameterKind.factor) ∈ s.name.parameters) :
      t.factor key usual = s.factor key usual := by
    unfold factor invalid
    rw [hname, h _ hkey]
  have hmethod (hkey : ("method", ParameterKind.smoothing) ∈ s.name.parameters) : t.method = s.method := by
    unfold method invalid
    rw [hname, h _ hkey]
  unfold checked
  rw [hname]
  cases hs : s.name with
  | ma | ema | atr =>
    rw [hs] at hperiod
    simp only [hperiod "n" _ (by simp [IndicatorName.parameters])]
  | macd =>
    rw [hs] at hperiod
    simp only [hperiod "fast" _ (by simp [IndicatorName.parameters]), hperiod "slow" _ (by simp [IndicatorName.parameters]),
      hperiod "signal" _ (by simp [IndicatorName.parameters])]
  | rsi =>
    rw [hs] at hperiod hmethod
    simp only [hperiod "n" _ (by simp [IndicatorName.parameters]), hmethod (by simp [IndicatorName.parameters])]
  | boll =>
    rw [hs] at hperiod hfactor
    simp only [hperiod "n" _ (by simp [IndicatorName.parameters]), hfactor "k" _ (by simp [IndicatorName.parameters])]
  | kdj =>
    rw [hs] at hperiod hfactor
    simp only [hperiod "n" _ (by simp [IndicatorName.parameters]), hfactor "m1" _ (by simp [IndicatorName.parameters]),
      hfactor "m2" _ (by simp [IndicatorName.parameters])]

/-- A specification that is the same as one that is an indicator is this indicator. -/
theorem checked_of_same (h : s.same t = true) {i : Indicator} (hi : s.checked = .ok i) : t.checked = .ok i := by
  have hfault := List.findSome?_eq_none_iff.1 (exists_checked_iff.1 ⟨i, hi⟩)
  rw [← hi]
  refine checked_congr (name_of_same h) fun p hp => ?_
  have hinRange := hfault p hp
  have hrel := get?_of_same h p.1
  rw [outOfRange?] at hinRange
  generalize s.params.get? p.1 = v? at hrel hinRange
  generalize t.params.get? p.1 = w? at hrel
  cases hrel with
  | none => rfl
  | @some v w hvw =>
      have haccepts : p.2.accepts v = true := by
        by_contra hrefused
        rw [Option.bind_some, if_neg hrefused] at hinRange
        exact absurd hinRange nofun
      rw [eq_of_same_of_accepts haccepts hvw]

end Spec

end EquityScreen
