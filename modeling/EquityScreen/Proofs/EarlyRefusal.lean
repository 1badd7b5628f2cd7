import EquityScreen.Proofs.Lemmas.Answers
import EquityScreen.Proofs.Lemmas.Conditions
import EquityScreen.Proofs.Lemmas.Runs

/-!
# Refusal before any question

A request is checked before anything is asked of a source. One with issues is refused with all of them, and the run ends
there, without a call (`Screener.run_of_issues`). What is accepted can still fail, but never with issues, whatever the sources
answer (`Screener.run_value_eq_invalid_iff`). So the issues a client is refused with are those that the same condition is
reported with beforehand (`refused_before_any_call`).
-/

namespace EquityScreen
namespace Screener

variable (s : Screener) (today : Date) (q : Request)

/-- A request with issues is refused with them, and no source is asked. -/
theorem run_of_issues (h : s.issuesOf q ≠ []) : (s.run today q).run = ⟨.error (.invalid (s.issuesOf q)), []⟩ := by
  unfold issuesOf at h ⊢
  unfold run
  dsimp only
  cases hissues : s.registry.check q.conditions.normalize (q.orderBy.map SortKey.normalize) with
  | nil => exact absurd hissues h
  | cons i rest => rfl

/-- What the store is asked fails for the shape of the condition or in the store. -/
theorem pushedAnswer_ne_invalid (issues : List Issue) : s.pushedAnswer q ≠ .error (.invalid issues) := by
  intro h
  rcases bind_eq_error h with hfilter | ⟨f, -, h⟩
  · obtain ⟨e, -, he⟩ := mapError_eq_error hfilter
    simp at he
  · rcases bind_eq_error h with hquery | ⟨found, -, h⟩
    · obtain ⟨e, -, he⟩ := mapError_eq_error hquery
      simp at he
    · exact nomatch h

/-- What is computed fails where the candidates cannot be had. -/
theorem computedAnswer_ne_invalid (issues : List Issue) : s.computedAnswer today q ≠ .error (.invalid issues) := by
  intro h
  rcases bind_eq_error h with hcandidates | ⟨candidates, -, h⟩
  · obtain ⟨e, -, he⟩ := mapError_eq_error hcandidates
    simp at he
  · exact nomatch h

/-- A run ends with issues when the request has some, and then with these. -/
theorem run_value_eq_invalid_iff (issues : List Issue) :
    (s.run today q).run.value = .error (.invalid issues) ↔ s.issuesOf q ≠ [] ∧ issues = s.issuesOf q := by
  constructor
  · intro h
    by_cases hissues : s.issuesOf q = []
    · cases hrouting : s.routingOf q with
      | pushdown => exact absurd ((run_of_pushdown hissues hrouting).symm.trans h) (s.pushedAnswer_ne_invalid q issues)
      | computed => exact absurd ((run_of_computed hissues hrouting).symm.trans h) (s.computedAnswer_ne_invalid today q issues)
    · rw [s.run_of_issues today q hissues] at h
      exact ⟨hissues, (ScreenError.invalid.inj (Except.error.inj h)).symm⟩
  · rintro ⟨hissues, rfl⟩
    rw [s.run_of_issues today q hissues]

end Screener

/-- A request has an issue when a comparison of its condition has a reason against it or a sort key has an unknown field. -/
theorem Registry.check_ne_nil_iff (r : Registry) (c : Condition) (keys : List SortKey) :
    r.check c keys ≠ [] ↔
      (∃ l ∈ c.leaves, ∃ reason, r.leafReason? l = some reason) ∨ ∃ k ∈ keys, r.resolve? k.field = none := by
  rw [check, ne_eq, List.append_eq_nil_iff, issues_eq_nil_iff, sortIssues_eq_nil_iff]
  simp only [Option.eq_none_iff_forall_ne_some, Option.isSome_iff_exists]
  grind

/-- A request is refused before any source is asked. Whatever the sources answer, a run ends with issues just when the
condition or the sort keys, under the names of the registry, are rejected; the issues are those of the condition and after
them those of the sort keys, and no call was made, so no memory is asked for either. A condition is rejected for one of its
comparisons and sort keys for one of their fields. Without sort keys a run is refused just when the report on its condition is
not valid, and with the issues of the report. -/
theorem refused_before_any_call (s : Screener) (today : Date) (q : Request) :
    let c := q.conditions.normalize
    let keys := q.orderBy.map SortKey.normalize
    let answer := (s.run today q).run
    let rejected := s.registry.issues c ≠ [] ∨ s.registry.sortIssues keys ≠ []
    (∀ issues, answer.value = .error (.invalid issues) ↔
        rejected ∧ issues = s.registry.issues c ++ s.registry.sortIssues keys) ∧
      (rejected → answer.calls = [] ∧ s.exceedsMemory today q = false) ∧
      (rejected ↔ (∃ l ∈ c.leaves, ∃ reason, s.registry.leafReason? l = some reason) ∨
        ∃ k ∈ keys, s.registry.resolve? k.field = none) ∧
      (q.orderBy = [] →
        ((∃ issues, answer.value = .error (.invalid issues)) ↔ (s.validate q.conditions).valid = false) ∧
          ∀ issues, answer.value = .error (.invalid issues) → issues = (s.validate q.conditions).issues) := by
  intro c keys answer rejected
  have hrejected : rejected ↔ s.issuesOf q ≠ [] := by
    show s.registry.issues c ≠ [] ∨ s.registry.sortIssues keys ≠ [] ↔ s.registry.issues c ++ s.registry.sortIssues keys ≠ []
    rw [ne_eq, ne_eq, ne_eq, List.append_eq_nil_iff]
    exact Decidable.not_and_iff_or_not.symm
  refine ⟨?_, ?_, ?_, ?_⟩
  · intro issues
    rw [hrejected]
    exact s.run_value_eq_invalid_iff today q issues
  · intro h
    have hrun := s.run_of_issues today q (hrejected.1 h)
    refine ⟨congrArg Traced.calls hrun, ?_⟩
    simp only [Screener.exceedsMemory, hrun]
    rfl
  · rw [hrejected]
    exact s.registry.check_ne_nil_iff c keys
  · intro hkeys
    have hreport : s.issuesOf q = (s.validate q.conditions).issues := by
      show s.registry.issues c ++ s.registry.sortIssues (q.orderBy.map SortKey.normalize) = s.registry.issues c
      rw [hkeys]
      exact List.append_nil _
    have hvalid : (s.validate q.conditions).valid = false ↔ s.issuesOf q ≠ [] := by
      rw [Registry.Report.valid, hreport, List.isEmpty_eq_false_iff]
    constructor
    · rw [hvalid]
      constructor
      · rintro ⟨issues, h⟩
        exact ((s.run_value_eq_invalid_iff today q issues).1 h).1
      · intro h
        exact ⟨_, (s.run_value_eq_invalid_iff today q _).2 ⟨h, rfl⟩⟩
    · intro issues h
      rw [← hreport]
      exact ((s.run_value_eq_invalid_iff today q issues).1 h).2

/-- A request with a misspelt field and no sort keys: the report says so, and the run ends with it before the store, which is
closed, is asked. -/
theorem misspelt_field_is_refused :
    let s : Screener := { sources := ({ isClosed := true } : Store).sources }
    let q : Request := { conditions := .all [.leaf ⟨"pe_ratio", .lt, .literal (.number 15.0)⟩,
      .leaf ⟨"prise", .gt, .literal (.number 1.0)⟩] }
    q.orderBy = [] ∧ (s.validate q.conditions).issues = [⟨.condition [1], "prise", .unknownField⟩] ∧
      (s.run ⟨2024, 1, 2⟩ q).run.value = .error (.invalid [⟨.condition [1], "prise", .unknownField⟩]) ∧
      (s.run ⟨2024, 1, 2⟩ q).run.calls = [] := by
  intro s q
  have hissues : (s.validate q.conditions).issues = [⟨.condition [1], "prise", .unknownField⟩] := rfl
  have hrefused := refused_before_any_call s ⟨2024, 1, 2⟩ q
  have hrejected : s.registry.issues q.conditions.normalize ≠ [] := by
    intro hnone
    exact absurd (hissues.symm.trans hnone) (by simp)
  obtain ⟨issues, hvalue⟩ := (hrefused.2.2.2 rfl).1.2 (by rw [Registry.Report.valid, hissues]; rfl)
  have hreported : issues = (s.validate q.conditions).issues := (hrefused.2.2.2 rfl).2 issues hvalue
  refine ⟨rfl, hissues, ?_, (hrefused.2.1 (.inl hrejected)).1⟩
  rw [hvalue, hreported, hissues]

end EquityScreen
