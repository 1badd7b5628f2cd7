import EquityScreen.Proofs.MarketRestriction

/-!
# What the figures of an answer count

Every candidate that a computed screen reaches is matched, rejected or skipped, and is counted as just one of these
(`Response.Counts.evaluated_add_skipped`). So the figures of its answer add up to the candidates, and of a partial answer to those
before the first late one, be it by its snapshot or by its bars; the store counts what it finds and nothing else. On either route
the items are one page of the symbols that match (`every_symbol_is_counted_once`).
-/

namespace EquityScreen

/-! ## Figures of an answer -/

namespace Response

/-- The figures of a computed answer: the symbols that were reached are a front of the candidates, all of it unless the answer
is partial, and each of them is counted by what came of it. -/
structure Counts (a : Response) (outcome : String → Outcome) (candidates reached : List String) : Prop where
  front : reached <+: candidates
  isPartial : a.isPartial = false ↔ reached = candidates
  matched : a.Shows (reached.filter fun symbol => (outcome symbol).isMatched)
  evaluated : a.evaluated = reached.countP fun symbol => !(outcome symbol).isSkipped
  skipped : a.skipped = reached.countP fun symbol => (outcome symbol).isSkipped

variable {a : Response}

/-- The page of a request shows as many symbols as it has room for and its offset leaves, and none twice when none matches
twice. -/
theorem Shows.items_of_page {matched : List String} (h : a.Shows matched) (hmatched : matched.Nodup) {q : Request}
    (hpage : a.page = .ofRequest q.limit q.offset) :
    1 ≤ a.page.limit ∧ a.page.limit ≤ 500 ∧ a.items.length = min a.page.limit (a.total - min a.page.offset a.total) ∧
      (a.items.map (·.symbol)).Nodup := by
  obtain ⟨htotal, sorted, hperm, hitems⟩ := h
  obtain ⟨hleast, hgreatest, -⟩ := Page.ofRequest_bounds q.limit q.offset
  rw [← hpage] at hleast hgreatest
  refine ⟨hleast, hgreatest, ?_, ?_⟩
  · have hlength : a.items.length = min a.page.limit (matched.length - a.page.offset) := by
      rw [← hperm.length_eq, ← Page.length_cut, ← hitems, List.length_map]
    omega
  · rw [hitems]
    exact (hperm.nodup_iff.2 hmatched).sublist (a.page.cut_sublist sorted)

section Counts

variable {outcome : String → Outcome} {candidates reached : List String} (h : a.Counts outcome candidates reached)
include h

/-- Every symbol that was reached is counted as evaluated or as skipped, and none as both. -/
theorem Counts.evaluated_add_skipped : a.evaluated + a.skipped = reached.length := by
  rw [h.evaluated, h.skipped, Nat.add_comm, List.length_eq_countP_add_countP fun symbol => (outcome symbol).isSkipped]
  simp

theorem Counts.total_eq : a.total = reached.countP fun symbol => (outcome symbol).isMatched := by
  rw [h.matched.1, List.countP_eq_length_filter]

theorem Counts.total_le_evaluated : a.total ≤ a.evaluated := by
  rw [h.total_eq, h.evaluated]
  exact List.countP_mono_left fun symbol _ => Outcome.not_isSkipped_of_isMatched

end Counts

end Response

/-! ## Figures of a run -/

namespace Screener

variable {x : Screener} {s : Store} {today : Date} {q : Request} {a : Response}

/-- What is computed counts every candidate that is reached. -/
theorem counts_of_computed (hover : x.sources.Over s) (ha : x.computedAnswer today q = .ok a) :
    ∃ candidates, s.symbols q.marketOnly? x.settings.universeCap = .ok candidates ∧
      a.Counts (fun symbol => ((x.computedScreen today q).evaluate x.sources symbol).value.outcome) candidates
        (x.reached (x.computedScreen today q) candidates) ∧
      a.routing = .computed ∧ a.page = .ofRequest q.limit q.offset := by
  obtain ⟨candidates, hcandidates, hshows, hroute, hpage, hevaluated, hskipped, hpartial⟩ := shows_of_computed hover ha
  have hfront := x.reached_prefix (x.computedScreen today q) candidates
  rw [symbols_outcomes] at hshows
  simp only [outcomes_value, Matches.ofOutcomes, List.countP_map] at hevaluated hskipped hpartial
  refine ⟨candidates, hcandidates, ⟨hfront, ?_, hshows, hevaluated, hskipped⟩, hroute, hpage⟩
  rw [hpartial, decide_eq_false_iff_not, Nat.not_lt]
  exact ⟨fun hlength => hfront.eq_of_length_le hlength, fun h => (congrArg List.length h).ge⟩

/-- A screen that is computed answers whenever it has its candidates, whatever fails of them. -/
theorem exists_answer_of_candidates (haccepted : x.issuesOf q = []) (hrouting : x.routingOf q = .computed)
    {candidates : List String} (hcandidates : x.sources.candidates q.marketOnly? x.settings.universeCap = .ok candidates) :
    ∃ a, (x.run today q).run.value = .ok a := by
  rw [run_of_computed haccepted hrouting, computedAnswer]
  simp only [hcandidates]
  exact ⟨_, rfl⟩

end Screener

/-- The figures of an answer add up, whatever a store holds and whatever snapshots, bars and quotes fail or come late. A
computed screen answers whenever it has its candidates, which are different symbols and no more than the cap. Each of those
that it reaches is counted once, by what came of it: all of them unless the answer is partial, which it is when there is a
deadline and the snapshot of some candidate comes after it, or its bars where bars are needed. Where the store answers, what it
finds is evaluated and nothing is skipped. On either route the items are as many as the page of the request has room for and the
offset leaves of the total, and no two are of one symbol. -/
theorem every_symbol_is_counted_once {s : Store} (hs : s.Kept) {x : Screener} (hover : x.sources.Over s) (today : Date)
    (q : Request) :
    let cap := x.settings.universeCap
    let screen := x.computedScreen today q
    let outcome := fun symbol => (screen.evaluate x.sources symbol).value.outcome
    (x.issuesOf q = [] → x.routingOf q = .computed → (∃ candidates, x.sources.candidates q.marketOnly? cap = .ok candidates) →
        ∃ a, (x.run today q).run.value = .ok a) ∧
      ∀ a, (x.run today q).run.value = .ok a →
        (a.routing = .computed → ∃ candidates, s.symbols q.marketOnly? cap = .ok candidates ∧
          candidates.Nodup ∧ candidates.length ≤ cap ∧ a.Counts outcome candidates (x.reached screen candidates) ∧
          (a.isPartial = false → a.evaluated + a.skipped = candidates.length) ∧
          a.evaluated + a.skipped ≤ candidates.length ∧ a.total ≤ a.evaluated ∧
          (x.settings.deadline = none → a.isPartial = false) ∧
          (a.isPartial = true ↔ x.settings.deadline.isSome = true ∧ ∃ symbol ∈ candidates,
            (x.sources.snapshot symbol).late = true ∨
              screen.analysis.needsSeries = true ∧ (x.sources.bars symbol screen.start screen.finish).late = true)) ∧
        (a.routing = .pushdown → (∃ f ps, x.registry.pushdown q.conditions.normalize = .ok f ∧
            f.mapM Predicate.check = .ok ps ∧ a.Shows ((s.found ps).map (·.symbol))) ∧
          a.evaluated = a.total ∧ a.skipped = 0 ∧ a.isPartial = false) ∧
        a.page = .ofRequest q.limit q.offset ∧ 1 ≤ a.page.limit ∧ a.page.limit ≤ 500 ∧
        a.items.length = min a.page.limit (a.total - min a.page.offset a.total) ∧ (a.items.map (·.symbol)).Nodup := by
  intro cap screen outcome
  refine ⟨?_, fun a ha => ?_⟩
  · rintro haccepted hrouting ⟨candidates, hcandidates⟩
    exact Screener.exists_answer_of_candidates haccepted hrouting hcandidates
  have haccepted := Screener.accepted_of_run ha
  cases hrouting : x.routingOf q with
  | pushdown =>
    rw [Screener.run_of_pushdown haccepted hrouting] at ha
    obtain ⟨f, ps, hf, hps, hshows, hroute, hpage, hfigures⟩ := Screener.shows_of_pushed hover ha
    have hfound : ((s.found ps).map (·.symbol)).Nodup := (Store.nodup_symbols hs).sublist (List.filter_sublist.map _)
    refine ⟨fun hcomputed => ?_, fun _ => ⟨⟨f, ps, hf, hps, hshows⟩, hfigures⟩, hpage, hshows.items_of_page hfound hpage⟩
    exact absurd (hroute.symm.trans hcomputed) (by decide)
  | computed =>
    rw [Screener.run_of_computed haccepted hrouting] at ha
    obtain ⟨candidates, hcandidates, hcounts, hroute, hpage⟩ := Screener.counts_of_computed hover ha
    obtain ⟨hdistinct, hcap⟩ := Store.nodup_symbols_of_market hs hcandidates
    have hreached := hdistinct.sublist hcounts.front.sublist
    have hsum := hcounts.evaluated_add_skipped
    have hwhole : a.isPartial = false → a.evaluated + a.skipped = candidates.length := by
      intro hwhole
      rw [hsum, hcounts.isPartial.1 hwhole]
    have hdeadline : x.settings.deadline = none → a.isPartial = false := by
      intro hdeadline
      exact hcounts.isPartial.2 (x.reached_of_no_deadline _ hdeadline candidates)
    have hpartial : a.isPartial = true ↔
        x.settings.deadline.isSome = true ∧ ∃ symbol ∈ candidates, screen.isLate x.sources symbol = true := by
      rw [← Bool.not_eq_false, hcounts.isPartial, x.reached_eq_iff, not_not]
    simp only [ComputedScreen.isLate, Bool.or_eq_true, Bool.and_eq_true] at hpartial
    refine ⟨fun _ => ?_, fun hpushdown => ?_, hpage, hcounts.matched.items_of_page (hreached.filter _) hpage⟩
    · exact ⟨candidates, hcandidates, hdistinct, hcap, hcounts, hwhole, hsum ▸ hcounts.front.length_le,
        hcounts.total_le_evaluated, hdeadline, hpartial⟩
    · exact absurd (hroute.symm.trans hpushdown) (by decide)

/-- Two stocks, of which the snapshot of the second comes too late. -/
def oneSnapshotLate : Sources :=
  { twoMarkets.sources with
    snapshot := fun symbol => { twoMarkets.sources.snapshot symbol with late := symbol == "B" } }

/-- A screen that needs no bars is partial too when a snapshot is late. -/
example :
    let x : Screener := { settings := { deadline := some 0 }, sources := oneSnapshotLate }
    (x.run ⟨2024, 1, 2⟩ { market := "all", preferPushdown := false }).run.value.map
      (fun a => (a.brief, a.isPartial, a.evaluated, a.skipped)) = .ok ((.computed, 1, ["A"]), true, 1, 0) := by
  decide +kernel

/-- Two stocks, of which the snapshot of the second cannot be had. -/
def oneSnapshotFails : Sources :=
  { twoMarkets.sources with
    snapshot := fun symbol => if symbol = "B" then { found := .error .closed } else twoMarkets.sources.snapshot symbol }

/-- The first is evaluated and shown, the second is skipped, and these are both. -/
theorem failed_snapshot_is_skipped :
    let x : Screener := { sources := oneSnapshotFails }
    let q : Request := { market := "all", preferPushdown := false }
    twoMarkets.Kept ∧ x.sources.Over twoMarkets ∧
      ∃ a, (x.run ⟨2024, 1, 2⟩ q).run.value = .ok a ∧ a.brief = (.computed, 1, ["A"]) ∧ a.evaluated = 1 ∧ a.skipped = 1 ∧
        ∃ candidates, twoMarkets.symbols q.marketOnly? x.settings.universeCap = .ok candidates ∧
          a.evaluated + a.skipped = candidates.length := by
  intro x q
  have hover : x.sources.Over twoMarkets := ⟨id, id⟩
  obtain ⟨-, hfigures⟩ := every_symbol_is_counted_once kept_twoMarkets hover ⟨2024, 1, 2⟩ q
  have hrun : (x.run ⟨2024, 1, 2⟩ q).run.value.map (fun a => (a.brief, a.evaluated, a.skipped)) =
      .ok ((.computed, 1, ["A"]), 1, 1) := by
    decide +kernel
  obtain ⟨a, ha, hshown⟩ := map_eq_ok hrun
  obtain ⟨hbrief, hevaluated, hskipped⟩ : a.brief = (.computed, 1, ["A"]) ∧ a.evaluated = 1 ∧ a.skipped = 1 := by
    simpa using hshown
  obtain ⟨candidates, hcandidates, -, -, -, hwhole, -, -, hdeadline, -⟩ := (hfigures a ha).1 (congrArg Prod.fst hbrief)
  exact ⟨kept_twoMarkets, hover, a, ha, hbrief, hevaluated, hskipped, candidates, hcandidates, hwhole (hdeadline rfl)⟩

end EquityScreen
