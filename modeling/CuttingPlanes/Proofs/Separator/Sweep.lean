import CuttingPlanes.Proofs.Outcome
import CuttingPlanes.Proofs.Separator.Call

/-! What holds along one call of a separator, up to each of its ends. -/

namespace CuttingPlanes.Separator

variable {σ γ μ : Type}

/-- How far a scan has come, with the best candidate so far. -/
inductive Stage (γ μ : Type) where
  /-- Ahead of the candidate at a position. -/
  | looking (position : Nat) (best : Option (γ × μ))
  /-- The candidate at a position has been produced. -/
  | offered (position : Nat) (best : Option (γ × μ)) (candidate : γ)
  /-- The candidate at a position has been measured. -/
  | measured (position : Nat) (best : Option (γ × μ)) (candidate : γ) (measure : μ)
  /-- The scan is over, with the candidate to commit. -/
  | chosen (found : Option γ)

/-- The stage that follows when the next candidate has been asked for. -/
def Stage.afterNext (position : Nat) (best : Option (γ × μ)) : Option γ → Stage γ μ
  | none => chosen (best.map Prod.fst)
  | some candidate => offered position best candidate

/-- The stage that follows when a measure has been compared with the best one so far. -/
def Stage.afterComparison (position : Nat) (best : Option (γ × μ)) (candidate : γ) (measure : μ)
    (verdict : Bool) : Stage γ μ :=
  looking (position + 1) (if verdict then some (candidate, measure) else best)

variable [Measure μ] {separator : Separator σ γ μ} {candidates : Source σ γ} {turns : Nat}
  {holds : Stage γ μ → σ → Prop} {failed : Interrupt → σ → Prop} {state : σ}

/-- What holds at the stages of a scan within its turns, and what a failing step leaves. -/
structure Sweep (separator : Separator σ γ μ) (candidates : Source σ γ) (turns : Nat)
    (holds : Stage γ μ → σ → Prop) (failed : Interrupt → σ → Prop) : Prop where
  produces : ∀ {position best state}, position < turns → holds (.looking position best) state →
    Action.Meets (candidates.next position) state
      (fun found after => holds (.afterNext position best found) after) failed
  measures : ∀ {position best candidate state}, holds (.offered position best candidate) state →
    Action.Meets (separator.family.measure candidate) state
      (fun measure after => holds (.measured position best candidate measure) after) failed
  passes : ∀ {position best candidate measure state},
    holds (.measured position best candidate measure) state →
      separator.search.regards measure = false → holds (.looking (position + 1) best) state
  takes : separator.search = .first → ∀ {position best candidate measure state},
    holds (.measured position best candidate measure) state → Measure.countsTrue measure →
      holds (.chosen (some candidate)) state
  compares : ∀ {exceeds}, separator.search = .deepest exceeds →
    ∀ {position best candidate measure state},
      holds (.measured position best candidate measure) state → Measure.present measure →
        Action.Meets (replaces exceeds best measure) state
          (fun verdict after =>
            holds (.afterComparison position best candidate measure verdict) after) failed
  spent : ∀ {best state}, holds (.looking turns best) state → failed .unfinished state

namespace Sweep

variable (sweep : separator.Sweep candidates turns holds failed)

include sweep

/-- Measuring a candidate counts the question. -/
theorem evaluate_meets {position : Nat} {best : Option (γ × μ)} {candidate : γ}
    (held : holds (.offered position best candidate) state) (tally : Tally) :
    Action.Meets (separator.evaluate candidate) (tally, state)
      (fun measure after => holds (.measured position best candidate measure) after.2)
      fun cause after => failed cause after.2 := by
  simp only [evaluate, Tally.count, Action.meets_bind, Action.meets_modify, Action.meets_onSecond]
  exact sweep.measures held

/-- The scan for the first violation ends with what it has chosen. -/
theorem scanFirst_meets (first : separator.search = .first) {fuel position : Nat}
    (granted : fuel + position = turns) (held : holds (.looking position none) state)
    (tally : Tally) :
    Action.Meets (separator.scanFirst candidates fuel position) (tally, state)
      (fun found after => holds (.chosen found) after.2)
      fun cause after => failed cause after.2 := by
  -- One turn less is left for one more candidate.
  induction fuel generalizing position state tally with
  | zero =>
    obtain rfl : position = turns := by omega
    simpa [scanFirst] using sweep.spent held
  | succ fuel ih =>
    have within : position < turns := by omega
    simp only [scanFirst, Action.meets_bind, Action.meets_onSecond]
    refine (sweep.produces within held).mono fun found state produced => ?_
    cases found with
    | none => exact produced
    | some candidate =>
      simp only [Action.meets_bind]
      refine (sweep.evaluate_meets produced tally).mono ?_
      rintro measure ⟨tally, state⟩ measured
      -- A candidate that is not taken is passed over.
      cases counts : Measure.countsTrue measure with
      | true => exact sweep.takes first measured counts
      | false =>
        have later : fuel + (position + 1) = turns := by omega
        have passed : separator.search.regards measure = false := by
          simpa [first, Search.regards] using counts
        exact ih later (sweep.passes measured passed) tally

/-- The scan for the greatest violation ends with what it has chosen. -/
theorem scanDeepest_meets {exceeds : μ → μ → Action σ Bool}
    (deepest : separator.search = .deepest exceeds) {fuel position : Nat}
    (granted : fuel + position = turns) {best : Option (γ × μ)}
    (held : holds (.looking position best) state) (tally : Tally) :
    Action.Meets (separator.scanDeepest exceeds candidates fuel position best) (tally, state)
      (fun found after => holds (.chosen found) after.2)
      fun cause after => failed cause after.2 := by
  induction fuel generalizing position best state tally with
  | zero =>
    obtain rfl : position = turns := by omega
    simpa [scanDeepest] using sweep.spent held
  | succ fuel ih =>
    have within : position < turns := by omega
    have later : fuel + (position + 1) = turns := by omega
    simp only [scanDeepest, Action.meets_bind, Action.meets_onSecond]
    refine (sweep.produces within held).mono fun found state produced => ?_
    cases found with
    | none => exact produced
    | some candidate =>
      simp only [Action.meets_bind]
      refine (sweep.evaluate_meets produced tally).mono ?_
      rintro measure ⟨tally, state⟩ measured
      -- A candidate without a measure is passed over without a comparison.
      cases present : Measure.present measure with
      | false =>
        have passed : separator.search.regards measure = false := by
          simpa [deepest, Search.regards] using present
        simpa using ih later (sweep.passes measured passed) tally
      | true =>
        simp only [if_true, Action.meets_bind, Action.meets_onSecond]
        refine (sweep.compares deepest measured present).mono fun verdict state compared => ?_
        cases verdict with
        | true => exact ih later compared tally
        | false => exact ih later compared tally

end Sweep

variable (separator) in
/-- A call commits what its scan has chosen and says so, or says that nothing was chosen. -/
theorem call_meets (given : Bool → σ → Prop) (chosen : Option γ → σ → Prop)
    (failed : Interrupt → σ → Prop) {fuel : Nat}
    (enumerates : Action.Meets separator.family.enumerate state (fun source after =>
      ∃ holds, separator.Sweep source fuel holds failed ∧ holds (.looking 0 none) after ∧
        ∀ found last, holds (.chosen found) last → chosen found last) failed)
    (rests : ∀ state, chosen none state → given false state)
    (commits : ∀ candidate state, chosen (some candidate) state →
      Action.Meets (separator.family.commit candidate) state (fun _ after => given true after)
        failed) (tally : Tally) :
    Action.Meets (separator.call fuel) (tally, state) (fun added after => given added after.2)
      fun cause after => failed cause after.2 := by
  -- The call counts itself, looks, and commits what it has found.
  have looks : Action.Meets (separator.select fuel) (tally.called, state)
      (fun found after => chosen found after.2) fun cause after => failed cause after.2 := by
    simp only [select, Action.meets_bind, Action.meets_onSecond]
    refine enumerates.mono ?_
    rintro source state ⟨holds, sweep, begun, ends⟩
    cases search : separator.search with
    | deepest exceeds =>
      exact (sweep.scanDeepest_meets search rfl begun _).mono fun found after => ends found after.2
    | first =>
      exact (sweep.scanFirst_meets search rfl begun _).mono fun found after => ends found after.2
  simp only [call, Tally.count, Action.meets_bind, Action.meets_modify]
  refine looks.mono ?_
  rintro found ⟨tally, state⟩ picked
  cases found with
  | none => exact rests state picked
  | some candidate =>
    simp only [Action.meets_bind, Action.meets_report, Action.meets_onSecond, Action.meets_modify,
      Action.meets_pure]
    exact commits candidate state picked

end CuttingPlanes.Separator
