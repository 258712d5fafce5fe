import CuttingPlanes.Proofs.Loop.Refinement

/-! A run that is cut short and taken up again, until no limit cuts it short any more. -/

namespace CuttingPlanes

variable {σ κ R S A K : Type}

/-- Whether one of the two limits has cut a run short. -/
def Ending.isResumable : Ending → Bool
  | .iterationLimit => true
  | .timeLimit => true
  | _ => false

/-- A status never ends a run as a limit does. -/
theorem Ending.isResumable_ofStatus [Status S] (status : S) :
    (Ending.ofStatus status).isResumable = false := by
  unfold ofStatus
  split <;> rfl

namespace Supervisor

variable [HasStatus R S] [HasObjective R K] [Status S] [Answer A] [Scalar K]

/-- Runs again and again, as long as a limit cuts the run short; gives all reports in order. -/
def resume (clock : Clock κ K) (fuel : Nat) :
    (runs : Nat) → Action (Supervisor σ R S A K × (κ × σ)) (List (Report K S))
  | 0 => Action.unfinished
  | runs + 1 => do
      let report ← solveAndKeep clock fuel
      if report.ending.isResumable then return report :: (← resume clock fuel runs)
      else return [report]

/-- The calls of all these runs, one run after another. -/
def callsOfAll (supervisor : Supervisor σ R S A K) (clock : Clock κ K) (fuel runs : Nat)
    (moment : κ) (state : σ) : List Event :=
  ((resume clock fuel runs).run (supervisor.traced, moment, [], state)).state.2.2.1

variable {task : Task σ R S A} {supervisor : Supervisor σ R S A K} {clock : Clock κ K}
  {moment : κ} {state : σ}

/-- A run whose report is kept changes its supervisor in nothing else. -/
theorem solveAndKeep_meets {fuel : Nat} {given : Report K S → κ × σ → Prop}
    {failed : Interrupt → κ × σ → Prop}
    (met : (supervisor.solve clock fuel).Meets (moment, state) given failed) :
    (solveAndKeep clock fuel).Meets (supervisor, moment, state)
      (fun report after => after.1 = { supervisor with last := some report } ∧ given report after.2)
      fun cause after => failed cause after.2 := by
  simp only [solveAndKeep, Action.meets_bind, Action.meets_get, Action.meets_onSecond,
    Action.meets_modify, Action.meets_pure]
  exact met.mono fun report after kept => ⟨trivial, kept⟩

omit [HasStatus R S] [HasObjective R K] [Status S] in
/-- Without watchers only a limit cuts a run short. -/
theorem Cuts.isResumable (unwatched : supervisor.watchers = []) {ending : Ending}
    (cuts : supervisor.Cuts ending) : ending.isResumable = true := by
  cases cuts with
  -- There is nobody who could refuse.
  | stopped member => simp [unwatched] at member
  | iterations => rfl
  | time => rfl

end Supervisor

namespace Report

/-- Reports of runs, each of which goes on where the one before was cut short, for a whole run. -/
structure Join (reports : List (Report K S)) (whole : Report K S) : Prop where
  last : ∃ report ∈ reports.getLast?, report.ending = whole.ending ∧
    report.status = whole.status ∧ report.objective = whole.objective
  cut : ∀ report ∈ reports.dropLast, report.ending.isResumable = true
  iterations : (reports.map Report.iterations).sum = whole.iterations
  rowsAdded : (reports.map Report.rowsAdded).sum = whole.rowsAdded

/-- A run that was cut short joins those that have gone on from there. -/
theorem Join.cons {reports : List (Report K S)} {whole report : Report K S}
    {iterations rowsAdded : Int}
    (joined : Join reports { whole with iterations := iterations, rowsAdded := rowsAdded })
    (resumable : report.ending.isResumable = true)
    (iterated : report.iterations + iterations = whole.iterations)
    (added : report.rowsAdded + rowsAdded = whole.rowsAdded) : Join (report :: reports) whole := by
  obtain ⟨last, known, ends⟩ := joined.last
  -- There is a last report already, so that the new one is not the last.
  obtain ⟨rest, rfl⟩ : ∃ rest, reports = rest ++ [last] := List.getLast?_eq_some_iff.1 known
  refine ⟨⟨last, ?_, ends⟩, ?_, ?_, ?_⟩
  · rw [← List.cons_append]
    exact List.getLast?_concat
  · -- All but the last were cut short, and so was the new one.
    have cut := joined.cut
    rw [← List.cons_append]
    simp only [List.dropLast_concat, List.mem_cons, forall_eq_or_imp] at cut ⊢
    exact ⟨resumable, cut⟩
  · rw [List.map_cons, List.sum_cons, joined.iterations, iterated]
  · rw [List.map_cons, List.sum_cons, joined.rowsAdded, added]

variable [HasStatus R S] [HasObjective R K] [Status S] {task : Task σ R S A} {count : Nat}
  {result : R} {whole report : Report K S}

/-- Two reports of one completed run say the same of it. -/
theorem Completes.join (completes : whole.Completes task count result)
    (other : report.Completes task count result) : Join [report] whole where
  last := ⟨report, rfl, other.ending.trans completes.ending.symm,
    other.status.trans completes.status.symm, other.objective.trans completes.objective.symm⟩
  cut := nofun
  iterations := by simp [other.iterations, completes.iterations]
  rowsAdded := by simp [other.rowsAdded, completes.rowsAdded]

/-- A completed run is not cut short by a limit. -/
theorem Completes.isResumable (completes : whole.Completes task count result) :
    whole.ending.isResumable = false := by
  rw [completes.ending]
  split
  · rfl
  · exact Ending.isResumable_ofStatus _

end Report

namespace Supervisor

variable [HasStatus R S] [HasObjective R K] [Status S] [Answer A] [Scalar K]
  {task : Task σ R S A} {supervisor : Supervisor σ R S A K} {clock : Clock κ K} {time : K → Prop}
  {moment : κ} {state after : σ}

/-- Runs that are cut short end together where the loop ends, if there are enough of them. -/
theorem resume_meets (same : supervisor.task = task) (unwatched : supervisor.watchers = [])
    (timed : supervisor.limits.Timed R clock time fun _ => False) {turns fuel runs count : Nat}
    {result : R} (ended : (task.complete turns 0).ends state = (.ok (count, result), after))
    {whole : Report K S} (completes : whole.Completes task count result)
    (granted : turns ≤ fuel) (often : count < runs) :
    (resume clock fuel runs).Meets (supervisor, moment, state)
      (fun reports last => Report.Join reports whole ∧ last.2.2 = after) fun _ _ => False := by
  -- Each run that is cut short has added a row, so that fewer are left to be added.
  induction runs generalizing supervisor moment state count turns whole with
  | zero => omega
  | succ runs ih =>
    have shows : supervisor.task.Shows id task := same ▸ task.shows_id
    have looks : ∀ watcher ∈ supervisor.watchers, Watcher.Looks watcher (id : σ → σ) := by
      simp [unwatched]
    have aims := Task.complete_mono granted ended
    rw [resume, Action.meets_bind]
    refine (solveAndKeep_meets (solve_pursues shows timed looks fuel moment aims)).imp ?_ ?_
    · rintro report ⟨next, moment, state⟩ ⟨rfl, ⟨_, _, ends, other⟩ | ⟨made, cut⟩⟩
      · -- A run that completes the loop is the last one.
        obtain ⟨⟨rfl, rfl⟩, rfl⟩ := by simpa using ends
        simp only [other.isResumable, Bool.false_eq_true, if_false, Action.meets_pure]
        exact ⟨completes.join other, trivial⟩
      · -- What is left of the loop is a loop with fewer rows to add.
        have resumable := cut.cuts.isResumable unwatched
        simp only [resumable, if_true, Action.meets_bind, Action.meets_pure]
        obtain ⟨fewer, rfl, later⟩ := Task.exists_complete_zero cut.ahead
        have part : { whole with iterations := fewer + 1, rowsAdded := fewer }.Completes task fewer
          result := ⟨completes.ending, completes.status, completes.objective, rfl, rfl⟩
        have often : fewer < runs := by omega
        refine Action.Meets.mono (ih ?_ ?_ ?_ later part (Nat.sub_le _ _) often)
          fun reports last => ?_
        · exact same
        · exact unwatched
        · exact timed
        · rintro ⟨joined, final⟩
          refine ⟨joined.cons resumable ?_ ?_, final⟩
          · rw [cut.iterations, completes.iterations]
            omega
          · rw [cut.rowsAdded, completes.rowsAdded]
            omega
    · rintro cause ⟨next, moment, state⟩ failed
      -- The loop ends well, so that no run of a part of it fails.
      simp at failed

/-- Runs under limits end together where a run without limits has ended. -/
theorem resume_agrees {task : Task σ R S A} {limits unlimited : Limits K}
    (timed : limits.Timed R clock time fun _ => False)
    (untimed : unlimited.Timed R clock time fun _ => False) (idle : unlimited.Idle) {turns : Nat}
    {begun : κ} {whole : Report K S}
    (ended : (((ofTask task unlimited).solve clock turns).run (begun, state)).result = .ok whole)
    {fuel runs : Nat} (granted : turns ≤ fuel) (often : turns ≤ runs) :
    ∃ reports,
      ((resume clock fuel runs).run (ofTask task limits, moment, state)).result = .ok reports ∧
        Report.Join reports whole ∧
        ((resume clock fuel runs).run (ofTask task limits, moment, state)).state.2.2 =
          (((ofTask task unlimited).solve clock turns).run (begun, state)).state.2 := by
  -- The run without limits says how the bare loop ends, from which the other runs follow.
  have shows : (ofTask task unlimited).task.Shows id task := task.shows_id
  obtain ⟨count, result, ends, completes⟩ :=
    (solve_completes shows untimed idle nofun turns begun state).of_ok ended
  -- A loop that ends has taken more turns than it has added rows.
  have enough : count < runs := by
    have less := Task.count_lt ends
    omega
  have met : (resume clock fuel runs).Meets (ofTask task limits, moment, state) _ _ :=
    resume_meets rfl rfl timed ends completes granted enough
  exact Action.ensures_iff_exists.1 (Action.ensures_iff_meets.2 met)

/--
Interrupting a run and taking it up again loses nothing.

Where a run without limits has ended, runs under any limits on any clock that go on as long as a
limit cuts them short come to an end as well, with the same calls, the same last answer and the same
numbers of iterations and of rows.
-/
theorem exists_resume {task : Task σ R S A} {limits unlimited : Limits K}
    (timed : limits.Timed R clock time fun _ => False)
    (untimed : unlimited.Timed R clock time fun _ => False) (idle : unlimited.Idle) {turns : Nat}
    {begun : κ} {whole : Report K S}
    (ended : (((ofTask task unlimited).solve clock turns).run (begun, state)).result = .ok whole)
    (moment : κ) {fuel runs : Nat} (granted : turns ≤ fuel) (often : turns ≤ runs) :
    ∃ reports,
      ((resume clock fuel runs).run (ofTask task limits, moment, state)).result = .ok reports ∧
        Report.Join reports whole ∧
        (ofTask task limits).callsOfAll clock fuel runs moment state =
          (ofTask task unlimited).callsOf clock turns begun state ∧
        ((resume clock fuel runs).run (ofTask task limits, moment, state)).state.2.2 =
          (((ofTask task unlimited).solve clock turns).run (begun, state)).state.2 := by
  obtain ⟨reports, given, joined, final⟩ :=
    resume_agrees timed untimed idle ended granted often
  refine ⟨reports, given, joined, ?_, final⟩
  -- The run that notes its calls ends as the run does, and is taken up again in the same way.
  have shows : (ofTask task.traced unlimited).Shows Prod.snd (ofTask task unlimited) :=
    shows_ofTask task.shows_traced unlimited
  have noted : (((ofTask task.traced unlimited).solve clock turns).run (begun, [], state)).result =
      .ok whole := by
    rw [← ended]
    exact (congrArg Outcome.result ((shows.solve clock turns).run_eq (begun, [], state))).symm
  obtain ⟨-, -, -, traced⟩ := resume_agrees timed untimed idle noted granted often
  exact congrArg Prod.fst traced

/-- A countdown whose results are exact. -/
def exactly : Task Nat (LpAnswer ℚ) LpStatus Bool :=
  .countdown ⟨.optimal, some 1, [], [], 0, 0, 0⟩ .optimal

/-- Three rows are added under a limit of two iterations, and another one of four readings. -/
theorem exists_resume_exactly :
    ∃ whole, (((ofTask exactly .none).solve ticking 4).run (7, 3)).result = .ok whole ∧
      ∃ reports,
        ((resume ticking 4 4).run (ofTask exactly ⟨2, 4, true, true⟩, 0, 3)).result =
            .ok reports ∧
          Report.Join reports whole ∧
          (ofTask exactly ⟨2, 4, true, true⟩).callsOfAll ticking 4 4 0 3 =
            (ofTask exactly .none).callsOf ticking 4 7 3 ∧
          ((resume ticking 4 4).run (ofTask exactly ⟨2, 4, true, true⟩, 0, 3)).state.2.2 =
            (((ofTask exactly .none).solve ticking 4).run (7, 3)).state.2 := by
  have idle : (.none : Limits ℚ).Idle := ⟨by simp [Limits.none], by simp [Limits.none]⟩
  have shows : (ofTask exactly (.none : Limits ℚ)).task.Shows id exactly := exactly.shows_id
  -- The bare loop ends, and so does the run without limits.
  have ends := alternate_ends shows (Limits.timed_rat _ _ ticking _) idle nofun 4 7 3
  obtain ⟨whole, ended⟩ : ∃ whole, (((ofTask exactly .none).solve ticking 4).run (7, 3)).result =
      .ok whole := by
    have bare : (exactly.alternate 4).ends (id 3) = (.ok .optimal, 0) := rfl
    rw [bare] at ends
    cases given : (((ofTask exactly .none).solve ticking 4).run (7, 3)).result with
    | ok whole => exact ⟨whole, rfl⟩
    | error cause => simp [given] at ends
  exact ⟨whole, ended, exists_resume (Limits.timed_rat _ _ _ _) (Limits.timed_rat _ _ _ _) idle
    ended 0 le_rfl le_rfl⟩

end Supervisor

end CuttingPlanes
