import CuttingPlanes.Proofs.Loop.Chronicle
import CuttingPlanes.Proofs.Loop.Timing
import CuttingPlanes.Proofs.Spanning.Moderate
import CuttingPlanes.Proofs.Spanning.Optimum

/-! No objective on the way is above the least weight, wherever a run is cut short. -/

namespace CuttingPlanes.Spanning

variable {β κ ρ L : Type} {problem : Problem ℚ Nat L}

namespace Problem

/-- One more cut leaves a problem posed with the rows of cuts, whether or not it is a new one. -/
theorem PosesCuts.append {calls : List (Call ℚ Nat String)} (posed : problem.PosesCuts calls)
    {nodes : List Nat} (cut : IsCutSet problem.size nodes) :
    problem.PosesCuts (calls ++ [.row (problem.subtourRow nodes)]) := by
  obtain ⟨sets, cuts, rfl⟩ := posed
  refine ⟨sets ++ [nodes], ?_, by simp [additions]⟩
  simpa [or_imp, forall_and] using ⟨cuts, cut⟩

/-- The columns of a posed problem are those of its edges. -/
theorem PosesCuts.length_columns {calls : List (Call ℚ Nat String)}
    (posed : problem.PosesCuts (calls.filter Call.adds)) :
    (Call.columns calls).length = problem.edges.length := by
  obtain ⟨sets, -, added⟩ := posed
  -- Solves in between add no column.
  rw [← Call.columns_filter_adds, added, columns_additions, List.length_map]

end Problem

/-- An objective is there where a solve has ended well, and it is at most a weight. -/
structure BoundsBelow (least : ℚ) (status : LpStatus) (objective : Option ℚ) : Prop where
  given : status = .optimal → objective.isSome
  below : ∀ cost ∈ objective, cost ≤ least

/-- What is answered about cuts bounds the least weight, since every tree keeps every cut. -/
theorem Problem.IsSound.boundsBelow (sound : problem.IsSound) {least : ℚ}
    (isLeast : sound.IsLeastWeight least) {calls : List (Call ℚ Nat String)}
    (posed : problem.PosesCuts calls) {answer : LpAnswer ℚ}
    (told : answer.TellsOnlyBest (Call.program calls)) :
    BoundsBelow least answer.status answer.objective := by
  obtain ⟨sets, cuts, rfl⟩ := posed
  obtain ⟨lightest, spanning, rfl⟩ := isLeast.1
  refine ⟨fun optimal => ?_, fun cost given => ?_⟩
  · rw [(told.best optimal).2]
    rfl
  · -- A cost is that of a best point, and the lightest tree is a point as well.
    obtain ⟨best, same⟩ := told.best (told.solved cost given)
    obtain rfl := Option.some.inj (same.symm.trans given)
    exact sound.objective_le_weight cuts best spanning

section Steps

variable {backend : Backend β ℚ Nat String} {start : β}
  {state : Tally × (Rotation ρ × (Relaxation ℚ Nat String × β))} {answer : LpAnswer ℚ}

/-- A run that has posed its problem with the rows of cuts, by some calls. -/
def HasPosed (backend : Backend β ℚ Nat String) (start : β) (problem : Problem ℚ Nat L)
    (state : Tally × (Rotation ρ × (Relaxation ℚ Nat String × β))) : Prop :=
  ∃ calls : List (Call ℚ Nat String), problem.PosesCuts (calls.filter Call.adds) ∧
    Relaxation.Mirrors backend start calls state.2.2

/-- A solve that returns is answered about the rows of cuts. -/
theorem HasPosed.solve_ensures (posed : HasPosed backend start problem state)
    {promised : List (Call ℚ Nat String) → LpAnswer ℚ → Prop}
    (answers : backend.Answers start problem.PosesCuts promised) :
    Action.Ensures (Relaxation.solve backend).onSecond.onSecond state (fun _ => True)
      fun answer after => HasPosed backend start problem after ∧ after.2.2.1.last = some answer ∧
        ∃ calls, problem.PosesCuts calls ∧ promised calls answer := by
  obtain ⟨calls, cuts, mirrors⟩ := posed
  rw [Action.ensures_onSecond, Action.ensures_onSecond]
  refine (mirrors.solve backend.failsOnly_trivial answers cuts).mono ?_
  rintro answer after ⟨mirrors, last, told⟩
  -- A solve adds nothing.
  refine ⟨⟨calls ++ [.solve], ?_, mirrors⟩, last, calls.filter Call.adds, cuts, told⟩
  simpa using cuts

/-- A search that returns has added the row of a cut, or nothing: then the last answer still stands. -/
theorem HasPosed.separate_ensures (posed : HasPosed backend start problem state)
    (last : state.2.2.1.last = some answer) (tolerance : ℚ) (policy : Policy)
    (draw : Random.Draw ρ) (fuel : Nat) :
    Action.Ensures ((Separator.ofPolicy policy ((cutsOf problem tolerance).family backend) exceeds
        pure draw fuel).call fuel) state (fun _ => True)
      fun added after => HasPosed backend start problem after ∧
        (added = false → after.2.2.1.last = some answer) := by
  obtain ⟨tally, rotation, program⟩ := state
  obtain ⟨calls, cuts, mirrors⟩ := posed
  -- Which of the sets is violated does not matter, since all of them are cuts.
  refine (Separator.ofPolicy_call_ensures policy enumerate_ensures (measures last) compares
    (fun _ => draw.serves_trivial) (fun nodes _ _ => commit_ensures backend.failsOnly_trivial
      mirrors cuts.length_columns nodes) (.inl trivial) tally fun _ => trivial).mono ?_
  rintro added after ⟨-, called⟩
  cases added with
  | true =>
    obtain ⟨nodes, member, -, mirrors⟩ := called
    refine ⟨⟨calls ++ [.row (problem.subtourRow nodes)], ?_, mirrors⟩, nofun⟩
    simpa [List.filter_cons] using cuts.append (mem_cutSets.1 member)
  | false => exact ⟨⟨calls, cuts, called.1 ▸ mirrors⟩, fun _ => called.1 ▸ last⟩

end Steps

/-- A run that has posed its problem with the rows of cuts, and recorded nothing but lower bounds. -/
structure RecordsBounds (backend : Backend β ℚ Nat String) (start : β) (problem : Problem ℚ Nat L)
    (least : ℚ) (rounds : List (Round ℚ LpStatus))
    (state : Tally × (Rotation ρ × (Relaxation ℚ Nat String × β))) : Prop where
  posed : HasPosed backend start problem state
  below : ∀ round ∈ rounds, BoundsBelow least round.status round.objective

/-- One more lower bound is recorded behind those before. -/
theorem RecordsBounds.append {backend : Backend β ℚ Nat String} {start : β} {least : ℚ}
    {rounds : List (Round ℚ LpStatus)}
    {state : Tally × (Rotation ρ × (Relaxation ℚ Nat String × β))}
    (records : RecordsBounds backend start problem least rounds state) {round : Round ℚ LpStatus}
    (bounds : BoundsBelow least round.status round.objective) :
    RecordsBounds backend start problem least (rounds ++ [round]) state :=
  ⟨records.posed, List.forall_mem_append.2 ⟨records.below, List.forall_mem_singleton.2 bounds⟩⟩

/-- What a run has recorded bounds the least weight at every stage. -/
def bounding {sound : problem.IsSound} {least : ℚ} (isLeast : sound.IsLeastWeight least)
    {backend : Backend β ℚ Nat String} {start : β}
    (answers : backend.Answers start problem.PosesCuts fun calls answer =>
      answer.TellsOnlyBest (Call.program calls))
    (tolerance : ℚ) (policy : Policy) (draw : Random.Draw ρ) (limits : Limits ℚ)
    (clock : Clock κ ℚ) (begin : ℚ) (fuel : Nat) :
    (Supervisor.ofTask (task backend (cutsOf problem tolerance) policy draw fuel)
      limits).Chronicle clock begin fuel where
  holds
    | .before progress, _, state => RecordsBounds backend start problem least progress.rounds state
    | .solved progress answer, _, state =>
        RecordsBounds backend start problem least progress.rounds state ∧
          state.2.2.1.last = some answer ∧ BoundsBelow least answer.status answer.objective
    | .searched progress answer _ _, _, state =>
        RecordsBounds backend start problem least progress.rounds state ∧
          BoundsBelow least answer.status answer.objective
    | .shown progress round _, _, state =>
        RecordsBounds backend start problem least progress.rounds state ∧
          BoundsBelow least round.status round.objective
  failed _ _ := True
  solves := by
    intro progress moment state _ records
    refine (records.posed.solve_ensures answers).meets ?_ fun _ _ _ => trivial
    rintro answer after ⟨posed, last, calls, cuts, told⟩
    exact ⟨⟨posed, records.below⟩, last, sound.boundsBelow isLeast cuts told⟩
  separates := by
    rintro progress answer moment state taken spent ⟨records, last, bounds⟩ - -
    -- Whatever the search adds, the rounds so far are those of before.
    refine (records.posed.separate_ensures last tolerance policy draw fuel).meets ?_
      fun _ _ _ => trivial
    exact fun _ after searched => ⟨⟨searched.1, records.below⟩, bounds⟩
  refuses := by
    rintro progress answer moment state taken spent ⟨records, -, bounds⟩ - -
    exact ⟨records.append bounds, bounds⟩
  records := by
    rintro progress answer taken added moment state lasted spent ⟨records, bounds⟩ -
    exact ⟨records.append bounds, bounds⟩
  watches := by
    intro watcher member
    cases member
  goesOn := fun held _ => held.1
  spent := fun _ _ => trivial

section Run

variable {sound : problem.IsSound} {backend : Backend β ℚ Nat String} {start : β}
  {choices : Choices ℚ} {draw : Random.Draw ρ} {clock : Clock κ ℚ} {fuel : Nat} {time : κ}
  {generator : ρ}

/-- A run that returns has recorded nothing but lower bounds, of which the last one is reported. -/
theorem solve_ensures_bounds {least : ℚ} (isLeast : sound.IsLeastWeight least)
    (answers : backend.Answers start problem.PosesCuts fun calls answer =>
      answer.TellsOnlyBest (Call.program calls)) :
    Action.Ensures (solve backend problem choices draw clock fuel)
      (RunState.begun time generator start) (fun _ => True) fun tree _ =>
        ∃ report, tree.report = some report ∧ (∀ cost ∈ tree.objective, cost ≤ least) ∧
          ∀ round ∈ report.rounds, BoundsBelow least round.status round.objective := by
  simp only [solve, RunState.begun, Action.ensures_bind, Action.ensures_onSecond,
    Action.ensures_ofExcept]
  refine (build_ensures backend.failsOnly_trivial problem).mono ?_
  rintro columns program ⟨rfl, mirrors⟩
  -- A run without a policy does not return.
  cases choices.policy with
  | error fault => trivial
  | ok policy =>
  -- Nothing has been recorded yet, and no cut is among the rows.
  have begun : RecordsBounds backend start problem least []
      (Tally.zero, Rotation.ofGenerator generator, program) :=
    ⟨⟨problem.additions [], ⟨[], by simp, by simp [Problem.additions]⟩, mirrors⟩, by simp⟩
  have covers : (bounding isLeast answers choices.violation policy draw choices.limits clock
      (clock.reading time 0) fuel).Covers (fun _ => True) fun _ => True :=
    ⟨choices.limits.timed_trivial _ clock, fun _ _ => trivial⟩
  apply Action.ensures_iff_meets.2
  refine (Supervisor.Chronicle.solve_meets covers begun).mono ?_
  rintro report after ⟨⟨records, bounds⟩, exits, elapsed⟩
  rw [Action.ensures_get]
  -- The tree shows the objective and the rounds of the report.
  split
  · rename_i tree made
    obtain ⟨objective, shown⟩ := of_treeOf made
    exact ⟨_, shown, objective ▸ bounds.below, records.below⟩
  · trivial

/--
Every objective of a run is at most the least weight, wherever the run has stopped.

The tolerance may be negative, so that rows may be added again and again.
-/
theorem objectives_le_least (connected : sound.IsConnected)
    (answers : backend.Answers start problem.PosesCuts fun calls answer =>
      answer.TellsOnlyBest (Call.program calls))
    {tree : Tree ℚ Nat}
    (ended : ((solve backend problem choices draw clock fuel).run
      (RunState.begun time generator start)).result = .ok tree) :
    ∃ least report, sound.IsLeastWeight least ∧ tree.report = some report ∧
      (∀ objective ∈ tree.objective, objective ≤ least) ∧
      ∀ round ∈ report.rounds, (round.status = .optimal → round.objective.isSome) ∧
        ∀ objective ∈ round.objective, objective ≤ least := by
  obtain ⟨least, isLeast⟩ := sound.exists_isLeastWeight connected
  obtain ⟨report, shown, objective, rounds⟩ := (solve_ensures_bounds isLeast answers).of_ok ended
  refine ⟨least, report, isLeast, shown, objective, fun round member => ?_⟩
  exact ⟨(rounds round member).given, (rounds round member).below⟩

end Run

/-- A run that takes kept rows for violated ones and is cut short after three iterations. -/
def cutShort : Outcome (RunState Unit Unit (Held ℚ) ℚ Nat String) (Tree ℚ Nat) :=
  (solve (Held.backend Linear.simplex) bridged
    ⟨{ Limits.none with maxIterations := 3 }, .ok .deepest, -1, 1 / 2⟩
    (fun last => pure (.int last)) (fun time => (0, time)) (2 ^ bridged.size)).run
      (RunState.begun () () (Held.empty .least none))

/-- A row is added twice, and still no objective is above the least weight. -/
theorem objectives_cutShort :
    ∃ tree least report, cutShort.result = .ok tree ∧ tree.ending = .iterationLimit ∧
      tree.report = some report ∧ isSound_bridged.IsLeastWeight least ∧
      report.rounds.map Round.objective = [some 3, some 6, some 6] ∧
      ∀ round ∈ report.rounds, ∀ objective ∈ round.objective, objective ≤ least := by
  have cut : cutShort.result.toOption.map Tree.ending = some .iterationLimit := by decide +kernel
  have listed : (cutShort.result.toOption.bind Tree.report).map
      (fun report => report.rounds.map Round.objective) = some [some 3, some 6, some 6] := by
    decide +kernel
  obtain ⟨tree, ended, ending⟩ := exists_tree_of_ending cut
  obtain ⟨least, report, isLeast, shown, -, rounds⟩ :=
    objectives_le_least isConnected_bridged
      (isModerate_bridged.tellsOnlyBest isSound_bridged (by decide) Linear.simplex_isTrue none)
      ended
  refine ⟨tree, least, report, ended, ending, shown, isLeast, ?_, fun round member =>
    (rounds round member).2⟩
  simpa [ended, Except.toOption, shown] using listed

end CuttingPlanes.Spanning
