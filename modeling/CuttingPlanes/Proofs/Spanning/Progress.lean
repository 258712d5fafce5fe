import CuttingPlanes.Proofs.Spanning.Moderate
import CuttingPlanes.Proofs.Spanning.RowName
import CuttingPlanes.Proofs.Spanning.Run
import CuttingPlanes.Proofs.Spanning.View

/-! What a run adds before it ends: no row twice, and what each of its solves sees. -/

namespace CuttingPlanes.Spanning

variable {β κ ρ L : Type} {problem : Problem ℚ Nat L}

namespace Problem

/-- The rows of a problem with the subtour rows of some sets. -/
def rowsFor (problem : Problem ℚ Nat L) (sets : List (List Nat)) : List (Row ℚ Nat String) :=
  problem.cardinalityRow :: sets.map problem.subtourRow

theorem rows_script_solve (sets : List (List Nat)) :
    Call.rows (problem.script sets ++ [.solve]) = problem.rowsFor sets := by
  simp [rows_script, rowsFor]

/-- What the solves of a run see that has added the rows of some sets. -/
theorem seen_script (sets : List (List Nat)) :
    Call.seen [] (problem.script sets) =
      (List.range sets.length).map fun turn => (problem.rowsFor sets).take (turn + 1) := by
  -- While the program is built, nothing is solved.
  have posed : Call.seen [] (problem.additions []) = [] := by
    rw [← filter_adds_script, Call.seen_filter_adds]
  -- From then on each turn solves once and adds one row.
  rw [script, Call.seen_append, posed, rows_additions, List.nil_append, List.nil_append,
    Call.seen_turns]
  rfl

/-- One more solve sees all rows. -/
theorem seen_script_solve (sets : List (List Nat)) :
    Call.seen [] (problem.script sets ++ [.solve]) =
      (List.range (sets.length + 1)).map fun turn => (problem.rowsFor sets).take (turn + 1) := by
  -- One row for each set and the cardinality row are all.
  have all : (problem.rowsFor sets).take (sets.length + 1) = problem.rowsFor sets :=
    List.take_of_length_le (by simp [rowsFor])
  rw [Call.seen_append, seen_script, List.range_succ, List.map_append, List.map_singleton, all,
    rows_script]
  rfl

/-- The rows of different sets have different names, and none has that of the cardinality row. -/
theorem IsSelection.nodup_names {sets : List (List Nat)} (selected : problem.IsSelection sets) :
    ((problem.rowsFor sets).map Row.name).Nodup := by
  have named : (problem.rowsFor sets).map Row.name =
      some (RowName.ofText "cardinality") ::
        sets.map fun nodes => some (Subtours.rowName nodes) := by
    simp [rowsFor, cardinalityRow, subtourRow, rowOver, RowName.ofText]
  -- A set with members is told from others by its name.
  have several : ∀ nodes ∈ sets, nodes ≠ [] := fun nodes member none => by
    have := (selected.cuts nodes member).several
    rw [none] at this
    cases this
  rw [named, List.nodup_cons]
  constructor
  · intro member
    obtain ⟨nodes, -, same⟩ := List.mem_map.1 member
    exact Subtours.rowName_ne_cardinality nodes (Option.some.inj same)
  · refine selected.nodup.map_on fun nodes member others among same => ?_
    exact (Subtours.rowName_inj (several nodes member) (several others among)).1
      (Option.some.inj same)

end Problem

/-- What a run has done that has ended on a tree, as its backend was called and its record shows. -/
structure Progress (problem : Problem ℚ Nat L) (tree : Tree ℚ Nat)
    (calls : List (Call ℚ Nat String)) (record : Relaxation ℚ Nat String)
    (sets : List (List Nat)) : Prop where
  /-- No set has its row added twice. -/
  nodup : sets.Nodup
  cuts : ∀ nodes ∈ sets, IsCutSet problem.size nodes
  few : sets.length ≤ 2 ^ problem.size - problem.size - 2
  added : tree.rowsAdded = sets.length
  rows : record.rows = problem.rowsFor sets
  names : (record.rows.map Row.name).Nodup
  /-- Each solve sees the cardinality row and one more subtour row than the solve before it. -/
  seen : ∃ solves : Nat, solves ≤ sets.length + 1 ∧ tree.iterations = solves ∧
    Call.seen [] calls = (List.range solves).map fun turn => record.rows.take (turn + 1)

/-- A run that has stopped after some calls has made progress, if as many solves as turns. -/
theorem Setting.Stands.progress {backend : Backend β ℚ Nat String} {start : β}
    {setting : Setting (List (Call ℚ Nat String) × β) ρ L fun _ => False}
    (listening : setting.backend = backend.listened) (silent : setting.start = ([], start))
    {sets : List (List Nat)} {calls : List (Call ℚ Nat String)}
    {state : Tally × (Rotation ρ × (Relaxation ℚ Nat String × (List (Call ℚ Nat String) × β)))}
    (stands : setting.Stands sets calls state) {tree : Tree ℚ Nat}
    (added : tree.rowsAdded = sets.length) {solves : Nat} (few : solves ≤ sets.length + 1)
    (counted : tree.iterations = solves)
    (rows : Call.rows calls = setting.problem.rowsFor sets)
    (seen : Call.seen [] calls =
      (List.range solves).map fun turn => (setting.problem.rowsFor sets).take (turn + 1)) :
    Progress setting.problem tree state.2.2.2.1 state.2.2.1 sets := by
  have mirrors := stands.mirrors
  rw [listening, silent] at mirrors
  -- What has been heard are the calls from the beginning on.
  have heard : state.2.2.2.1 = calls := by simpa using mirrors.reached.of_listened.1
  have recorded : state.2.2.1.rows = setting.problem.rowsFor sets := mirrors.rows.trans rows
  have selected := stands.selected
  refine ⟨selected.nodup, selected.cuts, selected.length_le, added, recorded, ?_, solves, few,
    counted, ?_⟩
  · rw [recorded]
    exact selected.nodup_names
  · rw [recorded, heard]
    exact seen

/-- A run ends after few solves, whatever its limits, and has added no row twice. -/
theorem exists_progress (sound : problem.IsSound) {backend : Backend β ℚ Nat String} {start : β}
    (reliable : backend.FailsOnly (fun _ => False) start)
    (answers : backend.Answers start problem.Poses fun calls answer =>
      (Call.program calls).columns ≠ [] → answer.TellsFeasible (Call.program calls))
    {choices : Choices ℚ} {policy : Policy} (chosen : choices.policy = .ok policy)
    (nonneg : 0 ≤ choices.violation) {draw : Random.Draw ρ} {inUse : ρ → Prop} {generator : ρ}
    (serves : policy = .shuffled → draw.Serves (fun _ => False) inUse ∧ inUse generator)
    (clock : Clock κ ℚ) (time : κ) {fuel : Nat} (enough : 2 ^ problem.size ≤ fuel) :
    let outcome := (solve backend problem choices draw clock fuel).run
      (RunState.begun time generator start)
    ∃ tree sets, outcome.result = .ok tree ∧
      Progress problem tree (callsOf backend problem choices draw clock fuel time generator start)
        outcome.state.2.2.2.1 sets := by
  -- The run is followed on a backend that is listened to, which changes nothing in it.
  rw [solve_listened _ _ _ _ _ _ _ _ _ [], callsOf]
  let setting : Setting (List (Call ℚ Nat String) × β) ρ L fun _ => False :=
    { problem, sound, policy, draw, inUse, nonneg
      backend := backend.listened
      start := ([], start)
      reliable := reliable.listened []
      promised := fun calls answer =>
        (Call.program calls).columns ≠ [] → answer.TellsFeasible (Call.program calls)
      answers := answers.listened []
      feasible := fun told optimal some => told (mt Problem.columns_relaxed_eq_nil.1 some) optimal
      serves := fun shuffled => (serves shuffled).1
      tolerance := choices.violation }
  have run : Action.Ensures (solve backend.listened problem choices draw clock fuel)
      (RunState.begun time generator ([], start)) (fun _ => False) fun tree after =>
        ∃ sets, problem.IsSelection sets ∧ tree.rowsAdded = sets.length ∧
          setting.Ended choices sets tree after.2 :=
    setting.solve_ensures chosen rfl (fun shuffled => (serves shuffled).2)
      (.inr (length_cutSets_lt enough))
  -- However the run has ended, each row was added between two solves.
  obtain ⟨tree, ended, sets, selected, added, closed⟩ := Action.ensures_iff_exists.1 run
  refine ⟨tree, sets, ended, ?_⟩
  cases closed with
  | refused answer solved other ending objective iterations =>
    exact solved.stands.progress rfl rfl added le_rfl iterations
      (Problem.rows_script_solve sets) (Problem.seen_script_solve sets)
  | passed answer passed ending objective read iterations =>
    exact passed.solved.stands.progress rfl rfl added le_rfl iterations
      (Problem.rows_script_solve sets) (Problem.seen_script_solve sets)
  | limited stands cut limit iterations =>
    exact stands.progress rfl rfl added (Nat.le_succ _) iterations (Problem.rows_script _ sets)
      (Problem.seen_script sets)

/-- A run on three nodes and a double edge has added no row twice. -/
theorem progress_bridged :
    let calls := callsOf (Held.backend Linear.simplex) bridged
      ⟨Limits.none, .ok .shuffled, 0, 1 / 2⟩ (fun last => pure (.int last)) (fun time => (0, time))
      (2 ^ bridged.size) () () (Held.empty .least none)
    ∃ tree sets, (solvedExactly bridged).result = .ok tree ∧
      Progress bridged tree calls (solvedExactly bridged).state.2.2.2.1 sets := by
  refine exists_progress isSound_bridged (Held.failsOnly _ _ _) ?_ rfl le_rfl
    (fun _ => ⟨serves_plainly, trivial⟩) _ () le_rfl
  -- A best point is a feasible one.
  intro calls held reached posed
  exact (isModerate_bridged.tellsBest isSound_bridged (by decide) Linear.simplex_isTrue none calls
    held reached posed).mono fun answer _ told _ optimal => (told optimal).1.feasible

end CuttingPlanes.Spanning
