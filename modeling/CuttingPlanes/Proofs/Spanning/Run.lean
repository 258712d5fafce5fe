import CuttingPlanes.Proofs.Loop.Supervisor
import CuttingPlanes.Proofs.Spanning.Separation
import CuttingPlanes.Proofs.Spanning.Tree

/-! What holds throughout a run, and how it ends: solves and new subtour rows take turns. -/

namespace CuttingPlanes.Spanning

variable {β κ ρ L : Type} {allowed : Interrupt → Prop}

namespace Problem

variable (problem : Problem ℚ Nat L) (sets : List (List Nat))

/-- The calls of a run that has added the rows of some sets. -/
def script : List (Call ℚ Nat String) :=
  problem.additions [] ++ sets.flatMap fun nodes => [.solve, .row (problem.subtourRow nodes)]

@[simp] theorem script_nil : problem.script [] = problem.additions [] := List.append_nil _

theorem script_append (nodes : List Nat) :
    problem.script (sets ++ [nodes]) =
      problem.script sets ++ [.solve] ++ [.row (problem.subtourRow nodes)] := by
  simp [script]

/-- A run has posed its problem with the rows that it has added. -/
@[simp] theorem filter_adds_script :
    (problem.script sets).filter Call.adds = problem.additions sets := by
  -- Of every turn only the row is left.
  have rows : (sets.flatMap fun nodes => [Call.solve, .row (problem.subtourRow nodes)]).filter
      Call.adds = sets.map (.row ∘ problem.subtourRow) := by
    induction sets with
    | nil => rfl
    | cons nodes rest ih => simpa [List.filter_cons] using ih
  simp [script, additions, List.filter_cons, rows]

@[simp] theorem columns_script :
    Call.columns (problem.script sets) = problem.edges.map edgeColumn := by
  rw [← Call.columns_filter_adds, filter_adds_script, columns_additions]

theorem rows_script :
    Call.rows (problem.script sets) = problem.cardinalityRow :: sets.map problem.subtourRow := by
  rw [← Call.rows_filter_adds, filter_adds_script, rows_additions]

end Problem

/-- What a run relies upon: a sound problem, a backend that answers, and draws that serve. -/
structure Setting (β ρ L : Type) (allowed : Interrupt → Prop) where
  problem : Problem ℚ Nat L
  sound : problem.IsSound
  backend : Backend β ℚ Nat String
  start : β
  reliable : backend.FailsOnly allowed start
  /-- What the backend says of the programs that are posed. -/
  promised : List (Call ℚ Nat String) → LpAnswer ℚ → Prop
  answers : backend.Answers start problem.Poses promised
  feasible : ∀ {sets answer}, promised (problem.additions sets) answer →
    answer.status = .optimal → problem.edges ≠ [] →
    (problem.relaxed sets).isFeasible answer.values = true
  policy : Policy
  draw : Random.Draw ρ
  /-- The generators that may come up. -/
  inUse : ρ → Prop
  serves : policy = .shuffled → draw.Serves allowed inUse
  tolerance : ℚ
  nonneg : 0 ≤ tolerance

namespace Setting

variable (setting : Setting β ρ L allowed)

/-- A run that has added the rows of some sets, by some calls. -/
structure Stands (sets : List (List Nat)) (calls : List (Call ℚ Nat String))
    (state : Tally × (Rotation ρ × (Relaxation ℚ Nat String × β))) : Prop where
  selected : setting.problem.IsSelection sets
  mirrors : Relaxation.Mirrors setting.backend setting.start calls state.2.2
  ready : setting.policy = .shuffled → setting.inUse state.2.1.generator

/-- A run that has just solved its program. -/
structure HasSolved (sets : List (List Nat)) (answer : LpAnswer ℚ)
    (state : Tally × (Rotation ρ × (Relaxation ℚ Nat String × β))) : Prop where
  stands : setting.Stands sets (setting.problem.script sets ++ [.solve]) state
  last : state.2.2.1.last = some answer
  told : setting.promised (setting.problem.additions sets) answer

/-- A run whose last answer exceeds no cut by more than the tolerance. -/
structure HasPassed (sets : List (List Nat)) (answer : LpAnswer ℚ)
    (state : Tally × (Rotation ρ × (Relaxation ℚ Nat String × β))) : Prop where
  solved : setting.HasSolved sets answer state
  optimal : answer.status = .optimal
  kept : ∀ nodes, IsCutSet setting.problem.size nodes →
    (setting.problem.subtourRow nodes).distance answer.values ≤ setting.tolerance

variable {setting}

/-- A solve answers the program that has been posed. -/
theorem Stands.solve_ensures {sets : List (List Nat)}
    {state : Tally × (Rotation ρ × (Relaxation ℚ Nat String × β))}
    (stands : setting.Stands sets (setting.problem.script sets) state) :
    Action.Ensures (Relaxation.solve setting.backend).onSecond.onSecond state allowed
      fun answer after => setting.HasSolved sets answer after := by
  -- The rows of the sets are all that stands in the program besides its own.
  have posed : setting.problem.Poses ((setting.problem.script sets).filter Call.adds) :=
    ⟨sets, stands.selected, setting.problem.filter_adds_script sets⟩
  rw [Action.ensures_onSecond, Action.ensures_onSecond]
  refine (stands.mirrors.solve setting.reliable setting.answers posed).mono ?_
  rintro answer after ⟨mirrors, last, told⟩
  rw [Problem.filter_adds_script] at told
  exact ⟨⟨stands.selected, mirrors, stands.ready⟩, last, told⟩

/-- After an answer that ends well a new row is added, or no cut is exceeded too far. -/
theorem HasSolved.separate_ensures {sets : List (List Nat)} {answer : LpAnswer ℚ}
    {state : Tally × (Rotation ρ × (Relaxation ℚ Nat String × β))}
    (solved : setting.HasSolved sets answer state) (optimal : answer.status = .optimal)
    {fuel : Nat} (enough : allowed .unfinished ∨ (cutSets setting.problem.size).length < fuel) :
    Action.Ensures ((Separator.ofPolicy setting.policy
        ((cutsOf setting.problem setting.tolerance).family setting.backend) exceeds pure
        setting.draw fuel).call fuel) state allowed fun added after =>
      if added then
        ∃ nodes, setting.Stands (sets ++ [nodes]) (setting.problem.script (sets ++ [nodes])) after
      else setting.HasPassed sets answer after := by
  obtain ⟨tally, rotation, program⟩ := state
  obtain ⟨⟨selected, mirrors, ready⟩, last, told⟩ := solved
  -- No column comes after the first row, so that they are numbered as the edges.
  have count : (Call.columns (setting.problem.script sets ++ [.solve])).length =
      setting.problem.edges.length := by simp
  -- The search is measured at the last answer, over all sets that a cut is considered for.
  refine (Separator.ofPolicy_call_ensures setting.policy enumerate_ensures (measures last) compares
    setting.serves (fun nodes _ _ => commit_ensures setting.reliable mirrors count nodes) enough
    tally ready).mono fun added after called => ?_
  obtain ⟨used, called⟩ := called
  -- Whether a row was added tells which of both the run is in.
  cases added with
  | true =>
    obtain ⟨nodes, member, violated, mirrors⟩ := called
    rw [regards_excessAt setting.policy setting.nonneg] at violated
    have cut := mem_cutSets.1 member
    -- The answer keeps all rows, so that a violated one is new.
    have fresh := Problem.notMem_of_violated setting.sound setting.nonneg
      (setting.feasible told optimal) violated cut.several
    refine ⟨nodes, selected.append cut fresh, ?_, used⟩
    rw [Problem.script_append]
    exact mirrors
  | false =>
    obtain ⟨same, kept⟩ := called
    rw [← same] at mirrors last
    refine ⟨⟨⟨selected, mirrors, used⟩, last, told⟩, optimal, fun nodes cut => ?_⟩
    -- What the policy does not regard is not above the tolerance.
    have regarded := kept nodes (mem_cutSets.2 cut)
    rw [← Bool.not_eq_true, regards_excessAt setting.policy setting.nonneg] at regarded
    exact not_lt.1 regarded

variable (setting)

/-- Solves and searches take turns, each time with one more row. -/
def invariant {fuel : Nat}
    (enough : allowed .unfinished ∨ (cutSets setting.problem.size).length < fuel) :
    (task setting.backend (cutsOf setting.problem setting.tolerance) setting.policy setting.draw
      fuel).Invariant allowed where
  before count state :=
    ∃ sets, sets.length = count ∧ setting.Stands sets (setting.problem.script sets) state
  solved count answer state := ∃ sets, sets.length = count ∧ setting.HasSolved sets answer state
  passed count answer state := ∃ sets, sets.length = count ∧ setting.HasPassed sets answer state
  solves := by
    rintro count state ⟨sets, length, stands⟩
    exact stands.solve_ensures.mono fun answer after solved => ⟨sets, length, solved⟩
  separates := by
    rintro count answer state ⟨sets, length, solved⟩ optimal
    -- The awaited status is the one of an answer that ends well.
    have optimal : answer.status = .optimal := by
      simpa [Task.isOptimal, task, Status.same, HasStatus.status] using optimal
    refine (solved.separate_ensures optimal enough).mono fun added after separated => ?_
    cases added with
    | true =>
      obtain ⟨nodes, stands⟩ := separated
      exact ⟨sets ++ [nodes], by simp [length], stands⟩
    | false => exact ⟨sets, length, separated⟩

/-- How a run that has added the rows of some sets may have ended. -/
inductive Ended (choices : Choices ℚ) (sets : List (List Nat)) (tree : Tree ℚ Nat)
    (state : Tally × (Rotation ρ × (Relaxation ℚ Nat String × β))) : Prop
  | refused (answer : LpAnswer ℚ) (solved : setting.HasSolved sets answer state)
      (other : answer.status ≠ .optimal) (ending : tree.ending = .ofStatus answer.status)
      (objective : tree.objective = answer.objective)
      (iterations : tree.iterations = sets.length + 1)
  | passed (answer : LpAnswer ℚ) (passed : setting.HasPassed sets answer state)
      (ending : tree.ending = .optimal) (objective : tree.objective = answer.objective)
      (read : collect answer.values (List.range setting.problem.edges.length) choices.integrality 0
        setting.problem.edges ([], []) = .ok (tree.values, tree.edges))
      (iterations : tree.iterations = sets.length + 1)
  | limited (stands : setting.Stands sets (setting.problem.script sets) state)
      (cut : tree.ending.isLimit)
      (limit : 0 < choices.limits.maxIterations ∨ 0 < choices.limits.maxTime)
      (iterations : tree.iterations = sets.length)

variable {setting}

/-- The loop of a run closes in a way that its invariant leaves. -/
theorem loop_ensures {state : Tally × (Rotation ρ × (Relaxation ℚ Nat String × β))}
    (stands : setting.Stands [] (setting.problem.script []) state) (limits : Limits ℚ)
    {clock : Clock κ ℚ} {time : κ} {fuel : Nat}
    (enough : allowed .unfinished ∨ (cutSets setting.problem.size).length < fuel) :
    Action.Ensures ((Supervisor.ofTask (task setting.backend
        (cutsOf setting.problem setting.tolerance) setting.policy setting.draw fuel) limits).solve
        clock fuel) (time, state) allowed
      fun report after => ∃ iterations rowsAdded : Nat, report.iterations = iterations ∧
        report.rowsAdded = rowsAdded ∧ (setting.invariant enough).Closed limits report.ending
          report.objective iterations rowsAdded after.2 := by
  -- Different sets are no more than there are, which bounds the turns.
  have bound : allowed .unfinished ∨ ∀ later state,
      (setting.invariant enough).before later state → later < fuel := by
    refine enough.imp_right fun inside later state => ?_
    rintro ⟨sets, rfl, stands⟩
    have few := stands.selected.length_le
    rw [← length_cutSets] at few
    omega
  exact Supervisor.solve_ensures rfl bound ⟨[], rfl, stands⟩

/-- An answer that has passed has values for all edges. -/
theorem HasPassed.exists_collect {sets : List (List Nat)} {answer : LpAnswer ℚ}
    {state : Tally × (Rotation ρ × (Relaxation ℚ Nat String × β))}
    (passed : setting.HasPassed sets answer state) (tolerance : ℚ) :
    ∃ found, collect answer.values (List.range setting.problem.edges.length) tolerance 0
      setting.problem.edges ([], []) = .ok found := by
  -- Without edges nothing is read, and the point may be anything.
  by_cases empty : setting.problem.edges = []
  · exact ⟨([], []), by rw [empty]; rfl⟩
  · have feasible := setting.feasible passed.solved.told passed.optimal empty
    exact ⟨_, collect_range _ _ (setting.sound.isFeasible_relaxed_iff.1 feasible).1⟩

variable (setting)

/-- A run ends in one of these ways, if the turns suffice. -/
theorem solve_ensures {choices : Choices ℚ} (chosen : choices.policy = .ok setting.policy)
    (tolerant : choices.violation = setting.tolerance) {clock : Clock κ ℚ} {time : κ}
    {generator : ρ} (ready : setting.policy = .shuffled → setting.inUse generator) {fuel : Nat}
    (enough : allowed .unfinished ∨ (cutSets setting.problem.size).length < fuel) :
    Action.Ensures (solve setting.backend setting.problem choices setting.draw clock fuel)
      (RunState.begun time generator setting.start) allowed fun tree after =>
        ∃ sets, setting.problem.IsSelection sets ∧ tree.rowsAdded = sets.length ∧
          setting.Ended choices sets tree after.2 := by
  simp only [solve, RunState.begun, Action.ensures_bind, Action.ensures_onSecond, chosen,
    Action.ofExcept_ok, Action.ensures_pure, tolerant]
  -- The program is built first, and the run begins with no row added to it.
  refine (build_ensures setting.reliable setting.problem).mono ?_
  rintro columns program ⟨rfl, mirrors⟩
  -- Nothing has been added or drawn yet.
  have stands : setting.Stands [] (setting.problem.script [])
      (Tally.zero, Rotation.ofGenerator generator, program) :=
    ⟨⟨List.nodup_nil, by simp⟩, by simpa using mirrors, ready⟩
  -- What the loop leaves is read once more, now for the tree.
  refine (loop_ensures stands choices.limits enough).mono ?_
  rintro ⟨ending, status, objective, _, _, total, solving, separating, rounds⟩ ⟨later, state⟩
    ⟨iterations, rowsAdded, rfl, rfl, closed⟩
  rw [Action.ensures_get, Action.ensures_ofExcept]
  cases closed with
  | @refused count answer state solved other =>
    obtain ⟨sets, rfl, solved⟩ := solved
    rw [treeOf_of_not_optimal _ _ _ (Ending.ofStatus_ne_optimal _)]
    refine ⟨sets, solved.stands.selected, rfl, .refused answer solved ?_ rfl rfl rfl⟩
    simpa [Supervisor.ofTask, Task.isOptimal, task, Status.same, HasStatus.status] using other
  | @passed count answer state passed =>
    obtain ⟨sets, rfl, passed⟩ := passed
    have last : state.2.2.1.last = some answer := passed.solved.last
    -- The values that are read are those of the last answer.
    have values : state.2.2.1.values = answer.values := by simp [Relaxation.values, last]
    obtain ⟨found, read⟩ := passed.exists_collect choices.integrality
    rw [values, treeOf_of_optimal _ _ _ rfl read]
    exact ⟨sets, passed.solved.stands.selected, rfl, .passed answer passed rfl rfl read rfl⟩
  | @limited count ending objective state before cut limit =>
    obtain ⟨sets, length, stands⟩ := before
    -- A limit is no good ending, and leaves no edges.
    have other : ending ≠ .optimal := by
      rintro rfl
      cases cut
    rw [treeOf_of_not_optimal _ _ _ other]
    refine ⟨sets, stands.selected, ?_, .limited stands cut limit ?_⟩
    · simp [length]
    · simp [length]

end Setting

end CuttingPlanes.Spanning
