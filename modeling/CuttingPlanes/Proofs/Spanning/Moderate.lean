import CuttingPlanes.Proofs.Relaxation.Held
import CuttingPlanes.Proofs.Spanning.Separation

/-! Problems with moderate costs, which an exact solver takes as they are. -/

namespace CuttingPlanes.Spanning

namespace Problem

variable {L : Type} {problem : Problem ℚ Nat L}

/-- No cost counts as infinite, and neither does the number of nodes. -/
structure IsModerate (problem : Problem ℚ Nat L) : Prop where
  cost : ∀ edge ∈ problem.edges, Held.IsModerate edge.cost
  size : Held.IsModerate problem.size

/-- A row of ones at different known positions is kept. -/
theorem isKept_rowOver {positions : List Nat} {count : Nat}
    (known : ∀ position ∈ positions, position < count) (nodup : positions.Nodup) (sense : Sense)
    {rhs : ℚ} (moderate : Held.IsModerate rhs) (name : String) :
    (rowOver positions sense rhs name).IsKept count := by
  refine ⟨?_, ?_, ?_, moderate⟩
  · simpa [rowOver] using known
  · -- A coefficient of one is neither dropped nor too great.
    simp [rowOver, Held.tiny, Held.greatestCoefficient]
    norm_num
  · simpa [rowOver, Function.comp_def] using nodup

/-- All columns are told before the first row. -/
theorem length_edges_le {sets : List (List Nat)} {before : List (Call ℚ Nat String)}
    {row : Row ℚ Nat String} (within : before ++ [.row row] <+: problem.additions sets) :
    problem.edges.length ≤ (Call.columns before).length := by
  -- The columns of the edges begin everything that is added.
  have first : problem.edges.map (Call.column ∘ edgeColumn) <+: problem.additions sets :=
    List.prefix_append _ _
  have absent : Call.row row ∉ problem.edges.map (Call.column ∘ edgeColumn) := by simp
  -- No row is among them, so that they end before the first row.
  have told : problem.edges.map (Call.column ∘ edgeColumn) <+: before := by
    rcases List.prefix_or_prefix_of_prefix first within with ahead | behind
    · rcases List.prefix_concat_iff.1 ahead with all | ahead
      · exact (absent (by rw [all]; simp)).elim
      · exact ahead
    · exact (absent (behind.subset (by simp))).elim
  obtain ⟨others, rfl⟩ := told
  simp

/-- Everything that is told of a moderate problem is kept. -/
theorem IsModerate.allKept (moderate : problem.IsModerate) (sound : problem.IsSound)
    {sets : List (List Nat)} (cuts : ∀ nodes ∈ sets, IsCutSet problem.size nodes) :
    Call.AllKept (problem.additions sets) := by
  -- Right sides lie between zero and the number of nodes.
  have small : ∀ count : Nat, 1 ≤ count → count ≤ problem.size →
      Held.IsModerate ((count : ℚ) - 1) := by
    intro count some few
    have least : (1 : ℚ) ≤ count := by exact_mod_cast some
    have most : (count : ℚ) ≤ problem.size := by exact_mod_cast few
    exact ⟨by linarith [Held.isModerate_zero.1], by linarith [moderate.size.2]⟩
  intro before call within
  have member : call ∈ problem.additions sets := within.subset (by simp)
  cases call with
  | column added =>
    obtain ⟨edge, listed, rfl⟩ : ∃ edge ∈ problem.edges, edgeColumn edge = added := by
      simpa [additions] using member
    exact ⟨moderate.cost edge listed, Held.isModerate_zero, by
      simpa [edgeColumn] using Held.isModerate_one⟩
  | row added =>
    have count := length_edges_le within
    have either : added = problem.cardinalityRow ∨
        ∃ nodes ∈ sets, problem.subtourRow nodes = added := by
      simpa [additions] using member
    rcases either with rfl | ⟨nodes, listed, rfl⟩
    · refine isKept_rowOver (fun position inside => ?_) List.nodup_range _ ?_ _
      · exact (List.mem_range.1 inside).trans_le count
      · rw [sound.labelled]
        exact small _ sound.positive le_rfl
    · have cut := cuts nodes listed
      refine isKept_rowOver (fun position inside => ?_) (problem.nodup_innerPositions nodes) _ ?_ _
      · exact (problem.lt_of_mem_innerPositions inside).trans_le count
      · exact small _ (by have := cut.several; omega) cut.proper.le
  | solve => trivial

/-- What is said of a moderate problem with the rows of cuts is true, if anything has been found. -/
theorem IsModerate.answers_of_cuts (moderate : problem.IsModerate) (sound : problem.IsSound)
    {solver : Linear.Solver} (truthful : ∀ program, (solver program).IsTrue program)
    (timeLimit : Option ℚ) :
    (Held.backend solver).Answers (Held.empty .least timeLimit) problem.PosesCuts
      fun calls answer =>
        answer.TellsTruthOfColumns (Call.program calls) ∨ (Call.program calls).columns ≠ [] ∧
          solver (Call.program calls) = .unknown ∧ answer.status = .error := by
  -- All that is ever asked has been kept as it was told.
  refine Held.answers_of_isTrue truthful (fun calls posed => ?_) timeLimit
  obtain ⟨sets, cuts, rfl⟩ := posed
  exact moderate.allKept sound cuts

/-- What is said of a moderate problem is true, unless nothing has been found. -/
theorem IsModerate.answers (moderate : problem.IsModerate) (sound : problem.IsSound)
    {solver : Linear.Solver} (truthful : ∀ program, (solver program).IsTrue program)
    (timeLimit : Option ℚ) :
    (Held.backend solver).Answers (Held.empty .least timeLimit) problem.Poses fun calls answer =>
      answer.TellsTruthOfColumns (Call.program calls) ∨ (Call.program calls).columns ≠ [] ∧
        solver (Call.program calls) = .unknown ∧ answer.status = .error :=
  (moderate.answers_of_cuts sound truthful timeLimit).imp (fun _ => Poses.posesCuts)
    fun _ _ _ told => told

/-- Only answers that end well give costs for a moderate problem with edges, and best points. -/
theorem IsModerate.tellsOnlyBest (moderate : problem.IsModerate) (sound : problem.IsSound)
    (some : problem.edges ≠ []) {solver : Linear.Solver}
    (truthful : ∀ program, (solver program).IsTrue program) (timeLimit : Option ℚ) :
    (Held.backend solver).Answers (Held.empty .least timeLimit) problem.PosesCuts
      fun calls answer => answer.TellsOnlyBest (Call.program calls) := by
  -- An exact solver is asked about its model, whatever has been told of it.
  have solved : (Held.backend solver).Answers (Held.empty .least timeLimit) problem.PosesCuts
      fun _ answer => ∀ cost ∈ answer.objective, answer.status = .optimal := by
    intro calls held _ _
    simpa [Backend.ask, Held.backend] using Held.optimal_of_objective held _ _
  refine ((moderate.answers_of_cuts sound truthful timeLimit).and solved).imp (fun _ => id) ?_
  rintro calls answer ⟨sets, -, posed⟩ ⟨told | ⟨-, -, failed⟩, solved⟩
  · -- With edges there are columns, and nothing is called solved for want of them.
    have columns : (Call.program calls).columns ≠ [] := by
      rw [posed]
      exact mt columns_relaxed_eq_nil.1 some
    rw [LpAnswer.TellsTruthOfColumns, if_neg columns] at told
    exact ⟨told.tellsBest, solved⟩
  · refine ⟨fun optimal => ?_, solved⟩
    rw [failed] at optimal
    cases optimal

/-- Answers about a moderate problem with edges that end well give best points. -/
theorem IsModerate.tellsBest (moderate : problem.IsModerate) (sound : problem.IsSound)
    (some : problem.edges ≠ []) {solver : Linear.Solver}
    (truthful : ∀ program, (solver program).IsTrue program) (timeLimit : Option ℚ) :
    (Held.backend solver).Answers (Held.empty .least timeLimit) problem.Poses fun calls answer =>
      answer.TellsBest (Call.program calls) :=
  (moderate.tellsOnlyBest sound some truthful timeLimit).imp (fun _ => Poses.posesCuts)
    fun _ _ _ told => told.best

end Problem

/-- A run without limits and tolerance, with the first violated cut from a drawn place on. -/
def solvedPlainly {β : Type} (backend : Backend β ℚ Nat String) (start : β)
    (problem : Problem ℚ Nat Nat) : Outcome (RunState Unit Unit β ℚ Nat String) (Tree ℚ Nat) :=
  (solve backend problem ⟨Limits.none, .ok .shuffled, 0, 1 / 2⟩ (fun last => pure (.int last))
    (fun time => (0, time)) (2 ^ problem.size)).run (RunState.begun () () start)

/-- A run of an exact solver. -/
abbrev solvedExactly :
    Problem ℚ Nat Nat → Outcome (RunState Unit Unit (Held ℚ) ℚ Nat String) (Tree ℚ Nat) :=
  solvedPlainly (Held.backend Linear.simplex) (Held.empty .least none)

/-- The draws of these runs are whole numbers. -/
theorem serves_plainly :
    Random.Draw.Serves (fun last => pure (.int last) : Random.Draw Unit) (fun _ => False)
      fun _ => True := by
  intro count generator _
  -- The last allowed number is drawn every time.
  rw [Action.ensures_pure]
  exact ⟨trivial, fun fault failed => by cases failed⟩

/-- Two nodes that are joined twice. -/
def twins : Problem ℚ Nat Nat := ⟨2, [⟨0, 1, 1⟩, ⟨0, 1, 2⟩], .listed [0, 1], .nothing⟩

theorem isSound_twins : twins.IsSound := ⟨by decide, by decide, by decide, by decide, rfl⟩

/-- No set of nodes of the pair is considered for a cut. -/
theorem eq_nil_of_isSelection_twins {sets : List (List Nat)} (selected : twins.IsSelection sets) :
    sets = [] := by
  refine List.eq_nil_iff_forall_not_mem.2 fun nodes member => ?_
  -- A cut would need at least two nodes and fewer than two.
  have cut := selected.cuts nodes member
  exact absurd cut.proper (not_lt.2 cut.several)

theorem isModerate_twins : twins.IsModerate := ⟨by decide +kernel, by decide +kernel⟩

/-- Two nodes that are joined twice, and a third node that is joined to one of them. -/
def bridged : Problem ℚ Nat Nat :=
  ⟨3, [⟨0, 1, 1⟩, ⟨0, 1, 2⟩, ⟨1, 2, 5⟩], .listed [0, 1, 2], .nothing⟩

theorem isSound_bridged : bridged.IsSound := ⟨by decide, by decide, by decide, by decide, rfl⟩

theorem isModerate_bridged : bridged.IsModerate := ⟨by decide +kernel, by decide +kernel⟩

/-- Two nodes that nothing joins. -/
def edgeless : Problem ℚ Nat Nat := ⟨2, [], .listed [0, 1], .nothing⟩

theorem isSound_edgeless : edgeless.IsSound := ⟨by decide, by decide, by decide, by decide, rfl⟩

theorem isModerate_edgeless : edgeless.IsModerate := ⟨by decide +kernel, by decide +kernel⟩

/-- A result whose ending is known is a tree. -/
theorem exists_tree_of_ending {result : Except Interrupt (Tree ℚ Nat)} {ending : Ending}
    (ended : result.toOption.map Tree.ending = some ending) :
    ∃ tree, result = .ok tree ∧ tree.ending = ending := by
  -- A run without a tree has no ending to know.
  cases result with
  | ok tree => exact ⟨tree, rfl, by simpa [Except.toOption] using ended⟩
  | error cause => simp [Except.toOption] at ended

end CuttingPlanes.Spanning
