import CuttingPlanes.Proofs.Spanning.Moderate
import CuttingPlanes.Proofs.Spanning.Run

/-! What a run without limits says of its problem, connected or not. -/

namespace CuttingPlanes.Spanning

variable {β κ ρ L : Type} {problem : Problem ℚ Nat L}

namespace Problem

/-- The cost of a feasible point cannot fall without end, as every column is bounded. -/
theorem IsSound.exists_le_cost (sound : problem.IsSound) (sets : List (List Nat)) :
    ∃ low, ∀ point, (problem.relaxed sets).isFeasible point = true →
      low ≤ Linear.dot (problem.relaxed sets).minimised point := by
  refine ⟨∑ position, -|problem.costAt position|, fun point feasible => ?_⟩
  obtain ⟨given, bounds, -, -⟩ := sound.isFeasible_relaxed_iff.1 feasible
  change _ ≤ (problem.relaxed sets).objective point
  rw [objective_relaxed given]
  refine Finset.sum_le_sum fun position _ => ?_
  obtain ⟨nonneg, most⟩ := bounds position
  -- A product with a number between zero and one is no larger in size.
  refine (neg_le_neg ?_).trans (neg_abs_le _)
  rw [abs_mul, abs_of_nonneg nonneg]
  exact mul_le_of_le_one_right (abs_nonneg _) most

/-- A true answer without a best point says that there is no point at all, and then no tree. -/
theorem IsSound.infeasible_of_tellsTruth (sound : problem.IsSound) {sets : List (List Nat)}
    (cuts : ∀ nodes ∈ sets, IsCutSet problem.size nodes) {answer : LpAnswer ℚ}
    (told : answer.TellsTruth (problem.relaxed sets)) (other : answer.status ≠ .optimal) :
    answer.status = .infeasible ∧ ¬sound.IsConnected := by
  -- Every status says something of the program that a problem with edges poses.
  unfold LpAnswer.TellsTruth at told
  split at told
  · contradiction
  · refine ⟨‹_›, fun connected => ?_⟩
    obtain ⟨tree, spanning⟩ := Multigraph.exists_isSpanningTree connected
    have feasible := (sound.isFeasible_indicator cuts spanning).1
    rw [told] at feasible
    cases feasible
  · -- Costs that fall without end would fall below their bound.
    obtain ⟨low, bounded⟩ := sound.exists_le_cost sets
    obtain ⟨point, feasible, less⟩ := told low
    exact (not_lt.2 (bounded point feasible) less).elim
  · exact told.elim

/-- A feasible point that exceeds no cut by half an edge connects all nodes. -/
theorem IsSound.connected_of_kept (sound : problem.IsSound) {sets : List (List Nat)} {slack : ℚ}
    (nonneg : 0 ≤ slack) (small : slack < 1 / 2) {values : List ℚ}
    (feasible : (problem.relaxed sets).isFeasible values = true)
    (kept : ∀ nodes, IsCutSet problem.size nodes →
      (problem.subtourRow nodes).distance values ≤ slack) : sound.IsConnected := by
  -- A sound problem has a node.
  have nodes : Nonempty (Fin problem.size) := ⟨⟨0, sound.positive⟩⟩
  -- A part without edges to the rest would hold half an edge too many.
  exact (sound.isSubtourPoint_of_kept feasible kept).connected nonneg small

end Problem

open Problem

/-- An answer of a problem without edges ends well, whatever rows it was asked about. -/
theorem optimal_of_edges_eq_nil {sets : List (List Nat)} {answer : LpAnswer ℚ}
    (told : answer.TellsTruthOfColumns (problem.relaxed sets)) (none : problem.edges = []) :
    answer.status = .optimal := by
  rwa [LpAnswer.TellsTruthOfColumns, if_pos (columns_relaxed_eq_nil.2 none)] at told

/-- An answer of a problem with edges is true of the rows that it was asked about. -/
theorem tellsTruth_of_edges {sets : List (List Nat)} {answer : LpAnswer ℚ}
    (told : answer.TellsTruthOfColumns (problem.relaxed sets)) (some : problem.edges ≠ []) :
    answer.TellsTruth (problem.relaxed sets) := by
  rwa [LpAnswer.TellsTruthOfColumns, if_neg (mt columns_relaxed_eq_nil.1 some)] at told

/-- An answer that ends well on a problem with edges gives a feasible point. -/
theorem isFeasible_of_tellsTruth {sets : List (List Nat)} {answer : LpAnswer ℚ}
    (told : answer.TellsTruth (problem.relaxed sets)) (optimal : answer.status = .optimal) :
    (problem.relaxed sets).isFeasible answer.values = true :=
  (told.tellsBest optimal).1.feasible

/--
A run without limits ends, and tells connected problems from the others.

Only a problem without any edges ends well in either case.
-/
theorem ending_of_unlimited (sound : problem.IsSound) {backend : Backend β ℚ Nat String} {start : β}
    (reliable : backend.FailsOnly (fun _ => False) start)
    (answers : backend.Answers start problem.Poses fun calls answer =>
      answer.TellsTruthOfColumns (Call.program calls))
    {choices : Choices ℚ} {policy : Policy} (chosen : choices.policy = .ok policy)
    (nonneg : 0 ≤ choices.violation) (small : choices.violation < 1 / 2)
    (rounds : choices.limits.maxIterations ≤ 0) (timely : choices.limits.maxTime ≤ 0)
    {draw : Random.Draw ρ} {inUse : ρ → Prop} {generator : ρ}
    (serves : policy = .shuffled → draw.Serves (fun _ => False) inUse ∧ inUse generator)
    (clock : Clock κ ℚ) (time : κ) {fuel : Nat} (enough : 2 ^ problem.size ≤ fuel) :
    ∃ tree, ((solve backend problem choices draw clock fuel).run
        (RunState.begun time generator start)).result = .ok tree ∧
      (sound.IsConnected ∨ problem.edges = [] → tree.ending = .optimal) ∧
      (¬sound.IsConnected → problem.edges ≠ [] → tree.ending = .infeasible) := by
  let setting : Setting β ρ L fun _ => False :=
    { problem, sound, backend, start, reliable, answers, policy, draw, inUse, nonneg
      promised := fun calls answer => answer.TellsTruthOfColumns (Call.program calls)
      feasible := fun told optimal some =>
        isFeasible_of_tellsTruth (tellsTruth_of_edges told some) optimal
      serves := fun shuffled => (serves shuffled).1
      tolerance := choices.violation }
  have run : Action.Ensures (solve backend problem choices draw clock fuel)
      (RunState.begun time generator start) (fun _ => False) fun tree after =>
        ∃ sets, problem.IsSelection sets ∧ tree.rowsAdded = sets.length ∧
          setting.Ended choices sets tree after.2 :=
    setting.solve_ensures chosen rfl (fun shuffled => (serves shuffled).2)
      (.inr (length_cutSets_lt enough))
  obtain ⟨tree, ended, sets, selected, -, closed⟩ := Action.ensures_iff_exists.1 run
  refine ⟨tree, ended, ?_⟩
  -- Only a limit could have cut the run, and there is none.
  cases closed with
  | refused answer solved other ending =>
    have some : problem.edges ≠ [] := fun none => other (optimal_of_edges_eq_nil solved.told none)
    obtain ⟨infeasible, broken⟩ :=
      sound.infeasible_of_tellsTruth selected.cuts (tellsTruth_of_edges solved.told some) other
    rw [infeasible] at ending
    exact ⟨fun either => (either.elim broken some).elim, fun _ _ => ending⟩
  | passed answer passed ending =>
    refine ⟨fun _ => ending, fun broken some => (broken ?_).elim⟩
    exact sound.connected_of_kept nonneg small
      (isFeasible_of_tellsTruth (tellsTruth_of_edges passed.solved.told some) passed.optimal)
      passed.kept
  | limited stands cut limit => exact (limit.elim rounds.not_gt timely.not_gt).elim

/-- The simplex method settles what a moderate problem poses if it always finds something. -/
theorem tellsTruthOfColumns_of_found (sound : problem.IsSound) (moderate : problem.IsModerate)
    (found : ∀ sets, problem.IsSelection sets → Linear.simplex (problem.relaxed sets) ≠ .unknown) :
    (Held.backend Linear.simplex).Answers (Held.empty .least none) problem.Poses
      fun calls answer => answer.TellsTruthOfColumns (Call.program calls) := by
  refine (moderate.answers sound Linear.simplex_isTrue none).imp (fun _ => id) ?_
  rintro calls answer ⟨sets, selected, posed⟩ (told | ⟨-, unknown, -⟩)
  · exact told
  · rw [posed] at unknown
    exact (found sets selected unknown).elim

/-- The rows of different cuts are an arrangement of some of all of them. -/
theorem Problem.IsSelection.mem_arrangements {sets : List (List Nat)}
    (selected : problem.IsSelection sets) :
    sets ∈ (cutSets problem.size).sublists.flatMap List.permutations' := by
  have among : sets ⊆ cutSets problem.size := fun nodes member =>
    mem_cutSets.2 (selected.cuts nodes member)
  -- A part of a list without repetitions is a sublist in some order.
  obtain ⟨chosen, arranged, sublist⟩ := List.subperm_of_subset selected.nodup among
  exact List.mem_flatMap.2 ⟨chosen, List.mem_sublists.2 sublist,
    List.mem_permutations'.2 arranged.symm⟩

/-- The simplex method settles the only program that the example poses. -/
theorem tellsTruthOfColumns_twins :
    (Held.backend Linear.simplex).Answers (Held.empty .least none) twins.Poses fun calls answer =>
      answer.TellsTruthOfColumns (Call.program calls) := by
  refine tellsTruthOfColumns_of_found isSound_twins isModerate_twins fun sets selected => ?_
  -- The program is the only one, as no row is ever added.
  rw [eq_nil_of_isSelection_twins selected]
  decide +kernel

/-- A run on two nodes that are joined twice ends, and ends well. -/
theorem ending_twins :
    ∃ tree, (solvedExactly twins).result = .ok tree ∧
      (isSound_twins.IsConnected ∨ twins.edges = [] → tree.ending = .optimal) ∧
      (¬isSound_twins.IsConnected → twins.edges ≠ [] → tree.ending = .infeasible) :=
  -- A run without limits on the exact solver meets every condition.
  ending_of_unlimited isSound_twins (Held.failsOnly _ _ _) tellsTruthOfColumns_twins rfl le_rfl
    (by decide +kernel) le_rfl le_rfl (fun _ => ⟨serves_plainly, trivial⟩) _ () le_rfl

/-- Two nodes without an edge are not connected, and a run on them ends well all the same. -/
theorem ending_edgeless :
    ((Held.backend Linear.simplex).Answers (Held.empty .least none) edgeless.Poses
        fun calls answer => answer.TellsTruthOfColumns (Call.program calls)) ∧
      ¬isSound_edgeless.IsConnected ∧
      ∃ tree, (solvedExactly edgeless).result = .ok tree ∧ tree.ending = .optimal := by
  refine ⟨fun calls held reached posed => ?_, fun connected => ?_,
    exists_tree_of_ending (by decide +kernel)⟩
  · refine (isModerate_edgeless.answers isSound_edgeless Linear.simplex_isTrue none calls held
      reached posed).mono ?_
    rintro answer - (told | ⟨some, -⟩)
    · exact told
    · obtain ⟨sets, -, posed⟩ := posed
      rw [posed] at some
      exact (some (columns_relaxed_eq_nil.2 rfl)).elim
  · -- A spanning tree would have an edge.
    obtain ⟨tree, spanning⟩ := Multigraph.exists_isSpanningTree connected
    have counted : tree.card + 1 = 2 := spanning.card_add_one
    have none : tree.card ≤ 0 := tree.card_le_univ
    omega

end CuttingPlanes.Spanning
