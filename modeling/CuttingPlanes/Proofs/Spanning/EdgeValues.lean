import CuttingPlanes.Proofs.Spanning.Bound
import CuttingPlanes.Proofs.Spanning.Rounding

/-! The table of edge values by nodes: edges between the same two have one place in it. -/

namespace CuttingPlanes

/-- A number is near its nearest whole number if it is near any. -/
theorem Datum.abs_sub_roundRational_le_iff {q tolerance : ℚ} :
    |q - roundRational q| ≤ tolerance ↔ ∃ whole : ℤ, |q - whole| ≤ tolerance := by
  refine ⟨fun near => ⟨_, near⟩, ?_⟩
  rintro ⟨whole, near⟩
  by_cases same : whole = roundRational q
  · exact same ▸ near
  · -- Another whole number is at least one away from the nearest one, and so a half from `q`.
    have apart : (1 : ℚ) ≤ |(whole : ℚ) - roundRational q| := by
      exact_mod_cast Int.one_le_abs (sub_ne_zero.2 same)
    have close := abs_sub_roundRational_le q
    have sides := abs_sub_abs_le_abs_sub (whole - roundRational q : ℚ) (q - roundRational q)
    rw [sub_sub_sub_cancel_right, abs_sub_comm (whole : ℚ) q] at sides
    linarith

namespace Spanning

variable {β κ ρ L : Type} {problem : Problem ℚ Nat L}

namespace Problem

/-- Of the edges between the same two nodes, one is the last. -/
theorem exists_last (problem : Problem ℚ Nat L) (edge : Fin problem.edges.length) :
    ∃ last, edge ≤ last ∧ (problem.edges.get last).ends = (problem.edges.get edge).ends ∧
      ¬problem.IsRepeated last := by
  classical
  let alike := Finset.univ.filter fun later =>
    (problem.edges.get later).ends = (problem.edges.get edge).ends
  have own : edge ∈ alike := by simp [alike]
  have last := alike.max'_mem ⟨edge, own⟩
  refine ⟨alike.max' ⟨edge, own⟩, alike.le_max' edge own, (Finset.mem_filter.1 last).2, ?_⟩
  rintro ⟨later, behind, same⟩
  refine (alike.le_max' later ?_).not_gt behind
  exact Finset.mem_filter.2 ⟨Finset.mem_univ later, same.trans (Finset.mem_filter.1 last).2⟩

/-- Edges that are not repeated do not join the same two nodes. -/
theorem eq_of_ends_eq {first second : Fin problem.edges.length}
    (one : ¬problem.IsRepeated first) (other : ¬problem.IsRepeated second)
    (same : (problem.edges.get first).ends = (problem.edges.get second).ends) : first = second := by
  rcases lt_trichotomy first second with before | equal | behind
  · exact (one ⟨second, before, same.symm⟩).elim
  · exact equal
  · exact (other ⟨first, behind, same⟩).elim

open Classical in
/-- The edges that are not repeated. -/
noncomputable def lastEdges (problem : Problem ℚ Nat L) : Finset (Fin problem.edges.length) :=
  Finset.univ.filter fun edge => ¬problem.IsRepeated edge

theorem mem_lastEdges {edge : Fin problem.edges.length} :
    edge ∈ problem.lastEdges ↔ ¬problem.IsRepeated edge := by
  simp [lastEdges]

/-- The nodes of an edge find the value of the last edge between them. -/
theorem find?_table (point : Fin problem.edges.length → ℚ) {edge last : Fin problem.edges.length}
    (same : (problem.edges.get last).ends = (problem.edges.get edge).ends)
    (final : ¬problem.IsRepeated last) :
    Association.find? (problem.edges.get edge).ends
      (Association.ofPairs (valuesOf problem.edges point)) = some (point last) := by
  rw [← same, Association.find?_ofPairs]
  exact find?_valuesOf point fun later behind equal => final ⟨later, behind, equal⟩

/-- The table has an entry for each edge that is not repeated, with the value of this edge. -/
theorem perm_table (problem : Problem ℚ Nat L) (point : Fin problem.edges.length → ℚ) :
    (Association.ofPairs (valuesOf problem.edges point)).Perm
      (problem.lastEdges.toList.map fun edge => ((problem.edges.get edge).ends, point edge)) := by
  have keys := Association.nodup_ofPairs (valuesOf problem.edges point)
  -- Edges that are not repeated have different entries, as they have different nodes.
  have apart : (problem.lastEdges.toList.map fun edge =>
      ((problem.edges.get edge).ends, point edge)).Nodup := by
    refine problem.lastEdges.nodup_toList.map_on fun first one second other same => ?_
    rw [Finset.mem_toList, mem_lastEdges] at one other
    exact eq_of_ends_eq one other (congrArg Prod.fst same)
  refine (List.perm_ext_iff_of_nodup keys.of_map apart).2 fun entry => ?_
  rw [Association.mem_iff_find? keys, List.mem_map]
  constructor
  · intro found
    -- What is found under some nodes is the value of the last edge between them.
    have listed := found
    rw [Association.find?_ofPairs] at listed
    obtain ⟨pair, listed, -⟩ := Option.map_eq_some_iff.1 listed
    obtain ⟨edge, -, rfl⟩ :=
      List.mem_map.1 (List.mem_reverse.1 (List.mem_of_find?_eq_some listed))
    have ends : (problem.edges.get edge).ends = entry.1 := by
      simpa [Edge.ends] using List.find?_some listed
    obtain ⟨last, -, same, final⟩ := problem.exists_last edge
    rw [← ends, find?_table point same final] at found
    exact ⟨last, Finset.mem_toList.2 (mem_lastEdges.2 final),
      Prod.ext (same.trans ends) (Option.some.inj found)⟩
  · rintro ⟨last, listed, rfl⟩
    exact find?_table point rfl (mem_lastEdges.1 (Finset.mem_toList.1 listed))

/-- The values in the table are those of the edges that are not repeated. -/
theorem mem_values_iff {point : Fin problem.edges.length → ℚ} {value : ℚ} :
    value ∈ (Association.ofPairs (valuesOf problem.edges point)).map Prod.snd ↔
      ∃ edge, ¬problem.IsRepeated edge ∧ point edge = value := by
  rw [((problem.perm_table point).map Prod.snd).mem_iff, List.map_map]
  simp [mem_lastEdges]

/-- The values in the table make up the total of the edges that are not repeated. -/
theorem sum_table (problem : Problem ℚ Nat L) (point : Fin problem.edges.length → ℚ) :
    ((Association.ofPairs (valuesOf problem.edges point)).map Prod.snd).sum =
      ∑ edge ∈ problem.lastEdges, point edge := by
  rw [((problem.perm_table point).map Prod.snd).sum_eq, List.map_map]
  exact Finset.sum_map_toList problem.lastEdges point

/-- How the table that a run ends with stands to the values that an answer gives the edges. -/
structure ShowsValues (problem : Problem ℚ Nat L) (point : Fin problem.edges.length → ℚ)
    (tree : Tree ℚ Nat) : Prop where
  /-- An edge finds the value of the last edge between its nodes, named in the same order. -/
  last : ∀ edge, ∃ last, edge ≤ last ∧
    (problem.edges.get last).ends = (problem.edges.get edge).ends ∧ ¬problem.IsRepeated last ∧
    Association.find? (problem.edges.get edge).ends tree.values = some (point last)
  own_iff : (∀ edge, Association.find? (problem.edges.get edge).ends tree.values =
      some (point edge)) ↔
    ∀ edge other, (problem.edges.get edge).ends = (problem.edges.get other).ends →
      point edge = point other
  /-- What repeated edges have is missing from the total of all edges. -/
  total : problem.edges ≠ [] →
    (tree.values.map Prod.snd).sum = problem.size - 1 - ∑ edge ∈ problem.lastEdgesᶜ, point edge
  /-- Without edges no value is shown, whatever the number of nodes. -/
  none : problem.edges = [] → tree.values = []
  whole_iff : ∀ tolerance, tree.isIntegral tolerance = .ok true ↔
    ∀ edge, ¬problem.IsRepeated edge → ∃ whole : ℤ, |point edge - whole| ≤ tolerance

/-- A table that is read off a point shows the values of the point. -/
theorem showsValues_of_table {point : Fin problem.edges.length → ℚ} {tree : Tree ℚ Nat}
    (table : tree.values = Association.ofPairs (valuesOf problem.edges point))
    (total : problem.edges ≠ [] → ∑ edge, point edge = problem.size - 1) :
    problem.ShowsValues point tree := by
  have last : ∀ edge, ∃ last, edge ≤ last ∧
      (problem.edges.get last).ends = (problem.edges.get edge).ends ∧ ¬problem.IsRepeated last ∧
      Association.find? (problem.edges.get edge).ends tree.values = some (point last) := by
    intro edge
    obtain ⟨last, behind, same, final⟩ := problem.exists_last edge
    exact ⟨last, behind, same, final, table ▸ find?_table point same final⟩
  refine ⟨last, ⟨fun own edge other same => ?_, fun equal edge => ?_⟩, ?_, ?_, ?_⟩
  · -- The two look up the same value, as they have the same nodes.
    have first := own edge
    rw [same, own other] at first
    exact (Option.some.inj first).symm
  · obtain ⟨last, -, same, -, found⟩ := last edge
    rw [found, equal last edge same]
  · intro edges
    rw [table, sum_table, ← total edges, eq_sub_iff_add_eq]
    exact Finset.sum_add_sum_compl problem.lastEdges point
  · intro none
    rw [table, valuesOf, List.finRange_eq_nil_iff.2 (by simp [none])]
    rfl
  · intro tolerance
    rw [Tree.isIntegral, allWhole_rat, table]
    simp only [Except.ok.injEq, decide_eq_true_eq, Datum.abs_sub_roundRational_le_iff,
      mem_values_iff]
    refine ⟨fun near edge final => near _ ⟨edge, final, rfl⟩, fun near value found => ?_⟩
    obtain ⟨edge, final, rfl⟩ := found
    exact near edge final

end Problem

section Run

variable {backend : Backend β ℚ Nat String} {start : β} {choices : Choices ℚ}
  {promised : List (Call ℚ Nat String) → LpAnswer ℚ → Prop}
  {draw : Random.Draw ρ} {clock : Clock κ ℚ} {fuel : Nat} {time : κ} {generator : ρ}
  {tree : Tree ℚ Nat} {after : RunState κ ρ β ℚ Nat String}

/-- A run goes on asking about cuts, and passes with the last answer if it ended well. -/
def answering (answers : backend.Answers start problem.PosesCuts promised) (tolerance : ℚ)
    (policy : Policy) (draw : Random.Draw ρ) (fuel : Nat) :
    (task backend (cutsOf problem tolerance) policy draw fuel).Invariant fun _ => True where
  before _ state := HasPosed backend start problem state
  solved _ answer state := HasPosed backend start problem state ∧
    state.2.2.1.last = some answer ∧ ∃ calls, problem.PosesCuts calls ∧ promised calls answer
  passed _ answer state := answer.status = .optimal ∧ state.2.2.1.last = some answer ∧
    ∃ calls, problem.PosesCuts calls ∧ promised calls answer
  solves posed := posed.solve_ensures answers
  separates := by
    rintro count answer state ⟨posed, last, told⟩ optimal
    have optimal : answer.status = .optimal := by
      simpa [Task.isOptimal, task, Status.same, HasStatus.status] using optimal
    refine (posed.separate_ensures last tolerance policy draw fuel).mono ?_
    rintro (_ | _) after ⟨posed, still⟩
    · exact ⟨optimal, still rfl, told⟩
    · exact posed

/-- The last values of a run that ends well are those of an answer that ended well. -/
theorem exists_answer_of_values (answers : backend.Answers start problem.PosesCuts promised)
    (ran : (solve backend problem choices draw clock fuel).ends
      (RunState.begun time generator start) = (.ok tree, after))
    (optimal : tree.ending = .optimal) :
    ∃ answer calls, answer.status = .optimal ∧ problem.PosesCuts calls ∧ promised calls answer ∧
      after.values = answer.values := by
  have ensured : Action.Ensures (solve backend problem choices draw clock fuel)
      (RunState.begun time generator start) (fun _ => True) fun tree after =>
        tree.ending = .optimal → ∃ answer calls, answer.status = .optimal ∧
          problem.PosesCuts calls ∧ promised calls answer ∧ after.values = answer.values := by
    simp only [solve, RunState.begun, Action.ensures_bind, Action.ensures_onSecond,
      Action.ensures_ofExcept]
    refine (build_ensures backend.failsOnly_trivial problem).mono ?_
    rintro columns program ⟨rfl, mirrors⟩
    cases choices.policy with
    | error fault => trivial
    | ok policy =>
    have begun : (answering answers choices.violation policy draw fuel).before 0
        (Tally.zero, Rotation.ofGenerator generator, program) :=
      ⟨problem.additions [], ⟨[], by simp, by simp [Problem.additions]⟩, mirrors⟩
    refine (Supervisor.solve_ensures rfl (.inl trivial) begun).mono ?_
    rintro ⟨ending, status, objective, _, _, total, solving, separating, rounds⟩ ⟨later, state⟩
      ⟨iterations, rowsAdded, -, -, closed⟩
    rw [Action.ensures_get]
    split
    · rename_i tree made
      obtain ⟨found, rfl, -⟩ := exists_of_treeOf made
      intro (ended : ending = .optimal)
      -- Only an answer that ended well and was found to exceed nothing ends a run well.
      cases closed with
      | refused solved other => exact (Ending.ofStatus_ne_optimal _ ended).elim
      | @passed count answer state passed =>
        obtain ⟨solved, last, calls, cuts, told⟩ := passed
        refine ⟨answer, calls, solved, cuts, told, ?_⟩
        rw [RunState.values, Relaxation.values, last]
      | limited before cut limit =>
        rw [ended] at cut
        cases cut
    · trivial
  obtain ⟨given, rfl⟩ := Prod.mk.inj ran
  exact ensured.of_ok given optimal

/--
A run that ends well shows, for every edge, the value of the last edge between the same two nodes.

Every edge has its own value under its nodes just if edges with the same nodes have equal values.
-/
theorem showsValues_of_solve (sound : problem.IsSound)
    (answers : backend.Answers start problem.PosesCuts fun calls answer =>
      answer.status = .optimal → (Call.program calls).columns ≠ [] →
        (Call.program calls).isFeasible answer.values = true)
    (ran : (solve backend problem choices draw clock fuel).ends
      (RunState.begun time generator start) = (.ok tree, after))
    (optimal : tree.ending = .optimal) :
    problem.ShowsValues (problem.pointOf after.values) tree := by
  have read := collect_of_solve ran optimal
  rw [collect_range_of_le _ _ (length_le_of_collect read)] at read
  refine Problem.showsValues_of_table (Prod.mk.inj (Except.ok.inj read)).1.symm fun edges => ?_
  -- The last values are feasible, and so keep the row of the number of edges.
  obtain ⟨answer, calls, solved, ⟨sets, cuts, rfl⟩, told, same⟩ :=
    exists_answer_of_values answers ran optimal
  rw [same]
  have feasible := told solved (mt Problem.columns_relaxed_eq_nil.1 edges)
  exact (sound.isFeasible_relaxed_iff.1 feasible).2.2.1

end Run

/-- The table of two edges between the same nodes shows the value of the later one. -/
theorem showsValues_twins :
    ∃ tree after, endedExactly twins (1 / 1000) = (.ok tree, after) ∧ tree.ending = .optimal ∧
      after.values = [1, 0] ∧ twins.ShowsValues (twins.pointOf after.values) tree := by
  obtain ⟨tree, ended, optimal, -, -⟩ := exists_tree_of_seen
    (by decide +kernel : (endedExactly twins (1 / 1000)).1.toOption.map (fun tree =>
      (tree.ending, tree.edges.length, (tree.isIntegral (1 / 1000)).toOption)) =
        some (.optimal, 1, some true))
  have ran : endedExactly twins (1 / 1000) = (.ok tree, (endedExactly twins (1 / 1000)).2) :=
    Prod.ext ended rfl
  refine ⟨tree, _, ran, optimal, by decide +kernel, showsValues_of_solve isSound_twins ?_ ran
    optimal⟩
  -- An exact solver finds best points, which are feasible.
  refine (isModerate_twins.tellsOnlyBest isSound_twins (by decide) Linear.simplex_isTrue
    none).imp (fun _ => id) ?_
  exact fun calls answer _ told optimal _ => (told.best optimal).1.feasible

/-- The cheaper of two edges between the same nodes has value one, and finds the other value. -/
theorem earlier_value_is_overwritten :
    ∃ tree after, endedExactly twins (1 / 1000) = (.ok tree, after) ∧ tree.ending = .optimal ∧
      after.values = [1, 0] ∧ tree.values = [((0, 1), 0)] ∧
      Association.find? (twins.edges.get ⟨0, by decide⟩).ends tree.values ≠
        some (twins.pointOf after.values ⟨0, by decide⟩) ∧
      (tree.values.map Prod.snd).sum ≠ twins.size - 1 := by
  have seen : (endedExactly twins (1 / 1000)).1.toOption.map (fun tree =>
      (tree.ending, tree.values)) = some (.optimal, [((0, 1), 0)]) := by decide +kernel
  have values : (endedExactly twins (1 / 1000)).2.values = [1, 0] := by decide +kernel
  cases ended : (endedExactly twins (1 / 1000)).1 with
  | error cause =>
    rw [ended] at seen
    cases seen
  | ok tree =>
    rw [ended] at seen
    obtain ⟨optimal, table⟩ := Prod.mk.inj (Option.some.inj seen)
    refine ⟨tree, _, Prod.ext ended rfl, optimal, values, table, ?_, ?_⟩
    · rw [values, table]
      decide +kernel
    · rw [table]
      decide +kernel

end Spanning

end CuttingPlanes
