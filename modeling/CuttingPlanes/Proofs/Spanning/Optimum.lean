import CuttingPlanes.Proofs.Multigraph.Vertex
import CuttingPlanes.Proofs.Spanning.Moderate
import CuttingPlanes.Proofs.Spanning.Run

/-! How a run that ends well is related to the lightest spanning trees of its problem. -/

namespace CuttingPlanes.Spanning

variable {β κ ρ L : Type} {problem : Problem ℚ Nat L}

namespace Problem

/-- A best point of what has been posed costs no more than a spanning tree. -/
theorem IsSound.objective_le_weight (sound : problem.IsSound) {sets : List (List Nat)}
    (cuts : ∀ nodes ∈ sets, IsCutSet problem.size nodes) {values : List ℚ}
    (best : (problem.relaxed sets).IsBest values) {tree : Finset (Fin problem.edges.length)}
    (spanning : sound.network.IsSpanningTree tree) :
    (problem.relaxed sets).objective values ≤ problem.weight tree := by
  -- The tree is one of the points among which the best one has been found.
  obtain ⟨feasible, cost⟩ := sound.isFeasible_indicator cuts spanning
  rw [← cost]
  exact best.least _ feasible

/-- A feasible point that exceeds no cut by more than a slack costs nearly as much as a tree. -/
theorem IsSound.exists_weight_le (sound : problem.IsSound) (connected : sound.IsConnected)
    {sets : List (List Nat)} {slack : ℚ} (nonneg : 0 ≤ slack) {values : List ℚ}
    (feasible : (problem.relaxed sets).isFeasible values = true)
    (kept : ∀ nodes, IsCutSet problem.size nodes →
      (problem.subtourRow nodes).distance values ≤ slack) :
    ∃ tree, sound.network.IsSpanningTree tree ∧
      problem.weight tree - slack * (problem.size / 2) * problem.spread ≤
        (problem.relaxed sets).objective values := by
  -- Rows that were never added are kept as well, which is what the search has found.
  have keeps := sound.isSubtourPoint_of_kept feasible kept
  obtain ⟨low, high, ordered, above, below, spread⟩ := problem.exists_bounds
  obtain ⟨tree, spanning, near⟩ :=
    Multigraph.exists_isSpanningTree_sum_le keeps connected nonneg ordered above below
  refine ⟨tree, spanning, ?_⟩
  rw [objective_relaxed (sound.isFeasible_relaxed_iff.1 feasible).1, spread, weight, mul_div_assoc']
  simpa using near

/-- An extreme point of what has been posed is whole when it exceeds no cut at all. -/
theorem IsSound.whole_of_extreme (sound : problem.IsSound) {sets : List (List Nat)}
    (cuts : ∀ nodes ∈ sets, IsCutSet problem.size nodes)
    {vertex : Fin (problem.relaxed sets).columns.length → ℚ}
    (extreme : vertex ∈
      Set.extremePoints ℚ {point | (problem.relaxed sets).isFeasible (List.ofFn point) = true})
    (keeps : sound.network.IsSubtourPoint 0 (problem.pointOf (List.ofFn vertex)))
    (edge : Fin problem.edges.length) :
    problem.pointOf (List.ofFn vertex) edge = 0 ∨ problem.pointOf (List.ofFn vertex) edge = 1 := by
  by_contra fractional
  -- A part of an edge can be moved both ways inside the polytope, and so inside what is feasible.
  obtain ⟨direction, moves, forth, back⟩ := keeps.exists_direction (not_or.1 fractional)
  have count := (problem.length_columns_relaxed sets).symm
  have same : ∀ position, problem.pointOf (List.ofFn vertex) (Fin.cast count.symm position) =
      vertex position := by
    intro position
    simp [pointOf]
  -- The move of the edges is a move of the columns.
  let step : Fin (problem.relaxed sets).columns.length → ℚ := fun position =>
    direction (Fin.cast count.symm position)
  have up : (problem.relaxed sets).isFeasible (List.ofFn (vertex + step)) = true := by
    have feasible := sound.isFeasible_of_isSubtourPoint cuts forth
    rw [List.ofFn_congr count] at feasible
    simpa [same, step, Pi.add_def] using feasible
  have down : (problem.relaxed sets).isFeasible (List.ofFn (vertex - step)) = true := by
    have feasible := sound.isFeasible_of_isSubtourPoint cuts back
    rw [List.ofFn_congr count] at feasible
    simpa [same, step, Pi.sub_def] using feasible
  -- The point lies in the middle of where the two moves lead.
  have between : vertex ∈ openSegment ℚ (vertex + step) (vertex - step) := by
    refine ⟨1 / 2, 1 / 2, by norm_num, by norm_num, by norm_num, ?_⟩
    funext position
    simp only [Pi.add_apply, Pi.smul_apply, Pi.sub_apply, smul_eq_mul]
    ring
  have still : vertex + step = vertex :=
    (mem_extremePoints_iff_left.1 extreme).2 _ up _ down between
  refine moves (funext fun edge => ?_)
  have zero := congrFun (add_eq_left.1 still) (Fin.cast count edge)
  simpa [step] using zero

/-- A whole point of what has been posed is extreme, since no value can be beyond zero or one. -/
theorem IsSound.extreme_of_whole (sound : problem.IsSound) {sets : List (List Nat)}
    {vertex : Fin (problem.relaxed sets).columns.length → ℚ}
    (feasible : (problem.relaxed sets).isFeasible (List.ofFn vertex) = true)
    (whole : ∀ position, vertex position = 0 ∨ vertex position = 1) :
    vertex ∈
      Set.extremePoints ℚ {point | (problem.relaxed sets).isFeasible (List.ofFn point) = true} := by
  have count := (problem.length_columns_relaxed sets).symm
  have bounds : ∀ point : Fin (problem.relaxed sets).columns.length → ℚ,
      (problem.relaxed sets).isFeasible (List.ofFn point) = true →
      ∀ position, 0 ≤ point position ∧ point position ≤ 1 := by
    intro point inside position
    simpa [pointOf] using (sound.isFeasible_relaxed_iff.1 inside).2.1 (Fin.cast count.symm position)
  refine mem_extremePoints_iff_left.2 ⟨feasible, ?_⟩
  rintro first inside second also ⟨here, there, some, more, all, rfl⟩
  funext position
  have left := bounds first inside position
  have right := bounds second also position
  have mixed := whole position
  simp only [Pi.add_apply, Pi.smul_apply, smul_eq_mul] at mixed ⊢
  rcases mixed with zero | one
  · -- Neither part can be below zero.
    have none : here * first position = 0 := by
      linarith [mul_nonneg some.le left.1, mul_nonneg more.le right.1]
    rw [zero, (mul_eq_zero.1 none).resolve_left some.ne']
  · -- Neither part can fall short.
    have none : here * (1 - first position) = 0 := by
      linarith [mul_nonneg some.le (sub_nonneg.2 left.2), mul_nonneg more.le (sub_nonneg.2 right.2)]
    rw [one, ← sub_eq_zero.1 ((mul_eq_zero.1 none).resolve_left some.ne')]

end Problem

open Problem

/-- A setting that asks nothing but that answers which end well are as promised. -/
def Setting.ofAnswers (sound : problem.IsSound) {backend : Backend β ℚ Nat String} {start : β}
    {promised : List (Call ℚ Nat String) → LpAnswer ℚ → Prop}
    (answers : backend.Answers start problem.Poses promised)
    (feasible : ∀ {sets answer}, promised (problem.additions sets) answer →
      answer.status = .optimal → problem.edges ≠ [] →
      (problem.relaxed sets).isFeasible answer.values = true)
    (policy : Policy) (draw : Random.Draw ρ) {tolerance : ℚ} (nonneg : 0 ≤ tolerance) :
    Setting β ρ L fun _ => True where
  problem := problem
  sound := sound
  backend := backend
  start := start
  reliable _ held _ _ := Action.ensures_trivial _ held
  promised := promised
  answers := answers
  feasible := feasible
  policy := policy
  draw := draw
  inUse _ := True
  serves _ _ generator _ := (Action.ensures_trivial _ generator).mono fun _ _ _ =>
    ⟨trivial, fun _ _ => trivial⟩
  tolerance := tolerance
  nonneg := nonneg

section Optimal

variable {backend : Backend β ℚ Nat String} {start : β}
  {promised : List (Call ℚ Nat String) → LpAnswer ℚ → Prop} {choices : Choices ℚ}
  {draw : Random.Draw ρ} {clock : Clock κ ℚ} {fuel : Nat} {time : κ} {generator : ρ}
  {tree : Tree ℚ Nat}

/-- A run that ends well has ended on a promised answer that exceeds no cut too far. -/
theorem exists_answer_of_optimal (sound : problem.IsSound)
    (answers : backend.Answers start problem.Poses promised)
    (feasible : ∀ {sets answer}, promised (problem.additions sets) answer →
      answer.status = .optimal → problem.edges ≠ [] →
      (problem.relaxed sets).isFeasible answer.values = true)
    (nonneg : 0 ≤ choices.violation)
    (ended : ((solve backend problem choices draw clock fuel).run
      (RunState.begun time generator start)).result = .ok tree)
    (optimal : tree.ending = .optimal) :
    ∃ sets answer, problem.IsSelection sets ∧ answer.status = .optimal ∧
      promised (problem.additions sets) answer ∧
      (∀ nodes, IsCutSet problem.size nodes →
        (problem.subtourRow nodes).distance answer.values ≤ choices.violation) ∧
      tree.objective = answer.objective ∧
      collect answer.values (List.range problem.edges.length) choices.integrality 0 problem.edges
        ([], []) = .ok (tree.values, tree.edges) := by
  cases chosen : choices.policy with
  | error fault =>
    -- A run without a policy gives no tree.
    have never : Action.Ensures (solve backend problem choices draw clock fuel)
        (RunState.begun time generator start) (fun _ => True) fun _ _ => False := by
      simp only [solve, chosen, Action.ofExcept_error, Action.ensures_bind]
      exact (Action.ensures_trivial _ _).mono fun _ _ _ => trivial
    exact (never.of_ok ended).elim
  | ok policy =>
    -- A run with a policy ends in one of three ways, of which only one is a good one.
    let setting := Setting.ofAnswers sound answers feasible policy draw nonneg
    have run : Action.Ensures (solve backend problem choices draw clock fuel)
        (RunState.begun time generator start) (fun _ => True) fun tree after =>
          ∃ sets, problem.IsSelection sets ∧ tree.rowsAdded = sets.length ∧
            setting.Ended choices sets tree after.2 :=
      setting.solve_ensures chosen rfl (fun _ => trivial) (.inl trivial)
    obtain ⟨sets, selected, -, closed⟩ := run.of_ok ended
    cases closed with
    | refused answer solved other ending =>
      exact (Ending.ofStatus_ne_optimal answer.status (ending.symm.trans optimal)).elim
    | passed answer passed ending objective read =>
      exact ⟨sets, answer, selected, passed.optimal, passed.solved.told, passed.kept, objective,
        read⟩
    | limited stands cut =>
      rw [optimal] at cut
      cases cut

/-- A run that ends well reports a cost between the least weight and a little less. -/
theorem objective_of_optimal (sound : problem.IsSound) (connected : sound.IsConnected)
    (answers : backend.Answers start problem.Poses fun calls answer =>
      answer.TellsBest (Call.program calls))
    (nonneg : 0 ≤ choices.violation)
    (ended : ((solve backend problem choices draw clock fuel).run
      (RunState.begun time generator start)).result = .ok tree)
    (optimal : tree.ending = .optimal) :
    ∃ least objective, sound.IsLeastWeight least ∧ tree.objective = some objective ∧
      least - choices.violation * (problem.size / 2) * problem.spread ≤ objective ∧
      objective ≤ least ∧ (choices.violation = 0 → objective = least) ∧
      (problem.size = 1 → objective = 0) := by
  obtain ⟨sets, answer, selected, solved, told, kept, objective, -⟩ :=
    exists_answer_of_optimal sound answers (fun told solved _ => (told solved).1.feasible) nonneg
      ended optimal
  obtain ⟨best, cost⟩ := told solved
  obtain ⟨least, isLeast⟩ := sound.exists_isLeastWeight connected
  obtain ⟨lightest, spanning, rfl⟩ := isLeast.1
  -- No tree is cheaper than the point, and some tree is hardly dearer.
  have above := sound.objective_le_weight selected.cuts best spanning
  obtain ⟨near, spans, below⟩ := sound.exists_weight_le connected nonneg best.feasible kept
  have least : problem.weight lightest ≤ problem.weight near := isLeast.2 ⟨near, spans, rfl⟩
  refine ⟨problem.weight lightest, (problem.relaxed sets).objective answer.values, isLeast,
    objective.trans cost, (sub_le_sub_right least _).trans below, above,
    fun strict => ?_, fun single => ?_⟩
  · rw [strict, zero_mul, zero_mul, sub_zero] at below
    exact le_antisymm above (least.trans below)
  · -- There is no edge that could cost anything.
    have none : IsEmpty (Fin problem.edges.length) := by
      rw [sound.edges_eq_nil single]
      exact Fin.isEmpty
    rw [objective_relaxed (sound.isFeasible_relaxed_iff.1 best.feasible).1, Finset.sum_of_isEmpty]

/-- Every node of the example is joined to the middle one. -/
theorem isConnected_bridged : isSound_bridged.IsConnected := by
  let middle : Fin bridged.size := ⟨1, by decide⟩
  have first : (isSound_bridged.network.joined Finset.univ).Adj ⟨0, by decide⟩ middle :=
    Multigraph.joined_adj.2 ⟨⟨0, by decide⟩, Finset.mem_univ _, rfl⟩
  have last : (isSound_bridged.network.joined Finset.univ).Adj middle ⟨2, by decide⟩ :=
    Multigraph.joined_adj.2 ⟨⟨2, by decide⟩, Finset.mem_univ _, rfl⟩
  -- A graph with a node from which all are reached is connected.
  refine SimpleGraph.connected_iff_exists_forall_reachable _ |>.2 ⟨middle, fun node => ?_⟩
  match node with
  | ⟨0, _⟩ => exact first.symm.reachable
  | ⟨1, _⟩ => exact SimpleGraph.Reachable.refl middle
  | ⟨2, _⟩ => exact last.reachable

/-- The cost that is reported for the example is its least weight. -/
theorem objective_bridged :
    ∃ tree objective, (solvedExactly bridged).result = .ok tree ∧ tree.objective = some objective ∧
      isSound_bridged.IsLeastWeight objective := by
  have ends : (solvedExactly bridged).result.toOption.map Tree.ending = some .optimal := by
    decide +kernel
  obtain ⟨tree, ended, optimal⟩ := exists_tree_of_ending ends
  obtain ⟨least, objective, isLeast, reported, -, -, same, -⟩ :=
    objective_of_optimal isSound_bridged isConnected_bridged
      (isModerate_bridged.tellsBest isSound_bridged (by decide) Linear.simplex_isTrue none)
      le_rfl ended optimal
  exact ⟨tree, objective, ended, reported, by rwa [same rfl]⟩

/-- The edges that a run takes from an extreme point are a lightest spanning tree. -/
theorem tree_of_optimal (sound : problem.IsSound)
    (answers : backend.Answers start problem.Poses fun calls answer =>
      answer.TellsVertex (Call.program calls))
    (strict : choices.violation = 0) (positive : 0 < choices.integrality)
    (below : choices.integrality < 1)
    (ended : ((solve backend problem choices draw clock fuel).run
      (RunState.begun time generator start)).result = .ok tree)
    (optimal : tree.ending = .optimal) :
    ∃ chosen, sound.network.IsSpanningTree chosen ∧ tree.edges = problem.edgesAt chosen ∧
      tree.isIntegral choices.integrality = .ok true ∧
      tree.totalCost = .ok (problem.weight chosen) ∧
      tree.objective = some (problem.weight chosen) ∧
      sound.IsLeastWeight (problem.weight chosen) := by
  obtain ⟨sets, answer, selected, solved, told, kept, objective, read⟩ :=
    exists_answer_of_optimal sound answers
      (fun told solved _ => (told.1 solved).1.feasible) strict.ge ended optimal
  obtain ⟨best, cost⟩ := told.1 solved
  obtain ⟨vertex, values, extreme⟩ := told.2 solved
  have given := (sound.isFeasible_relaxed_iff.1 best.feasible).1
  have keeps := sound.isSubtourPoint_of_kept best.feasible kept
  rw [strict] at keeps
  have whole : ∀ edge, problem.pointOf answer.values edge = 0 ∨
      problem.pointOf answer.values edge = 1 := by
    rw [values] at keeps ⊢
    exact sound.whole_of_extreme selected.cuts extreme keeps
  -- The whole point that was found is a tree.
  have nodes : Nonempty (Fin problem.size) := ⟨⟨0, sound.positive⟩⟩
  have spanning := keeps.isSpanningTree whole
  set chosen := Finset.univ.filter (problem.pointOf answer.values · = 1) with taken
  rw [collect_range _ _ given] at read
  obtain ⟨valued, found⟩ := Prod.mk.inj (Except.ok.inj read)
  have edges : tree.edges = problem.edgesAt chosen :=
    found.symm.trans (edgesAbove_eq_edgesAt positive below whole)
  -- A whole point is worth the edges that it takes.
  have worth : (problem.relaxed sets).objective answer.values = problem.weight chosen := by
    have point : problem.pointOf answer.values = Multigraph.indicator chosen := by
      funext edge
      rcases whole edge with zero | one
      · simp [Multigraph.indicator, taken, zero]
      · simp [Multigraph.indicator, taken, one]
    rw [objective_relaxed given, point, Multigraph.sum_mul_indicator, weight]
  refine ⟨chosen, spanning, edges, ?_, totalCost_edgesAt tree edges, ?_,
    ⟨chosen, spanning, rfl⟩, ?_⟩
  · refine allWhole_of_binary positive.le fun value member => ?_
    obtain ⟨entry, listed, rfl⟩ := List.mem_map.1 member
    rw [← valued] at listed
    -- Every value in the table is that of some edge.
    obtain ⟨pair, among, same⟩ := Association.snd_of_mem_ofPairs listed
    obtain ⟨edge, -, rfl⟩ := List.mem_map.1 among
    rw [same]
    exact whole edge
  · rw [objective, ← worth]
    exact cost
  · rintro _ ⟨other, spans, rfl⟩
    rw [← worth]
    exact sound.objective_le_weight selected.cuts best spans

/-- The cheaper of two edges between the same nodes is the only best point, and an extreme one. -/
theorem tellsVertex_twins :
    (Held.backend Linear.simplex).Answers (Held.empty .least none) twins.Poses fun calls answer =>
      answer.TellsVertex (Call.program calls) := by
  intro calls held reached posed
  refine (isModerate_twins.tellsBest isSound_twins (by decide) Linear.simplex_isTrue none calls held
    reached posed).mono fun answer _ told => ⟨told, fun optimal => ?_⟩
  -- Without cuts there is only one program to be asked about.
  obtain ⟨sets, selected, posed⟩ := posed
  rw [posed, eq_nil_of_isSelection_twins selected] at told ⊢
  have best : (twins.relaxed []).IsBest answer.values := (told optimal).1
  obtain ⟨given, bounds, total, -⟩ := isSound_twins.isFeasible_relaxed_iff.1 best.feasible
  obtain ⟨first, second, values⟩ := List.length_eq_two.1 given
  rw [values] at best bounds total ⊢
  have sum : first + second = 2 - 1 := (Fin.sum_univ_two _).symm.trans total
  -- No better than the cheaper edge alone, the point has nothing of the other edge.
  have cost : 1 * first + (2 * second + 0) ≤ 1 * 1 + (2 * 0 + 0) :=
    best.least [1, 0] (by decide +kernel)
  have nonneg : 0 ≤ second := (bounds ⟨1, by decide⟩).1
  have zero : second = 0 := by linarith
  have one : first = 1 := by linarith
  refine ⟨![first, second], rfl, isSound_twins.extreme_of_whole best.feasible ?_⟩
  intro position
  match position with
  | ⟨0, _⟩ => exact .inr one
  | ⟨1, _⟩ => exact .inl zero

/-- The tree that is reported for two nodes that are joined twice is a lightest one. -/
theorem tree_twins :
    ∃ tree chosen, (solvedExactly twins).result = .ok tree ∧
      isSound_twins.network.IsSpanningTree chosen ∧ tree.edges = twins.edgesAt chosen ∧
      tree.totalCost = .ok (twins.weight chosen) ∧
      isSound_twins.IsLeastWeight (twins.weight chosen) := by
  have ends : (solvedExactly twins).result.toOption.map Tree.ending = some .optimal := by
    decide +kernel
  obtain ⟨tree, ended, optimal⟩ := exists_tree_of_ending ends
  obtain ⟨chosen, spanning, edges, -, cost, -, least⟩ :=
    tree_of_optimal isSound_twins tellsVertex_twins rfl (by decide +kernel) (by decide +kernel)
      ended optimal
  exact ⟨tree, chosen, ended, spanning, edges, cost, least⟩

end Optimal

end CuttingPlanes.Spanning
