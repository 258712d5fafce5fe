import CuttingPlanes.Proofs.Association
import CuttingPlanes.Proofs.Exact
import CuttingPlanes.Proofs.Spanning.Relaxed
import CuttingPlanes.Spanning.Solve

/-! The tree that is read off the values of the edges. -/

namespace CuttingPlanes.Spanning

/-- The value of each edge under its two nodes. -/
def valuesOf (edges : List (Edge Nat ℚ)) (value : Fin edges.length → ℚ) : List ((Nat × Nat) × ℚ) :=
  (List.finRange edges.length).map fun later =>
    (((edges.get later).left, (edges.get later).right), value later)

/-- The edges whose values are above a threshold. -/
def edgesAbove (threshold : ℚ) (edges : List (Edge Nat ℚ)) (value : Fin edges.length → ℚ) :
    List (Edge Nat ℚ) :=
  ((List.finRange edges.length).filter fun later => threshold < value later).map fun later =>
    edges.get later

theorem valuesOf_cons (edge : Edge Nat ℚ) (rest : List (Edge Nat ℚ))
    (value : Fin (edge :: rest).length → ℚ) :
    valuesOf (edge :: rest) value =
      ((edge.left, edge.right), value 0) :: valuesOf rest fun later => value later.succ := by
  simp [valuesOf, List.finRange_succ, Function.comp_def]

theorem edgesAbove_cons (threshold : ℚ) (edge : Edge Nat ℚ) (rest : List (Edge Nat ℚ))
    (value : Fin (edge :: rest).length → ℚ) :
    edgesAbove threshold (edge :: rest) value =
      (if threshold < value 0 then [edge] else []) ++
        edgesAbove threshold rest fun later => value later.succ := by
  by_cases above : threshold < value 0 <;>
    simp [edgesAbove, List.finRange_succ, List.filter_map, Function.comp_def, above]

/-- Edges are collected one after another, each with the value of its own column. -/
theorem collect_eq (values : List ℚ) (columns : List Nat) (tolerance : ℚ) (position : Nat)
    (edges : List (Edge Nat ℚ)) (known : List ((Nat × Nat) × ℚ)) (taken : List (Edge Nat ℚ))
    (numbered : ∀ later < edges.length, columns[position + later]? = some (position + later))
    (given : position + edges.length ≤ values.length) :
    collect values columns tolerance position edges (known, taken) =
      .ok ((valuesOf edges fun later => values.getD (position + later) 0).foldl
          (fun entries pair => Association.insert pair.1 pair.2 entries) known,
        taken ++ edgesAbove (1 - tolerance) edges fun later =>
          values.getD (position + later) 0) := by
  -- The position goes along with the edges that are left.
  induction edges generalizing position known taken with
  | nil => simp [collect, valuesOf, edgesAbove]
  | cons edge rest ih =>
    have here := numbered 0 (by simp)
    rw [List.length_cons] at given
    have inside : position < values.length := by omega
    have item : itemAt values position = .ok values[position] := by
      rw [itemAt_nat, List.getElem?_eq_getElem inside]
    -- The rest starts one position later, with columns and values there.
    have behind := fun known taken => ih (position + 1) known taken (fun later more => by
      simpa [Nat.add_assoc, Nat.add_comm 1] using numbered (later + 1) (by simpa using more))
      (by omega)
    have next : ∀ later : Fin rest.length, position + later.succ.val = position + 1 + later := by
      intro later
      rw [Fin.val_succ]
      omega
    rw [Nat.add_zero] at here
    simp only [collect, here, item, behind, bind, Except.bind, pure, Except.pure, Scalar.sub_rat,
      Scalar.ofRat_rat, Scalar.order_rat, Relation.between, valuesOf_cons, edgesAbove_cons, next]
    -- The edge is taken when its value is above the threshold, and kept in the table anyway.
    by_cases above : 1 - tolerance < values[position] <;>
      simp [above, List.getElem?_eq_getElem inside]

/-- Edges can only be collected where there is a value for each of them. -/
theorem lt_length_of_collect {values : List ℚ} {columns : List Nat} {tolerance : ℚ} {position : Nat}
    {edges : List (Edge Nat ℚ)} {known found : List ((Nat × Nat) × ℚ) × List (Edge Nat ℚ)}
    (numbered : ∀ later < edges.length, columns[position + later]? = some (position + later))
    (read : collect values columns tolerance position edges known = .ok found) :
    ∀ later < edges.length, position + later < values.length := by
  induction edges generalizing position known with
  | nil => exact fun later none => absurd none (Nat.not_lt_zero later)
  | cons edge rest ih =>
    have here := numbered 0 (by simp)
    rw [Nat.add_zero] at here
    have inside : position < values.length := by
      -- A position without a value would have been refused.
      by_contra beyond
      have refused : itemAt values position = .error .outOfRange := by
        rw [itemAt_nat, List.getElem?_eq_none (not_lt.1 beyond)]
      simp [collect, here, refused, bind, Except.bind, pure, Except.pure] at read
    have item : itemAt values position = .ok values[position] := by
      rw [itemAt_nat, List.getElem?_eq_getElem inside]
    simp only [collect, here, item, bind, Except.bind, pure, Except.pure, Scalar.sub_rat,
      Scalar.order_rat] at read
    have behind := ih (fun later more => by
      simpa [Nat.add_assoc, Nat.add_comm 1] using numbered (later + 1) (by simpa using more)) read
    intro later listed
    cases later with
    | zero => exact inside
    | succ later => simpa [Nat.add_assoc, Nat.add_comm 1] using behind later (by simpa using listed)

variable {L : Type} {problem : Problem ℚ Nat L}

/-- Where the edges of a problem have been collected there is a value for every edge. -/
theorem length_le_of_collect {values : List ℚ} {tolerance : ℚ}
    {known found : List ((Nat × Nat) × ℚ) × List (Edge Nat ℚ)}
    (read : collect values (List.range problem.edges.length) tolerance 0 problem.edges known =
      .ok found) : problem.edges.length ≤ values.length := by
  -- Otherwise the last edge would have no value.
  by_contra short
  have last := lt_length_of_collect (fun later listed => by simp [listed]) read
    (problem.edges.length - 1) (by omega)
  omega

/-- The values and the edges of a problem are read off values that there are for every edge. -/
theorem collect_range_of_le (values : List ℚ) (tolerance : ℚ)
    (given : problem.edges.length ≤ values.length) :
    collect values (List.range problem.edges.length) tolerance 0 problem.edges ([], []) =
      .ok (Association.ofPairs (valuesOf problem.edges (problem.pointOf values)),
        edgesAbove (1 - tolerance) problem.edges (problem.pointOf values)) := by
  -- From the first position on, columns are numbered as edges.
  rw [collect_eq values _ tolerance 0 problem.edges [] []
    (fun later inside => by simp [inside]) (by omega)]
  have point : (fun later : Fin problem.edges.length => values.getD (0 + later) 0) =
      problem.pointOf values := by
    funext later
    simp [Problem.pointOf]
  rw [point]
  rfl

/-- The values and the edges of a problem are read off a point with a value for every edge. -/
theorem collect_range (values : List ℚ) (tolerance : ℚ)
    (given : values.length = problem.edges.length) :
    collect values (List.range problem.edges.length) tolerance 0 problem.edges ([], []) =
      .ok (Association.ofPairs (valuesOf problem.edges (problem.pointOf values)),
        edgesAbove (1 - tolerance) problem.edges (problem.pointOf values)) :=
  collect_range_of_le values tolerance given.ge

/-- A run that has not ended well leaves no values and no edges. -/
theorem treeOf_of_not_optimal (choices : Choices ℚ) (columns : List Nat) (values : List ℚ)
    {report : Report ℚ LpStatus} (other : report.ending ≠ .optimal) :
    treeOf problem choices columns values report =
      .ok ⟨report.ending, report.objective, [], [], report.rowsAdded, report.iterations,
        report.totalTime, some report⟩ := by
  -- Nothing is collected unless the run has ended well.
  have refused : report.isOptimal = false := by simpa [Report.isOptimal] using other
  simp [treeOf, refused, bind, Except.bind, pure, Except.pure]

/-- A run that has ended well leaves what can be read off its values. -/
theorem treeOf_of_optimal (choices : Choices ℚ) (columns : List Nat) (values : List ℚ)
    {report : Report ℚ LpStatus} (optimal : report.ending = .optimal)
    {found : List ((Nat × Nat) × ℚ) × List (Edge Nat ℚ)}
    (read : collect values columns choices.integrality 0 problem.edges ([], []) = .ok found) :
    treeOf problem choices columns values report =
      .ok ⟨report.ending, report.objective, found.1, found.2, report.rowsAdded,
        report.iterations, report.totalTime, some report⟩ := by
  -- The values are read because the run has ended well.
  have ended : report.isOptimal = true := by simpa [Report.isOptimal] using optimal
  simp [treeOf, ended, read, bind, Except.bind, pure, Except.pure]

/-- A tree that is made shows its report, and what has been collected if the run has ended well. -/
theorem exists_of_treeOf {choices : Choices ℚ} {columns : List Nat} {values : List ℚ}
    {report : Report ℚ LpStatus} {tree : Tree ℚ Nat}
    (made : treeOf problem choices columns values report = .ok tree) :
    ∃ found, tree = ⟨report.ending, report.objective, found.1, found.2, report.rowsAdded,
        report.iterations, report.totalTime, some report⟩ ∧
      (report.ending = .optimal →
        collect values columns choices.integrality 0 problem.edges ([], []) = .ok found) := by
  by_cases optimal : report.ending = .optimal
  · cases read : collect values columns choices.integrality 0 problem.edges ([], []) with
    | ok found =>
      rw [treeOf_of_optimal choices columns values optimal read] at made
      exact ⟨found, (Except.ok.inj made).symm, fun _ => rfl⟩
    | error fault =>
      -- A run that ends well has its values read, and fails with the reading.
      have ended : report.isOptimal = true := by simpa [Report.isOptimal] using optimal
      simp [treeOf, ended, read, bind, Except.bind] at made
  · rw [treeOf_of_not_optimal choices columns values optimal] at made
    exact ⟨([], []), (Except.ok.inj made).symm, fun ended => absurd ended optimal⟩

/-- However a run has ended, its tree shows the report and the objective of the report. -/
theorem of_treeOf {choices : Choices ℚ} {columns : List Nat} {values : List ℚ}
    {report : Report ℚ LpStatus} {tree : Tree ℚ Nat}
    (made : treeOf problem choices columns values report = .ok tree) :
    tree.objective = report.objective ∧ tree.report = some report := by
  obtain ⟨found, rfl, -⟩ := exists_of_treeOf made
  exact ⟨rfl, rfl⟩

/-- Of a whole point the edges with value one are taken. -/
theorem edgesAbove_eq_edgesAt {tolerance : ℚ} (positive : 0 < tolerance) (below : tolerance < 1)
    {point : Fin problem.edges.length → ℚ} (whole : ∀ edge, point edge = 0 ∨ point edge = 1) :
    edgesAbove (1 - tolerance) problem.edges point =
      problem.edgesAt (Finset.univ.filter (point · = 1)) := by
  -- The threshold lies between zero and one, and so separates the two.
  have same : ∀ edge, 1 - tolerance < point edge ↔ point edge = 1 := by
    intro edge
    rcases whole edge with zero | one
    · simp [zero, below.le]
    · simp [one, positive]
  simp [edgesAbove, Problem.edgesAt, same]

/-- The total cost of the edges at some positions is their weight. -/
theorem totalCost_edgesAt (tree : Tree ℚ Nat) {chosen : Finset (Fin problem.edges.length)}
    (taken : tree.edges = problem.edgesAt chosen) :
    tree.totalCost = .ok (problem.weight chosen) := by
  -- Costs are added from the left on, starting with any total.
  have summed : ∀ (edges : List (Edge Nat ℚ)) (total : ℚ),
      edges.foldlM (fun total edge => Scalar.add total edge.cost) total =
        Except.ok (ε := Fault) (total + (edges.map Edge.cost).sum) := by
    intro edges
    induction edges with
    | nil => simp [pure, Except.pure]
    | cons edge rest ih =>
      intro total
      rw [List.foldlM_cons, Scalar.add_rat, List.map_cons, List.sum_cons, ← add_assoc]
      exact ih (total + edge.cost)
  rw [Tree.totalCost, taken, summed, Problem.edgesAt, List.map_map,
    Problem.sum_filter_finRange]
  simp [Problem.weight, Problem.costAt]

/-- Values are whole that are no further from their nearest whole numbers than the tolerance. -/
theorem allWhole_rat (tolerance : ℚ) (values : List ℚ) :
    Tree.allWhole tolerance values =
      .ok (decide (∀ value ∈ values, |value - Datum.roundRational value| ≤ tolerance)) := by
  have nearest : ∀ value : ℚ, Scalar.nearest value = .ok (Datum.roundRational value : ℚ) :=
    fun _ => rfl
  induction values with
  | nil => rfl
  | cons value rest ih =>
    simp only [Tree.allWhole, Tree.isWhole, nearest, ih, bind, Except.bind, pure, Except.pure,
      Scalar.sub_rat, Scalar.magnitude_rat, Scalar.order_rat, Relation.between,
      List.forall_mem_cons, decide_eq_true_eq]
    by_cases near : |value - Datum.roundRational value| ≤ tolerance <;> simp [near]

/-- Zeros and ones are whole. -/
theorem allWhole_of_binary {tolerance : ℚ} (nonneg : 0 ≤ tolerance) {values : List ℚ}
    (binary : ∀ value ∈ values, value = 0 ∨ value = 1) :
    Tree.allWhole tolerance values = .ok true := by
  rw [allWhole_rat]
  refine congrArg Except.ok (decide_eq_true fun value member => ?_)
  -- Zero and one are their own nearest whole numbers.
  have zero : Datum.roundRational 0 = 0 := by decide +kernel
  have one : Datum.roundRational 1 = 1 := by decide +kernel
  rcases binary value member with rfl | rfl
  · simpa [zero] using nonneg
  · simpa [one] using nonneg

end CuttingPlanes.Spanning
