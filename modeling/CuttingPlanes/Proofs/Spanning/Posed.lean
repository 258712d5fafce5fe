import CuttingPlanes.Proofs.Association
import CuttingPlanes.Proofs.Exact
import CuttingPlanes.Proofs.Relaxation.Record
import CuttingPlanes.Proofs.Spanning.Subset
import CuttingPlanes.Spanning.Solve

/-! The columns and rows by which a spanning-tree problem is posed. -/

namespace CuttingPlanes.Spanning

variable {L : Type}

/-- Whether an edge has both ends among some nodes. -/
def Edge.within (nodes : List Nat) (edge : Edge Nat ℚ) : Bool :=
  decide (edge.left ∈ nodes) && decide (edge.right ∈ nodes)

namespace Problem

variable (problem : Problem ℚ Nat L)

/-- The positions of the edges inside a set of nodes. -/
def innerPositions (nodes : List Nat) : List Nat :=
  ((List.finRange problem.edges.length).filter fun position =>
    (problem.edges.get position).within nodes).map Fin.val

/-- The row that adds up the columns at some positions. -/
def rowOver (positions : List Nat) (sense : Sense) (rhs : ℚ) (name : String) :
    Row ℚ Nat String :=
  ⟨positions.map fun position => (position, 1), sense, rhs, some name⟩

/-- The column of an edge. -/
def edgeColumn (edge : Edge Nat ℚ) : Column ℚ String :=
  ⟨edge.cost, 0, some 1, some (columnName edge)⟩

/-- The row of the number of edges. -/
def cardinalityRow : Row ℚ Nat String :=
  rowOver (List.range problem.edges.length) .equal (problem.labels.nodes.length - 1) "cardinality"

/-- The row of the edges inside a set of nodes. -/
def subtourRow (nodes : List Nat) : Row ℚ Nat String :=
  rowOver (problem.innerPositions nodes) .atMost (nodes.length - 1) (Subtours.rowName nodes)

/-- Everything that is added to pose a problem with the rows of some sets. -/
def additions (sets : List (List Nat)) : List (Call ℚ Nat String) :=
  problem.edges.map (.column ∘ edgeColumn) ++
    .row problem.cardinalityRow :: sets.map (.row ∘ problem.subtourRow)

end Problem

namespace Problem

variable (problem : Problem ℚ Nat L)

theorem nodup_innerPositions (nodes : List Nat) : (problem.innerPositions nodes).Nodup :=
  ((List.nodup_finRange _).filter _).map Fin.val_injective

theorem lt_of_mem_innerPositions {nodes : List Nat} {position : Nat}
    (member : position ∈ problem.innerPositions nodes) : position < problem.edges.length := by
  obtain ⟨place, -, rfl⟩ := List.mem_map.1 member
  exact place.isLt

/-- Different columns keep their order as entries. -/
theorem ofPairs_ones {positions : List Nat} (nodup : positions.Nodup) :
    Association.ofPairs (positions.map fun position => (position, (1 : ℚ))) =
      positions.map fun position => (position, 1) :=
  Association.ofPairs_of_nodup (by simpa [Function.comp_def] using nodup)

end Problem

namespace Subtours

/-- The edges inside a set of nodes are found one after another. -/
theorem columnsFrom_eq (columns nodes : List Nat) (position : Nat) (edges : List (Edge Nat ℚ))
    (known : ∀ later < edges.length, position + later < columns.length) :
    columnsFrom columns nodes position edges =
      .ok (((List.finRange edges.length).filter fun later => (edges.get later).within nodes).map
        fun later => columns.getD (position + later.val) 0) := by
  induction edges generalizing position with
  | nil => simp [columnsFrom]
  | cons edge rest ih =>
    have here : position < columns.length := known 0 (by simp)
    have behind := ih (position + 1) fun later inside => by
      simpa [Nat.add_assoc, Nat.add_comm 1] using known (later + 1) (by simpa using inside)
    have contained : (nodes.contains edge.left && nodes.contains edge.right) =
        edge.within nodes := by
      simp [Edge.within]
    -- The first edge is the one at this position, and the others follow it.
    simp only [columnsFrom, contained, behind, List.length_cons, List.finRange_succ,
      List.filter_cons, List.filter_map]
    cases inner : edge.within nodes <;>
      simp [here, inner, Function.comp_def, bind, Except.bind, pure, Except.pure, Nat.add_assoc,
        Nat.add_comm 1]

/-- Every edge has a column of its own. -/
structure Placed (cuts : Subtours ℚ Nat L) : Prop where
  length_le : cuts.problem.edges.length ≤ cuts.columns.length
  nodup : cuts.columns.Nodup

variable (cuts : Subtours ℚ Nat L)

/-- The column of the edge at a position. -/
def columnAt (position : Nat) : Nat := cuts.columns.getD position 0

/-- The row of a set over the columns of its inner edges. -/
def cutRow (nodes : List Nat) : Row ℚ Nat String :=
  Problem.rowOver ((cuts.problem.innerPositions nodes).map cuts.columnAt) .atMost
    (nodes.length - 1) (rowName nodes)

variable {cuts}

/-- The columns of the edges inside a set are found, each of them once. -/
theorem Placed.inside_eq (placed : cuts.Placed) (nodes : List Nat) :
    cuts.inside nodes = .ok ((cuts.problem.innerPositions nodes).map cuts.columnAt) := by
  have known : ∀ later < cuts.problem.edges.length, 0 + later < cuts.columns.length := by
    have enough := placed.length_le
    omega
  rw [inside, columnsFrom_eq _ _ _ _ known]
  simp [Problem.innerPositions, columnAt, Function.comp_def]

/-- The row that is made of a set is the one over the columns of its inner edges. -/
theorem Placed.row_eq (placed : cuts.Placed) (nodes : List Nat) :
    cuts.row nodes = .ok (cuts.cutRow nodes) := by
  have different : ((cuts.problem.innerPositions nodes).map cuts.columnAt).Nodup := by
    refine (cuts.problem.nodup_innerPositions nodes).map_on fun first one second other same => ?_
    have inside := cuts.problem.lt_of_mem_innerPositions one
    have within := cuts.problem.lt_of_mem_innerPositions other
    have enough := placed.length_le
    rw [columnAt, columnAt, List.getD_eq_getElem _ _ (by omega),
      List.getD_eq_getElem _ _ (by omega)] at same
    exact (placed.nodup.getElem_inj_iff).1 same
  simp only [row, placed.inside_eq, bind, Except.bind, pure, Except.pure, Scalar.ofRat_rat]
  -- No column is met twice, so that no coefficient is replaced.
  rw [Problem.ofPairs_ones different]
  rfl

end Subtours

namespace Problem

variable (problem : Problem ℚ Nat L)

/-- The row of a set as it is measured is the row by which it is posed. -/
theorem row_eq (tolerance : ℚ) (nodes : List Nat) :
    (Subtours.mk problem (List.range problem.edges.length) tolerance).row nodes =
      .ok (problem.subtourRow nodes) := by
  have placed : (Subtours.mk problem (List.range problem.edges.length) tolerance).Placed :=
    ⟨List.length_range.ge, List.nodup_range⟩
  -- Position and column agree from the first edge on.
  have same : (problem.innerPositions nodes).map
      (Subtours.mk problem (List.range problem.edges.length) tolerance).columnAt =
        problem.innerPositions nodes := by
    refine (List.map_congr_left fun position member => ?_).trans (List.map_id _)
    have inside := problem.lt_of_mem_innerPositions member
    simp [Subtours.columnAt, inside]
  rw [placed.row_eq, Subtours.cutRow, same]
  rfl

theorem cardinality_eq :
    cardinality problem (List.range problem.edges.length) = problem.cardinalityRow := by
  simp only [cardinality, Scalar.ofRat_rat]
  -- No column comes twice, so that no coefficient is replaced.
  rw [ofPairs_ones List.nodup_range]
  simp [cardinalityRow, rowOver, RowName.ofText]

/-- A row over columns that are there is recorded as it is. -/
theorem makeRow_rowOver {count : Nat} {positions : List Nat}
    (known : ∀ position ∈ positions, position < count) (sense : Sense) (rhs : ℚ) (name : String) :
    Relaxation.makeRow count (rowOver positions sense rhs name) =
      .ok (rowOver positions sense rhs name) := by
  -- Every column is among those that have been recorded.
  have checked : ((positions.map fun position => (position, (1 : ℚ))).forM fun entry =>
      Relaxation.checkColumn count entry.1) = .ok () := by
    induction positions with
    | nil => rfl
    | cons position rest ih =>
      have first : Relaxation.checkColumn count position = .ok () := by
        simp [Relaxation.checkColumn, known position List.mem_cons_self, bind, Except.bind, pure,
          Except.pure]
      rw [List.map_cons, List.forM_eq_forM, List.forM_cons, first]
      exact ih fun later member => known later (List.mem_cons_of_mem position member)
  -- A coefficient of one is real already, and no zero.
  have kept : Relaxation.realCoefficients (positions.map fun position => (position, (1 : ℚ))) =
      .ok (positions.map fun position => (position, 1)) := by
    clear checked known
    induction positions with
    | nil => rfl
    | cons position rest ih =>
      simp [Relaxation.realCoefficients, ih, bind, Except.bind, pure, Except.pure]
  simp only [Relaxation.makeRow, rowOver, checked, kept, Scalar.real_rat]
  rfl

theorem makeColumn_edge (edge : Edge Nat ℚ) :
    Relaxation.makeColumn edge.cost 0 (some 1) (some (columnName edge)) =
      .ok (edgeColumn edge) := by
  -- The bounds stand in their order.
  have ordered : ¬((1 : ℚ) < 0) := not_lt.2 zero_le_one
  simp [Relaxation.makeColumn, Relaxation.checkBounds, ordered, edgeColumn, bind, Except.bind,
    pure, Except.pure]

end Problem

section Build

variable {β : Type} {backend : Backend β ℚ Nat String} {start : β}
  {calls : List (Call ℚ Nat String)} {state : Relaxation ℚ Nat String × β}
  {allowed : Interrupt → Prop}

/-- The edges of a problem become columns, numbered from the ones that are there. -/
theorem addColumns_ensures (reliable : backend.FailsOnly allowed start)
    (mirrors : Relaxation.Mirrors backend start calls state) (edges : List (Edge Nat ℚ)) :
    Action.Ensures (addColumns backend edges) state allowed fun columns after =>
      columns = List.range' (Call.columns calls).length edges.length ∧
        Relaxation.Mirrors backend start (calls ++ edges.map (.column ∘ Problem.edgeColumn))
          after := by
  induction edges generalizing calls state with
  | nil => simpa [addColumns] using mirrors
  | cons edge rest ih =>
    simp only [addColumns, Action.ensures_bind, Action.ensures_pure]
    -- The first edge takes the next number, and the others count on from there.
    refine (mirrors.addColumn reliable (Problem.makeColumn_edge edge)).mono ?_
    rintro position after ⟨rfl, mirrors⟩
    refine (ih mirrors).mono fun columns last added => ?_
    obtain ⟨rfl, mirrors⟩ := added
    exact ⟨by simp [List.range'_succ], by simpa using mirrors⟩

/-- The row of a set extends the rows by which a problem is posed. -/
theorem addSubtour_ensures (reliable : backend.FailsOnly allowed start) (problem : Problem ℚ Nat L)
    (nodes : List Nat) (mirrors : Relaxation.Mirrors backend start calls state)
    (count : (Call.columns calls).length = problem.edges.length) :
    Action.Ensures (Relaxation.addRow backend (problem.subtourRow nodes)) state allowed
      fun _ after => Relaxation.Mirrors backend start (calls ++ [.row (problem.subtourRow nodes)])
        after := by
  -- The columns inside a set are columns of edges, all of which are there.
  refine mirrors.addRow reliable ?_ fun _ _ => rfl
  rw [count]
  exact Problem.makeRow_rowOver (fun _ => problem.lt_of_mem_innerPositions) _ _ _

/-- Building a program poses the problem without any set. -/
theorem build_ensures (reliable : backend.FailsOnly allowed start) (problem : Problem ℚ Nat L) :
    Action.Ensures (build backend problem) (Relaxation.empty .least, start) allowed
      fun columns after => columns = List.range problem.edges.length ∧
        Relaxation.Mirrors backend start (problem.additions []) after := by
  simp only [build, Action.ensures_bind, Action.ensures_pure]
  refine (addColumns_ensures reliable (.empty backend start .least) problem.edges).mono ?_
  rintro columns after ⟨rfl, mirrors⟩
  -- Nothing was there before, so that the numbers begin with zero.
  rw [Call.columns_nil, List.length_nil, ← List.range_eq_range', Problem.cardinality_eq]
  have made : Relaxation.makeRow problem.edges.length problem.cardinalityRow =
      .ok problem.cardinalityRow :=
    Problem.makeRow_rowOver (fun _ => List.mem_range.1) _ _ _
  refine (mirrors.addRow reliable (by simpa using made) fun _ _ => rfl).mono ?_
  intro _ last mirrors
  exact ⟨rfl, by simpa [Problem.additions] using mirrors⟩

end Build

end CuttingPlanes.Spanning
