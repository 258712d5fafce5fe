import CuttingPlanes.Proofs.Separator.Call
import CuttingPlanes.Proofs.Spanning.Relaxed

/-! The search for a violated cut, and why it never finds one that is a row already. -/

namespace CuttingPlanes.Spanning

variable {β κ ρ L : Type}

/-- How far a bound is exceeded, where that is more than a tolerance. -/
def beyond (tolerance excess : ℚ) : Option ℚ := if tolerance < excess then some excess else none

/-- Under a tolerance that is not negative, every policy takes what is beyond it for a violation. -/
theorem regards_beyond (policy : Policy) {tolerance : ℚ} (nonneg : 0 ≤ tolerance) (excess : ℚ) :
    policy.regards (beyond tolerance excess) = true ↔ tolerance < excess := by
  unfold beyond
  by_cases violated : tolerance < excess
  · -- An excess over a tolerance of zero or more is no zero, and so counts as true.
    have counts : excess ≠ 0 := by linarith
    cases policy <;> simp [violated, Policy.regards, Measure.present, Measure.countsTrue, counts]
  · cases policy <;> simp [violated, Policy.regards, Measure.present, Measure.countsTrue]

/-- The excess of a set is that of the row that is made of it. -/
theorem excess_of_row {cuts : Subtours ℚ Nat L} {row : Row ℚ Nat String} {nodes : List Nat}
    (made : cuts.row nodes = .ok row) (values : List ℚ) :
    cuts.excess String values nodes = .ok (beyond cuts.tolerance (row.distance values)) := by
  simp only [Subtours.excess, made, Row.violation_rat, Scalar.order_rat, Relation.between, bind,
    Except.bind, pure, Except.pure, beyond, decide_eq_true_eq]

namespace Problem

variable {problem : Problem ℚ Nat L}

/-- Sets without repetition, each of which a cut is considered for. -/
structure IsSelection (problem : Problem ℚ Nat L) (sets : List (List Nat)) : Prop where
  nodup : sets.Nodup
  cuts : ∀ nodes ∈ sets, IsCutSet problem.size nodes

/-- What has been added poses the problem with the rows of some sets. -/
def Poses (problem : Problem ℚ Nat L) (calls : List (Call ℚ Nat String)) : Prop :=
  ∃ sets, problem.IsSelection sets ∧ calls = problem.additions sets

/-- What has been added poses the problem with the rows of cuts, some of them perhaps repeated. -/
def PosesCuts (problem : Problem ℚ Nat L) (calls : List (Call ℚ Nat String)) : Prop :=
  ∃ sets, (∀ nodes ∈ sets, IsCutSet problem.size nodes) ∧ calls = problem.additions sets

theorem Poses.posesCuts {calls : List (Call ℚ Nat String)} (posed : problem.Poses calls) :
    problem.PosesCuts calls := by
  obtain ⟨sets, selected, added⟩ := posed
  exact ⟨sets, selected.cuts, added⟩

/-- How far the row of a set is exceeded, where that is more than a tolerance. -/
def excessAt (problem : Problem ℚ Nat L) (tolerance : ℚ) (values : List ℚ) (nodes : List Nat) :
    Option ℚ :=
  let excess := (problem.subtourRow nodes).distance values
  if tolerance < excess then some excess else none

theorem distance_subtourRow (nodes : List Nat) (values : List ℚ) :
    (problem.subtourRow nodes).distance values =
      (problem.subtourRow nodes).linear.activity values - (nodes.length - 1) := rfl

/-- A feasible point that exceeds the row of no cut too far lies in the subtour polytope. -/
theorem IsSound.isSubtourPoint_of_kept (sound : problem.IsSound) {sets : List (List Nat)}
    {slack : ℚ} {values : List ℚ} (feasible : (problem.relaxed sets).isFeasible values = true)
    (kept : ∀ nodes, IsCutSet problem.size nodes →
      (problem.subtourRow nodes).distance values ≤ slack) :
    sound.network.IsSubtourPoint slack (problem.pointOf values) :=
  sound.isSubtourPoint feasible fun nodes cut => by
    -- How far a row is exceeded is its left side less its right one.
    have := kept nodes cut
    rw [distance_subtourRow] at this
    linarith

/-- There are at most as many sets as considered ones. -/
theorem IsSelection.length_le {sets : List (List Nat)} (selected : problem.IsSelection sets) :
    sets.length ≤ 2 ^ problem.size - problem.size - 2 := by
  rw [← length_cutSets]
  -- Different members of a list are no more than the list has.
  exact (selected.nodup.subperm fun nodes member =>
    mem_cutSets.2 (selected.cuts nodes member)).length_le

/-- A point that keeps all rows exceeds none of them. -/
theorem notMem_of_violated (sound : problem.IsSound) {sets : List (List Nat)} {tolerance : ℚ}
    {values : List ℚ} {nodes : List Nat} (nonneg : 0 ≤ tolerance)
    (feasible : problem.edges ≠ [] → (problem.relaxed sets).isFeasible values = true)
    (violated : tolerance < (problem.subtourRow nodes).distance values)
    (several : 2 ≤ nodes.length) : nodes ∉ sets := by
  intro member
  rw [distance_subtourRow, sound.activity_subtourRow] at violated
  by_cases empty : problem.edges = []
  · -- Without edges the left side of a row is zero.
    have none : IsEmpty (Fin problem.edges.length) := by
      rw [empty]
      exact Fin.isEmpty
    have several : (2 : ℚ) ≤ nodes.length := by exact_mod_cast several
    rw [Finset.sum_of_isEmpty] at violated
    linarith
  · -- With edges, a row that is there is kept.
    obtain ⟨-, -, -, kept⟩ := sound.isFeasible_relaxed_iff.1 (feasible empty)
    linarith [kept nodes member]

/-- One more set that is not among those selected. -/
theorem IsSelection.append {sets : List (List Nat)} (selected : problem.IsSelection sets)
    {nodes : List Nat} (cut : IsCutSet problem.size nodes) (fresh : nodes ∉ sets) :
    problem.IsSelection (sets ++ [nodes]) := by
  refine ⟨?_, ?_⟩
  · -- The new set differs from all before it.
    rw [← List.concat_eq_append, List.nodup_concat]
    exact ⟨fresh, selected.nodup⟩
  · simpa [or_imp, forall_and] using ⟨selected.cuts, cut⟩

end Problem

section Search

variable {problem : Problem ℚ Nat L} {tolerance : ℚ} {backend : Backend β ℚ Nat String} {start : β}
  {state : Relaxation ℚ Nat String × β} {calls : List (Call ℚ Nat String)} {answer : LpAnswer ℚ}
  {allowed : Interrupt → Prop}

/-- The subtour cuts of a problem whose columns are numbered as its edges are. -/
def cutsOf (problem : Problem ℚ Nat L) (tolerance : ℚ) : Subtours ℚ Nat L :=
  ⟨problem, List.range problem.edges.length, tolerance⟩

/-- The excess of a cut over the tolerance is computed exactly. -/
theorem excess_eq (values : List ℚ) (nodes : List Nat) :
    (cutsOf problem tolerance).excess String values nodes =
      .ok (problem.excessAt tolerance values nodes) :=
  -- The row that is measured is the one that would be added.
  excess_of_row (problem.row_eq tolerance nodes) values

/-- The candidates are all considered sets. -/
theorem enumerate_ensures :
    Action.Ensures ((cutsOf problem tolerance).family backend).enumerate state allowed
      fun source after => source.Lists (cutSets problem.size) ∧ after = state :=
  ⟨fun rank => subsets_next problem.size rank, rfl⟩

/-- Candidates are measured at the values of the last answer. -/
theorem measures (last : state.1.last = some answer) :
    ((cutsOf problem tolerance).family backend).Measures state allowed (cutSets problem.size)
      (problem.excessAt tolerance answer.values) := by
  intro nodes _
  -- A program without a new answer still has the values of the last one.
  have values : state.1.values = answer.values := by simp [Relaxation.values, last]
  simp only [Subtours.family, Action.ensures_bind, Action.ensures_get, values, excess_eq,
    Action.ofExcept_ok, Action.ensures_pure]
  exact ⟨trivial, trivial⟩

/-- Of two measures the greater one wins. -/
theorem compares :
    Compares (exceeds : Option ℚ → Option ℚ → Action (Relaxation ℚ Nat String × β) Bool) state
      allowed fun best measure => best.any fun held => measure.any (held < ·) := by
  intro best measure known present
  -- Only measures that are there are compared.
  obtain ⟨held, rfl⟩ := Option.isSome_iff_exists.1 known
  obtain ⟨found, rfl⟩ := Option.isSome_iff_exists.1 present
  simp [exceeds]

/-- Committing a set adds its row. -/
theorem commit_ensures (reliable : backend.FailsOnly allowed start)
    (mirrors : Relaxation.Mirrors backend start calls state)
    (count : (Call.columns calls).length = problem.edges.length) (nodes : List Nat) :
    Action.Ensures (((cutsOf problem tolerance).family backend).commit nodes) state allowed
      fun _ after =>
        Relaxation.Mirrors backend start (calls ++ [.row (problem.subtourRow nodes)]) after := by
  -- The row that is added is the one that was measured.
  have made : (cutsOf problem tolerance).row nodes = .ok (problem.subtourRow nodes) :=
    problem.row_eq tolerance nodes
  simp only [Subtours.family, made, Action.ofExcept_ok, Action.ensures_bind, Action.ensures_pure]
  exact addSubtour_ensures reliable problem nodes mirrors count

/-- Under a tolerance that is not negative, every policy takes a measure for a violation. -/
theorem regards_excessAt (policy : Policy) (nonneg : 0 ≤ tolerance) (values : List ℚ)
    (nodes : List Nat) :
    policy.regards (problem.excessAt tolerance values nodes) = true ↔
      tolerance < (problem.subtourRow nodes).distance values :=
  regards_beyond policy nonneg _

end Search

end CuttingPlanes.Spanning
