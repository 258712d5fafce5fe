import CuttingPlanes.Proofs.Outcome
import CuttingPlanes.Proofs.Spanning.Moderate
import CuttingPlanes.Proofs.Spanning.Tree

/-! Which edges a run takes, beside those whose values round to one. -/

namespace CuttingPlanes

/-- A quotient is rounded by no more than a half. -/
theorem Binary64.roundQuotient_near (numerator : Nat) {denominator : Nat}
    (positive : 0 < denominator) :
    2 * numerator ≤ (2 * roundQuotient numerator denominator + 1) * denominator ∧
      2 * roundQuotient numerator denominator * denominator ≤ 2 * numerator + denominator := by
  have parts := Nat.div_add_mod numerator denominator
  have less := Nat.mod_lt numerator positive
  have nonneg := Nat.zero_le (numerator % denominator)
  simp only [roundQuotient]
  -- What is left over decides on which side the nearest whole number lies.
  split_ifs with up
  · have half : denominator ≤ 2 * (numerator % denominator) := by omega
    constructor <;> linarith
  · have half : 2 * (numerator % denominator) ≤ denominator := by omega
    constructor <;> linarith

/-- A rational is rounded by no more than a half. -/
theorem Datum.abs_sub_roundRational_le (q : ℚ) : |q - roundRational q| ≤ 1 / 2 := by
  obtain ⟨low, high⟩ := Binary64.roundQuotient_near q.num.natAbs q.den_pos
  have positive : (0 : ℚ) < q.den := by exact_mod_cast q.den_pos
  have size : |q| = q.num.natAbs / q.den := by
    rw [Nat.cast_natAbs, Int.cast_abs, ← Nat.abs_cast q.den, ← abs_div, Rat.num_div_den]
  have near : |(|q|) - (Binary64.roundQuotient q.num.natAbs q.den : ℚ)| ≤ 1 / 2 := by
    have low : (2 * q.num.natAbs : ℚ) ≤
        (2 * Binary64.roundQuotient q.num.natAbs q.den + 1) * q.den := by exact_mod_cast low
    have high : (2 * Binary64.roundQuotient q.num.natAbs q.den * q.den : ℚ) ≤
        2 * q.num.natAbs + q.den := by exact_mod_cast high
    rw [size, abs_le]
    constructor
    · rw [le_sub_iff_add_le, le_div_iff₀ positive]
      linarith
    · rw [sub_le_iff_le_add, div_le_iff₀ positive]
      linarith
  -- A number below zero is turned around before and after it is rounded.
  unfold roundRational
  split_ifs with below
  · rw [abs_of_neg below, ← abs_neg] at near
    rw [Int.cast_neg, Int.cast_natCast]
    convert near using 2
    ring
  · rw [abs_of_nonneg (not_lt.1 below)] at near
    exact near

/-- A number up to one that is more than a half rounds to one. -/
theorem Datum.roundRational_eq_one {q : ℚ} (above : 1 / 2 < q) (le_one : q ≤ 1) :
    roundRational q = 1 := by
  obtain ⟨low, high⟩ := abs_le.1 (abs_sub_roundRational_le q)
  have positive : (0 : ℚ) < roundRational q := by linarith
  have few : (roundRational q : ℚ) < 2 := by linarith
  have positive : 0 < roundRational q := by exact_mod_cast positive
  have few : roundRational q < 2 := by exact_mod_cast few
  omega

namespace Spanning

variable {β κ ρ L : Type} {problem : Problem ℚ Nat L}

/-- The two nodes of an edge, in the order in which they are named. -/
def Edge.ends (edge : Edge Nat ℚ) : Nat × Nat := (edge.left, edge.right)

/-- The edges whose values round to one. -/
def edgesRounded (edges : List (Edge Nat ℚ)) (value : Fin edges.length → ℚ) :
    List (Edge Nat ℚ) :=
  ((List.finRange edges.length).filter fun later => Datum.roundRational (value later) = 1).map
    fun later => edges.get later

/-- An edge with a later one between the same two nodes, which are named in the same order. -/
def Problem.IsRepeated (problem : Problem ℚ Nat L) (edge : Fin problem.edges.length) : Prop :=
  ∃ later, edge < later ∧ (problem.edges.get later).ends = (problem.edges.get edge).ends

/-- Of edges between the same two nodes, the last one gives the value. -/
theorem find?_valuesOf {edges : List (Edge Nat ℚ)} (value : Fin edges.length → ℚ)
    {edge : Fin edges.length}
    (last : ∀ later, edge < later → (edges.get later).ends ≠ (edges.get edge).ends) :
    Association.find? (edges.get edge).ends (valuesOf edges value).reverse =
      some (value edge) := by
  -- The search begins with the last edge, and so comes to the others before the first one.
  induction edges with
  | nil => exact edge.elim0
  | cons first rest ih =>
    rw [valuesOf_cons, List.reverse_cons, Association.find?, List.find?_append, Option.map_or]
    induction edge using Fin.cases with
    | zero =>
      -- None of the others has the same nodes.
      have none : Association.find? first.ends
          (valuesOf rest fun later => value later.succ).reverse = none := by
        refine Option.map_eq_none_iff.2 (List.find?_eq_none.2 fun entry member same => ?_)
        obtain ⟨later, -, rfl⟩ := List.mem_map.1 (List.mem_reverse.1 member)
        exact last later.succ (Fin.succ_pos later) (beq_iff_eq.1 same)
      rw [Association.find?] at none
      simp only [List.get_eq_getElem, Fin.val_zero, List.getElem_cons_zero, none]
      simp [Edge.ends]
    | succ edge =>
      have found := ih (fun later => value later.succ) fun later behind =>
        last later.succ (Fin.succ_lt_succ_iff.2 behind)
      rw [Association.find?] at found
      simp only [List.get_eq_getElem, Fin.val_succ, List.getElem_cons_succ] at found ⊢
      rw [found, Option.some_or]

/-- An edge that is not repeated has its value in the table. -/
theorem mem_values_of_not_isRepeated {point : Fin problem.edges.length → ℚ}
    {edge : Fin problem.edges.length} (last : ¬problem.IsRepeated edge) :
    point edge ∈ (Association.ofPairs (valuesOf problem.edges point)).map Prod.snd := by
  have found := Association.find?_ofPairs (problem.edges.get edge).ends
    (valuesOf problem.edges point)
  rw [find?_valuesOf point fun later behind same => last ⟨later, behind, same⟩] at found
  obtain ⟨entry, listed, same⟩ := Option.map_eq_some_iff.1 found
  exact List.mem_map.2 ⟨entry, List.mem_of_find?_eq_some listed, same⟩

/-- How the edges that are taken at a point stand to those whose values round to one. -/
structure Problem.TakesRounded (problem : Problem ℚ Nat L) (tolerance : ℚ)
    (point : Fin problem.edges.length → ℚ) (taken : List (Edge Nat ℚ)) : Prop where
  taken_eq : taken = edgesAbove (1 - tolerance) problem.edges point
  rounds : ∀ edge, 1 - tolerance < point edge → Datum.roundRational (point edge) = 1
  /-- An edge is left out at the tolerance itself, or where its value is not looked at. -/
  left_out : ∀ edge, Datum.roundRational (point edge) = 1 → point edge ≤ 1 - tolerance →
    point edge = 1 - tolerance ∨ problem.IsRepeated edge
  eq_iff : taken = edgesRounded problem.edges point ↔
    ∀ edge, Datum.roundRational (point edge) = 1 → 1 - tolerance < point edge

/-- The edges above a threshold are all that round to one where no other one does. -/
theorem edgesAbove_eq_edgesRounded_iff {threshold : ℚ} {edges : List (Edge Nat ℚ)}
    {value : Fin edges.length → ℚ}
    (rounds : ∀ edge, threshold < value edge → Datum.roundRational (value edge) = 1) :
    edgesAbove threshold edges value = edgesRounded edges value ↔
      ∀ edge, Datum.roundRational (value edge) = 1 → threshold < value edge := by
  constructor
  · -- Lists of which one lies within the other are the same if they are as long.
    intro same edge one
    have within := (List.monotone_filter_right (List.finRange edges.length)
      (p := fun edge => decide (threshold < value edge))
      (q := fun edge => decide (Datum.roundRational (value edge) = 1)) (by simpa using rounds))
    have all := within.eq_of_length (by
      simpa [edgesAbove, edgesRounded] using congrArg List.length same)
    have member : edge ∈ (List.finRange edges.length).filter
        fun edge => decide (Datum.roundRational (value edge) = 1) := by simp [one]
    rw [← all] at member
    simpa using member
  · intro above
    refine congrArg (List.map _) (List.filter_congr fun edge _ => ?_)
    rw [decide_eq_decide]
    exact ⟨rounds edge, above edge⟩

/-- Values that are whole by the table round to one no further below it than the tolerance. -/
theorem left_out_of_allWhole {tolerance : ℚ} {point : Fin problem.edges.length → ℚ}
    (integral : Tree.allWhole tolerance
      ((Association.ofPairs (valuesOf problem.edges point)).map Prod.snd) = .ok true)
    {edge : Fin problem.edges.length} (one : Datum.roundRational (point edge) = 1)
    (low : point edge ≤ 1 - tolerance) : point edge = 1 - tolerance ∨ problem.IsRepeated edge := by
  by_cases repeated : problem.IsRepeated edge
  · exact .inr repeated
  · -- The value of the edge is in the table, where it has been found to be near one.
    rw [allWhole_rat] at integral
    have near := of_decide_eq_true (Except.ok.inj integral) (point edge)
      (mem_values_of_not_isRepeated repeated)
    rw [one, Int.cast_one] at near
    exact .inl (le_antisymm low (by linarith [(abs_le.1 near).1]))

section Solved

variable {backend : Backend β ℚ Nat String} {start : β} {choices : Choices ℚ}
  {draw : Random.Draw ρ} {clock : Clock κ ℚ} {fuel : Nat} {time : κ} {generator : ρ}
  {tree : Tree ℚ Nat} {after : RunState κ ρ β ℚ Nat String}

/-- The last values of the program that a run works on. -/
def RunState.values (state : RunState κ ρ β ℚ Nat String) : List ℚ := state.2.2.2.1.values

/-- A run that ends well collects its tree from the last values. -/
theorem collect_of_solve
    (ran : (solve backend problem choices draw clock fuel).ends
      (RunState.begun time generator start) = (.ok tree, after))
    (optimal : tree.ending = .optimal) :
    collect after.values (List.range problem.edges.length) choices.integrality 0 problem.edges
      ([], []) = .ok (tree.values, tree.edges) := by
  have promised : Action.Ensures (solve backend problem choices draw clock fuel)
      (RunState.begun time generator start) (fun _ => True) fun tree after =>
        tree.ending = .optimal → collect after.values (List.range problem.edges.length)
          choices.integrality 0 problem.edges ([], []) = .ok (tree.values, tree.edges) := by
    simp only [solve, RunState.begun, Action.ensures_bind, Action.ensures_onSecond]
    refine (build_ensures backend.failsOnly_trivial problem).mono ?_
    rintro columns program ⟨rfl, -⟩
    -- Whatever the run does, its last values are those that are read.
    refine (Action.ensures_trivial _ _).mono fun policy middle _ => ?_
    refine (Action.ensures_trivial _ _).mono fun report last _ => ?_
    rw [Action.ensures_get, Action.ensures_ofExcept]
    split
    · rename_i tree made
      obtain ⟨found, rfl, read⟩ := exists_of_treeOf made
      exact read
    · trivial
  obtain ⟨given, rfl⟩ := Prod.mk.inj ran
  exact promised.of_ok given optimal

/--
Of an integral point a run takes the edges that round to one, apart from some at the tolerance.

The values of edges that are taken are above one less the tolerance, and all of them round to one.
An edge that rounds to one is left out if its value is one less the tolerance, or if a later edge
between the same nodes has taken its place in the table, so that its value has not been looked at.
-/
theorem takesRounded_of_solve
    (ran : (solve backend problem choices draw clock fuel).ends
      (RunState.begun time generator start) = (.ok tree, after))
    (optimal : tree.ending = .optimal) (small : choices.integrality < 1 / 2)
    (le_one : ∀ edge, problem.pointOf after.values edge ≤ 1)
    (integral : tree.isIntegral choices.integrality = .ok true) :
    problem.TakesRounded choices.integrality (problem.pointOf after.values) tree.edges := by
  have read := collect_of_solve ran optimal
  rw [collect_range_of_le _ _ (length_le_of_collect read)] at read
  obtain ⟨valued, taken⟩ := Prod.mk.inj (Except.ok.inj read)
  have rounds : ∀ edge, 1 - choices.integrality < problem.pointOf after.values edge →
      Datum.roundRational (problem.pointOf after.values edge) = 1 := by
    intro edge above
    exact Datum.roundRational_eq_one (by linarith) (le_one edge)
  rw [Tree.isIntegral, ← valued] at integral
  refine ⟨taken.symm, rounds, fun edge => left_out_of_allWhole integral, ?_⟩
  rw [← taken]
  exact edgesAbove_eq_edgesRounded_iff rounds

end Solved

/-- Two nodes with one edge between them. -/
def single : Problem ℚ Nat Nat := ⟨2, [⟨0, 1, 1⟩], .listed [0, 1], .nothing⟩

/-- How a run of an exact solver ends that takes the first violated cut. -/
def endedExactly (problem : Problem ℚ Nat Nat) (tolerance : ℚ) :
    Except Interrupt (Tree ℚ Nat) × RunState Unit Unit (Held ℚ) ℚ Nat String :=
  (solve (Held.backend Linear.simplex) problem ⟨Limits.none, .ok .first, 0, tolerance⟩
    (fun last => pure (.int last)) (fun time => (0, time)) (2 ^ problem.size)).ends
      (RunState.begun () () (Held.empty .least none))

/-- What is seen of a tree that a run has ended with. -/
theorem exists_tree_of_seen {problem : Problem ℚ Nat Nat} {tolerance : ℚ} {count : Nat}
    (seen : (endedExactly problem tolerance).1.toOption.map (fun tree =>
      (tree.ending, tree.edges.length, (tree.isIntegral tolerance).toOption)) =
        some (.optimal, count, some true)) :
    ∃ tree, (endedExactly problem tolerance).1 = .ok tree ∧ tree.ending = .optimal ∧
      tree.edges.length = count ∧ tree.isIntegral tolerance = .ok true := by
  cases ended : (endedExactly problem tolerance).1 with
  | error cause => simp [ended, Except.toOption] at seen
  | ok tree =>
    rw [ended] at seen
    obtain ⟨optimal, taken, whole⟩ : _ ∧ _ ∧ _ := by simpa [Except.toOption] using seen
    refine ⟨tree, rfl, optimal, taken, ?_⟩
    cases integral : tree.isIntegral tolerance with
    | ok answer => simpa [integral] using whole
    | error fault => simp [integral] at whole

/-- Of two edges between the same nodes the one that rounds to one is taken. -/
theorem takesRounded_twins :
    ∃ tree after, endedExactly twins (1 / 1000) = (.ok tree, after) ∧ after.values = [1, 0] ∧
      twins.TakesRounded (1 / 1000) (twins.pointOf after.values) tree.edges := by
  obtain ⟨tree, ended, optimal, -, integral⟩ := exists_tree_of_seen
    (by decide +kernel : (endedExactly twins (1 / 1000)).1.toOption.map (fun tree =>
      (tree.ending, tree.edges.length, (tree.isIntegral (1 / 1000)).toOption)) =
        some (.optimal, 1, some true))
  have values : (endedExactly twins (1 / 1000)).2.values = [1, 0] := by decide +kernel
  have le_one : ∀ edge, twins.pointOf (endedExactly twins (1 / 1000)).2.values edge ≤ 1 := by
    rw [values]
    decide +kernel
  have ran : endedExactly twins (1 / 1000) = (.ok tree, (endedExactly twins (1 / 1000)).2) :=
    Prod.ext ended rfl
  exact ⟨tree, _, ran, values, takesRounded_of_solve ran optimal (by norm_num) le_one integral⟩

/-- With no tolerance even an edge at one is left out, though all values are whole. -/
theorem full_edge_is_left_out :
    ∃ tree after, endedExactly single 0 = (.ok tree, after) ∧ tree.ending = .optimal ∧
      tree.isIntegral 0 = .ok true ∧ after.values = [1] ∧ tree.edges = [] ∧
      edgesRounded single.edges (single.pointOf after.values) = [⟨0, 1, 1⟩] := by
  obtain ⟨tree, ended, optimal, none, integral⟩ := exists_tree_of_seen
    (by decide +kernel : (endedExactly single 0).1.toOption.map (fun tree =>
      (tree.ending, tree.edges.length, (tree.isIntegral 0).toOption)) =
        some (.optimal, 0, some true))
  have values : (endedExactly single 0).2.values = [1] := by decide +kernel
  refine ⟨tree, _, Prod.ext ended rfl, optimal, integral, values,
    List.length_eq_zero_iff.1 none, ?_⟩
  rw [values]
  rfl

end Spanning

end CuttingPlanes
