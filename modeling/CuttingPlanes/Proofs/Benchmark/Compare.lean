import CuttingPlanes.Benchmark.Compare
import CuttingPlanes.Proofs.Spanning.Loopless
import CuttingPlanes.Proofs.Spanning.Verdict

/-! What the comparison of the policies says of a graph, and which results it takes for right. -/

namespace CuttingPlanes

namespace Action

variable {σ α β : Type} {allowed : Interrupt → Prop}

/-- What is ensured of every member, from any state, is ensured of all in order. -/
theorem mapM_ensures {action : α → Action σ β} {promised : α → β → Prop} {items : List α}
    (each : ∀ item ∈ items, ∀ state,
      Ensures (action item) state allowed fun given _ => promised item given) (state : σ) :
    Ensures (items.mapM action) state allowed fun given _ => List.Forall₂ promised items given := by
  -- Each member starts in the state that the one before it has left, whatever that is.
  induction items generalizing state with
  | nil => exact .nil
  | cons item rest ih =>
    obtain ⟨first, others⟩ := List.forall_mem_cons.1 each
    simp only [List.mapM_cons, ensures_bind, ensures_pure]
    refine (first state).mono fun given after kept => (ih others after).mono ?_
    exact fun later _ held => .cons kept held

end Action

namespace Spanning

variable {β κ ρ L : Type} {problem : Problem ℚ Nat L}

/-- What a run ensures of its tree it ensures beside its clock alone. -/
theorem solveAfresh_ensures {backend : Backend β ℚ Nat String} {model : β} {choices : Choices ℚ}
    {draw : Random.Draw ρ} {generator : ρ} {clock : Clock κ ℚ} {fuel : Nat} {time : κ}
    {allowed : Interrupt → Prop} {promised : Tree ℚ Nat → Prop}
    (run : Action.Ensures (solve backend problem choices draw clock fuel)
      (RunState.begun time generator model) allowed fun tree _ => promised tree) :
    Action.Ensures (solveAfresh backend model problem choices draw generator clock fuel) time
      allowed fun tree _ => promised tree := run

/-- The least weight of a spanning forest is that of a tree where there is one. -/
theorem Problem.IsSound.isLeastWeight (sound : problem.IsSound) (connected : sound.IsConnected)
    {weight : ℚ} (weighs : sound.network.IsForestWeight problem.costAt weight) :
    sound.IsLeastWeight weight := by
  obtain ⟨⟨forest, spans, rfl⟩, least⟩ := weighs
  refine ⟨⟨forest, spans.isSpanningTree connected, rfl⟩, ?_⟩
  rintro _ ⟨tree, spanning, rfl⟩
  exact least ⟨tree, spanning.spans, rfl⟩

end Spanning

namespace Benchmark

open Spanning

variable {κ L : Type} {problem : Problem ℚ Nat L}

/-- An objective is a weight when they are less than a millionth apart; none counts as zero. -/
theorem matchesWeight_eq (objective : Option ℚ) (weight : ℚ) :
    matchesWeight objective weight = .ok (decide (|objective.getD 0 - weight| < 1 / 1000000)) := by
  have tolerance : (matchTolerance : ℚ) = 1 / 1000000 := rfl
  cases objective with
  | none => simp [matchesWeight, tolerance, bind, Except.bind]
  | some objective =>
    -- An objective of zero is replaced by zero.
    by_cases none : objective = 0
    · simp [matchesWeight, tolerance, none, bind, Except.bind]
    · simp [matchesWeight, tolerance, none, bind, Except.bind]

/-- The weight that a problem is compared with is the least one of a spanning forest. -/
theorem isForestWeight_forestWeight (sound : problem.IsSound) :
    sound.network.IsForestWeight problem.costAt (forestWeight problem) := by
  -- Every cost is finite, so that no edge is left out and each stands at its own position.
  have listed : problem.edges.filterMap (fun edge =>
      (Scalar.exact edge.cost).rational?.map fun cost => (edge.left, edge.right, cost)) =
      (List.finRange problem.edges.length).map (sound.network.weighted problem.costAt) := by
    conv_lhs => rw [← List.map_get_finRange problem.edges]
    rw [List.filterMap_map, ← List.filterMap_eq_map]
    rfl
  rw [forestWeight, listed]
  exact Forest.isForestWeight_weight List.mem_finRange

/-- What a run without limits says of its problem. -/
structure Tells (sound : problem.IsSound) (tree : Tree ℚ Nat) : Prop where
  solved : sound.IsConnected ∨ problem.edges = [] →
    tree.ending = .optimal ∧ ∃ objective, tree.objective = some objective
  edgeless : problem.edges = [] → tree.objective = some 0
  unsolved : ¬sound.IsConnected → problem.edges ≠ [] →
    tree.ending = .infeasible ∧ tree.objective = none

/-- A run without limits says whether its problem is connected. -/
theorem solve_tells {β ρ : Type} (sound : problem.IsSound) {backend : Backend β ℚ Nat String}
    {allowed : Interrupt → Prop} {start : β} (reliable : backend.FailsOnly allowed start)
    (answers : backend.Answers start problem.Poses fun calls answer =>
      answer.TellsTruthOfColumns (Call.program calls) ∧
        (∀ cost ∈ answer.objective, answer.status = .optimal) ∧
          ((Call.program calls).columns = [] → answer.objective = some 0))
    {choices : Choices ℚ} {policy : Policy} (chosen : choices.policy = .ok policy)
    (nonneg : 0 ≤ choices.violation) (small : choices.violation < 1 / 2)
    (rounds : choices.limits.maxIterations ≤ 0) (timely : choices.limits.maxTime ≤ 0)
    {draw : Random.Draw ρ} {inUse : ρ → Prop} {generator : ρ} (serves : draw.Serves allowed inUse)
    (ready : inUse generator) (clock : Clock κ ℚ) (time : κ) {fuel : Nat}
    (enough : allowed .unfinished ∨ 2 ^ problem.size ≤ fuel) :
    Action.Ensures (solve backend problem choices draw clock fuel)
      (RunState.begun time generator start) allowed fun tree _ => Tells sound tree := by
  let setting : Setting β ρ L allowed :=
    { problem, sound, backend, start, reliable, answers, policy, draw, inUse, nonneg
      promised := _
      feasible := fun told optimal some =>
        isFeasible_of_tellsTruth (tellsTruth_of_edges told.1 some) optimal
      serves := fun _ => serves
      tolerance := choices.violation }
  refine (setting.solve_ensures chosen rfl (fun _ => ready)
    (enough.imp_right length_cutSets_lt)).mono ?_
  rintro tree after ⟨sets, selected, -, ended⟩
  -- Only a limit could have cut the run, and there is none.
  cases ended with
  | refused answer solved other ending objective =>
    -- With an edge there is no best point only if there is none at all.
    obtain ⟨told, priced, -⟩ := solved.told
    have some : problem.edges ≠ [] := fun none => other (optimal_of_edges_eq_nil told none)
    obtain ⟨infeasible, broken⟩ :=
      sound.infeasible_of_tellsTruth selected.cuts (tellsTruth_of_edges told some) other
    rw [infeasible] at ending
    have unpriced : answer.objective = none :=
      Option.eq_none_iff_forall_not_mem.2 fun cost given => other (priced cost given)
    exact ⟨fun either => (either.elim broken some).elim, fun none => (some none).elim,
      fun _ _ => ⟨ending, objective.trans unpriced⟩⟩
  | passed answer passed ending objective =>
    obtain ⟨told, -, bare⟩ := passed.solved.told
    have free : problem.edges = [] → tree.objective = some 0 := fun none =>
      objective.trans (bare (Problem.columns_relaxed_eq_nil.2 none))
    refine ⟨fun _ => ⟨ending, ?_⟩, free, fun broken some => (broken ?_).elim⟩
    · by_cases none : problem.edges = []
      · exact ⟨0, free none⟩
      · exact ⟨_, objective.trans ((tellsTruth_of_edges told none).tellsBest passed.optimal).2⟩
    · -- A point that passes with edges connects the nodes.
      exact sound.connected_of_kept nonneg small
        (isFeasible_of_tellsTruth (tellsTruth_of_edges told some) passed.optimal) passed.kept
  | limited stands cut limit => exact (limit.elim rounds.not_gt timely.not_gt).elim

/-- What is not connected is given no objective, or zero where there is no edge. -/
theorem Tells.getD_eq_zero {sound : problem.IsSound} {tree : Tree ℚ Nat} (tells : Tells sound tree)
    (broken : ¬sound.IsConnected) : tree.objective.getD 0 = 0 := by
  by_cases none : problem.edges = []
  · rw [tells.edgeless none, Option.getD_some]
  · rw [(tells.unsolved broken none).2, Option.getD_none]

/-- A result that reports the weight of a lightest spanning tree of a connected problem. -/
structure Result.IsRight (result : Result ℚ) (sound : problem.IsSound) : Prop where
  connected : sound.IsConnected
  optimal : result.ending = .optimal
  least : sound.IsLeastWeight result.treeWeight
  near : ∃ objective ∈ result.objective, |objective - result.treeWeight| < 1 / 1000000

/-- Where a connected problem has been solved, nothing but the objective can be wrong. -/
theorem Result.isRight_iff {sound : problem.IsSound} (connected : sound.IsConnected)
    {result : Result ℚ} (weighs : sound.network.IsForestWeight problem.costAt result.treeWeight)
    (optimal : result.ending = .optimal) {objective : ℚ} (found : result.objective = objective) :
    result.IsRight sound ↔ |objective - result.treeWeight| < 1 / 1000000 := by
  constructor
  · intro right
    obtain ⟨reported, given, near⟩ := right.near
    obtain rfl : objective = reported := Option.some.inj (found.symm.trans given)
    exact near
  · exact fun near =>
      ⟨connected, optimal, sound.isLeastWeight connected weighs, objective, found, near⟩

/-- What the result of a policy says of its problem. -/
structure Result.Judges (result : Result ℚ) (sound : problem.IsSound) : Prop where
  weighs : sound.network.IsForestWeight problem.costAt result.treeWeight
  /-- A match is right, unless the problem is in parts and its lightest forest weighs nothing. -/
  matched : result.isMatch = true ↔
    result.IsRight sound ∨ ¬sound.IsConnected ∧ |result.treeWeight| < 1 / 1000000
  solved : sound.IsConnected ∨ problem.edges = [] → result.ending = .optimal
  unsolved : ¬sound.IsConnected → problem.edges ≠ [] →
    result.ending = .infeasible ∧ result.objective = none

/-- A result made of what a run tells judges the problem. -/
theorem Tells.judges {sound : problem.IsSound} {tree : Tree ℚ Nat} (tells : Tells sound tree)
    {result : Result ℚ} (ending : result.ending = tree.ending)
    (objective : result.objective = tree.objective)
    (weight : result.treeWeight = forestWeight problem)
    (matched : result.isMatch =
      decide (|tree.objective.getD 0 - forestWeight problem| < 1 / 1000000)) :
    result.Judges sound := by
  have weighs := isForestWeight_forestWeight sound
  rw [← weight] at weighs matched
  refine ⟨weighs, ?_, fun either => ending.trans (tells.solved either).1, fun broken some => ?_⟩
  · rw [matched, decide_eq_true_iff]
    by_cases connected : sound.IsConnected
    · obtain ⟨optimal, found, told⟩ := tells.solved (.inl connected)
      have right := Result.isRight_iff connected weighs (ending.trans optimal)
        (objective.trans told)
      simp only [told, Option.getD_some, right, connected, not_true, false_and, or_false]
    · -- There is no tree to report, and what is missing counts as zero.
      have wrong : ¬result.IsRight sound := fun right => connected right.connected
      simp only [tells.getD_eq_zero connected, zero_sub, abs_neg, wrong, connected, false_or,
        not_false_iff, true_and]
  · obtain ⟨infeasible, unpriced⟩ := tells.unsolved broken some
    exact ⟨ending.trans infeasible, objective.trans unpriced⟩

/-- A policy without limits gives a result that judges its problem. -/
theorem comparePolicy_judges (sound : problem.IsSound) {setup : Setup κ ℚ}
    (answers : (Held.backend setup.solver).Answers (Held.empty .least none) problem.Poses
      fun calls answer => answer.TellsTruthOfColumns (Call.program calls))
    (nonneg : 0 ≤ setup.violation) (small : setup.violation < 1 / 2)
    {allowed : Interrupt → Prop} {inUse : Random.Generator → Prop}
    (serves : (Random.Generator.draw setup.fuel).Serves allowed inUse) {seed : Int}
    (ready : inUse (.ofSeed seed)) (enough : allowed .unfinished ∨ 2 ^ problem.size ≤ setup.fuel)
    (policy : Policy) (time : κ) :
    Action.Ensures (comparePolicy setup problem (forestWeight problem) seed policy) time allowed
      fun result _ => result.policy = policy ∧ result.Judges sound := by
  let choices : Choices ℚ := ⟨Limits.none, .ok policy, setup.violation, setup.integrality⟩
  have chosen : choices.policy = .ok policy := rfl
  have told := answers.and (Held.answers_objective setup.solver none problem.Poses)
  -- The run keeps its own state beside the clock, and gives it up afterwards.
  have run := solve_tells sound (Held.failsOnly _ _ _) told chosen nonneg small le_rfl le_rfl serves
    ready setup.clock time enough
  simp only [comparePolicy, matchesWeight_eq, Action.ensures_bind, Action.ensures_pure]
  refine Action.Ensures.mono (solveAfresh_ensures run) fun tree after tells => ?_
  -- A result of exact numbers always has its line.
  rw [Action.ofExcept_ok, Action.ensures_pure, Action.ensures_ofExcept]
  exact ⟨trivial, tells.judges rfl rfl rfl rfl⟩

/--
A comparison gives one result for each policy, and a match among them is right.

Only a graph in parts can be matched without being solved, if its lightest forest weighs nothing.
-/
theorem compareGraph_judges [NodeLabel L] {graph : Graph L ℚ} (loopless : graph.IsLoopless)
    {setup : Setup κ ℚ}
    (answers : (Held.backend setup.solver).Answers (Held.empty .least none)
      (Problem.numbered graph).Poses fun calls answer =>
        answer.TellsTruthOfColumns (Call.program calls))
    (nonneg : 0 ≤ setup.violation) (small : setup.violation < 1 / 2)
    {allowed : Interrupt → Prop} {inUse : Random.Generator → Prop}
    (serves : (Random.Generator.draw setup.fuel).Serves allowed inUse) {seed : Int}
    (ready : inUse (.ofSeed seed))
    (enough : allowed .unfinished ∨ 2 ^ graph.nodes.length ≤ setup.fuel) (time : κ) :
    Action.Ensures (compareGraph setup graph seed) time
      (fun cause => allowed cause ∨ graph.nodes = [] ∧ cause = .raised .noNodes)
      fun results _ => ∃ sound : (Problem.numbered graph).IsSound,
        List.Forall₂ (fun policy result => result.policy = policy ∧ result.Judges sound)
          policies results := by
  have made : Problem.ofGraph graph (.text costName) (Scalar.ofRat 1) .nothing =
    if graph.nodes = [] then .error .noNodes else .ok (Problem.numbered graph) :=
      Problem.ofGraph_eq loopless
  rw [compareGraph, made, Action.ensures_bind, Action.ensures_ofExcept]
  by_cases none : graph.nodes = []
  · rw [if_pos none]
    exact .inr ⟨none, rfl⟩
  · rw [if_neg none]
    have sound := Problem.isSound_numbered loopless none
    -- Each policy starts afresh, at the time at which the one before it has ended.
    have each (policy : Policy) (_ : policy ∈ policies) (now : κ) :=
      comparePolicy_judges sound answers nonneg small serves ready enough policy now
    have all := Action.mapM_ensures each time
    exact (all.mono fun results _ given => ⟨sound, given⟩).weaken fun _ => .inl

/-- Nodes counted from zero, of which an edge of some cost joins the first two. -/
def oneEdge (count : Nat) (cost : ℚ) : Graph Nat ℚ :=
  ⟨.simple, .text "", List.range count, [⟨0, 1, [(Graph.onlyKey, [(costName, cost)])]⟩]⟩

/-- An exact solver, with the tolerances that are the defaults, and a clock that stands still. -/
def exactSetup : Setup Unit ℚ :=
  ⟨Linear.simplex, 1 / 1000000, 1 / 1000000, fun time => (0, time), 8⟩

/-- Two nodes that an edge joins are judged by every policy. -/
theorem compareGraph_judges_pair :
    Action.Ensures (compareGraph exactSetup (oneEdge 2 1) 0) ()
      (fun cause => cause = .unfinished ∨ (oneEdge 2 1).nodes = [] ∧ cause = .raised .noNodes)
      fun results _ => ∃ sound : (Problem.numbered (oneEdge 2 1)).IsSound,
        List.Forall₂ (fun policy result => result.policy = policy ∧ result.Judges sound)
          policies results := by
  have loopless : (oneEdge 2 1).IsLoopless := ⟨by decide, by decide, by decide⟩
  have sound := Problem.isSound_numbered loopless (by decide)
  have moderate : (Problem.numbered (oneEdge 2 1)).IsModerate :=
    ⟨by decide +kernel, by decide +kernel⟩
  -- No row of a cut is ever added, so that there is one program to settle.
  have found : ∀ sets ∈ (cutSets 2).sublists.flatMap List.permutations',
      Linear.simplex ((Problem.numbered (oneEdge 2 1)).relaxed sets) ≠ .unknown := by
    decide +kernel
  have answers : (Held.backend exactSetup.solver).Answers (Held.empty .least none)
      (Problem.numbered (oneEdge 2 1)).Poses fun calls answer =>
        answer.TellsTruthOfColumns (Call.program calls) :=
    tellsTruthOfColumns_of_found sound moderate fun sets selected =>
      found sets selected.mem_arrangements
  have ready : ∃ twister, Random.Generator.ofSeed 0 = .seeded twister := ⟨_, rfl⟩
  have nonneg : 0 ≤ exactSetup.violation := by decide +kernel
  have small : exactSetup.violation < 1 / 2 := by decide +kernel
  exact compareGraph_judges loopless answers nonneg small (Random.Generator.serves_seeded _) ready
    (.inl rfl) ()

/-- An edge that costs nothing and a node on its own: no policy finds a tree, and each matches. -/
theorem free_edge_is_matched :
    (oneEdge 3 0).IsLoopless ∧
      ((Held.backend Linear.simplex).Answers (Held.empty .least none)
        (Problem.numbered (oneEdge 3 0)).Poses fun calls answer =>
          answer.TellsTruthOfColumns (Call.program calls)) ∧
      (∃ sound : (Problem.numbered (oneEdge 3 0)).IsSound, ¬sound.IsConnected) ∧
      ∃ results, ((compareGraph exactSetup (oneEdge 3 0) 0).run ()).result = .ok results ∧
        results.map (fun result => (result.isMatch, result.ending, result.objective)) =
          List.replicate 3 (true, .infeasible, none) := by
  have loopless : (oneEdge 3 0).IsLoopless := ⟨by decide, by decide, by decide⟩
  have sound := Problem.isSound_numbered loopless (by decide)
  have moderate : (Problem.numbered (oneEdge 3 0)).IsModerate :=
    ⟨by decide +kernel, by decide +kernel⟩
  have found : ∀ sets ∈ (cutSets 3).sublists.flatMap List.permutations',
      Linear.simplex ((Problem.numbered (oneEdge 3 0)).relaxed sets) ≠ .unknown := by
    decide +kernel
  refine ⟨loopless, tellsTruthOfColumns_of_found sound moderate fun sets selected =>
    found sets selected.mem_arrangements, ⟨sound, fun connected => ?_⟩, ?_⟩
  · -- A spanning tree would have two edges.
    obtain ⟨tree, spanning⟩ := Multigraph.exists_isSpanningTree connected
    have counted : tree.card + 1 = 3 := spanning.card_add_one
    have few : tree.card ≤ 1 := tree.card_le_univ
    omega
  · -- The lightest forest is the edge.
    have weight : forestWeight (Problem.numbered (oneEdge 3 0)) = 0 := by
      show Forest.weight 3 [(0, 1, 0)] = 0
      rw [Forest.weight, Forest.lightest, List.mergeSort_singleton]
      decide +kernel
    have made : Problem.ofGraph (oneEdge 3 0) (.text costName) (Scalar.ofRat 1) .nothing =
      .ok (Problem.numbered (oneEdge 3 0)) := Problem.ofGraph_eq loopless
    have compared : ((policies.mapM (comparePolicy exactSetup (Problem.numbered (oneEdge 3 0)) 0
        0)).run ()).result.toOption.map (List.map fun result =>
          (result.isMatch, result.ending, result.objective)) =
        some (List.replicate 3 (true, .infeasible, none)) := by decide +kernel
    rw [compareGraph, made, Action.ofExcept_ok, pure_bind, weight]
    cases ended : ((policies.mapM (comparePolicy exactSetup (Problem.numbered (oneEdge 3 0)) 0
        0)).run ()).result with
    | ok results => exact ⟨results, rfl, by simpa [ended, Except.toOption] using compared⟩
    | error cause => simp [ended, Except.toOption] at compared

end Benchmark

end CuttingPlanes
