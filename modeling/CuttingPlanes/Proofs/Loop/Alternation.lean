import CuttingPlanes.Proofs.Loop.Exhaustion
import CuttingPlanes.Proofs.Loop.Trace
import CuttingPlanes.Proofs.Separator.Count

/-! Loops that solve and add in turn, and the counters that keep pace with them. -/

namespace CuttingPlanes

variable {σ κ γ μ R S K : Type}

/-- What a loop does to its program. -/
inductive Deed (γ S : Type) where
  /-- A solve, with the status that it has returned, where it has. -/
  | solved (returned : Option S)
  /-- The attempt to add a candidate. -/
  | added (candidate : γ)

namespace Deed

/-- Every attempt to add comes right behind a solve that has returned an awaited status. -/
def Alternate (isAwaited : S → Bool) : List (Deed γ S) → Prop :=
  Throughout fun before deed => ∀ candidate, deed = added candidate →
    ∃ status, before.getLast? = some (solved (some status)) ∧ isAwaited status = true

/-- Whether an attempt to add is made. -/
def isAddition : Deed γ S → Bool
  | solved _ => false
  | added _ => true

/-- Whether a solve is made that returns an awaited status. -/
def isAwaitedSolve (isAwaited : S → Bool) : Deed γ S → Bool
  | solved returned => returned.any isAwaited
  | added _ => false

/-- The number of attempts to add. -/
def additions (deeds : List (Deed γ S)) : Nat := deeds.countP isAddition

/-- The number of solves that have returned an awaited status. -/
def awaitedSolves (isAwaited : S → Bool) (deeds : List (Deed γ S)) : Nat :=
  deeds.countP (isAwaitedSolve isAwaited)

section Counts

variable (isAwaited : S → Bool) (deeds : List (Deed γ S)) (candidate : γ) (returned : Option S)

@[simp] theorem additions_append_solved :
    additions (deeds ++ [solved returned]) = additions deeds :=
  List.countP_append

@[simp] theorem additions_append_added :
    additions (deeds ++ [added candidate]) = additions deeds + 1 :=
  List.countP_append

@[simp] theorem awaitedSolves_append_solved :
    awaitedSolves isAwaited (deeds ++ [solved returned]) =
      awaitedSolves isAwaited deeds + if returned.any isAwaited then 1 else 0 := by
  rw [awaitedSolves, List.countP_append, List.countP_singleton]
  rfl

@[simp] theorem awaitedSolves_append_added :
    awaitedSolves isAwaited (deeds ++ [added candidate]) = awaitedSolves isAwaited deeds :=
  List.countP_append

end Counts

/-- The counters of a separator grow with what is done. -/
structure InStep (isAwaited : S → Bool) (deeds : List (Deed γ S)) (before after : Tally) :
    Prop where
  rowsAdded : after.rowsAdded = before.rowsAdded + additions deeds
  calls : after.calls = before.calls + awaitedSolves isAwaited deeds

/--
A run that has come from one tally and trace to others, with some rows added.

A search is pending when its solve has been made and it has not been counted.
-/
structure Paced (isAwaited : S → Bool) (before after : Tally × List (Deed γ S))
    (rows pending : Nat) : Prop where
  alternate : Alternate isAwaited after.2
  exists_more : ∃ more, after.2 = before.2 ++ more ∧ additions more = rows ∧
    after.1.calls + pending = before.1.calls + awaitedSolves isAwaited more
  rowsAdded : after.1.rowsAdded = before.1.rowsAdded + rows

section Paced

variable {isAwaited : S → Bool} {before : Tally × List (Deed γ S)} {tally : Tally}
  {deeds : List (Deed γ S)} {rows : Nat}

theorem paced_begun (alternate : Alternate isAwaited before.2) :
    Paced isAwaited before before 0 0 :=
  ⟨alternate, ⟨[], (List.append_nil _).symm, rfl, rfl⟩, rfl⟩

/-- A solve may stand behind anything. -/
theorem Alternate.solve (alternate : Alternate isAwaited deeds) (returned : Option S) :
    Alternate isAwaited (deeds ++ [solved returned]) :=
  Throughout.append alternate nofun

/-- An awaited solve leaves its search pending. -/
theorem Paced.solve (paced : Paced isAwaited before (tally, deeds) rows 0) (status : S) :
    Paced isAwaited before (tally, deeds ++ [solved (some status)]) rows
      (if isAwaited status then 1 else 0) where
  alternate := paced.alternate.solve (some status)
  exists_more := by
    obtain ⟨more, rfl, added, calls⟩ := paced.exists_more
    refine ⟨more ++ [solved (some status)], List.append_assoc _ _ _, ?_, ?_⟩
    -- The tally has not counted a call yet, and the solve is one that asks for it.
    · rw [additions_append_solved, added]
    · rw [awaitedSolves_append_solved, ← Nat.add_assoc, ← calls]
      rfl
  rowsAdded := paced.rowsAdded

/-- A search that finds nothing is counted. -/
theorem Paced.pass (paced : Paced isAwaited before (tally, deeds) rows 1) {later : Tally}
    (calls : later.calls = tally.calls + 1) (rowsAdded : later.rowsAdded = tally.rowsAdded) :
    Paced isAwaited before (later, deeds) rows 0 where
  alternate := paced.alternate
  exists_more := by
    obtain ⟨more, same, added, counted⟩ := paced.exists_more
    exact ⟨more, same, added, calls.trans counted⟩
  rowsAdded := rowsAdded.trans paced.rowsAdded

/-- A search may add right behind the solve that has asked for it. -/
theorem Paced.alternate_add {pending : Nat}
    (paced : Paced isAwaited before (tally, deeds) rows pending) {status : S}
    (last : deeds.getLast? = some (solved (some status))) (awaited : isAwaited status = true)
    (candidate : γ) : Alternate isAwaited (deeds ++ [added candidate]) :=
  Throughout.append paced.alternate fun _ _ => ⟨status, last, awaited⟩

/-- A row that is added is counted by both. -/
theorem Paced.add (paced : Paced isAwaited before (tally, deeds) rows 1) {status : S}
    (last : deeds.getLast? = some (solved (some status))) (awaited : isAwaited status = true)
    (candidate : γ) {later : Tally} (calls : later.calls = tally.calls + 1)
    (rowsAdded : later.rowsAdded = tally.rowsAdded) :
    Paced isAwaited before (later.added, deeds ++ [added candidate]) (rows + 1) 0 where
  alternate := paced.alternate_add last awaited candidate
  exists_more := by
    obtain ⟨more, rfl, added, counted⟩ := paced.exists_more
    refine ⟨more ++ [.added candidate], List.append_assoc _ _ _, ?_, ?_⟩
    · rw [additions_append_added, added]
    · -- The call of the tally is the one that was pending.
      rw [awaitedSolves_append_added, ← counted]
      exact calls
  rowsAdded := congrArg (· + 1) (rowsAdded.trans paced.rowsAdded)

/-- Without a pending search the counters are in step. -/
theorem Paced.inStep {after : Tally × List (Deed γ S)}
    (paced : Paced isAwaited before after rows 0) :
    ∃ more, after.2 = before.2 ++ more ∧ additions more = rows ∧
      InStep isAwaited more before.1 after.1 := by
  obtain ⟨more, same, added, calls⟩ := paced.exists_more
  exact ⟨more, same, added, added ▸ paced.rowsAdded, calls⟩

end Paced

/-- Notes a deed behind the ones before it. -/
def note (deed : Deed γ S) : Action (List (Deed γ S) × σ) Unit :=
  Action.modify fun state => (state.1 ++ [deed], state.2)

section Recording

variable [HasStatus R S] {solve : Action (Tally × σ) R}

/-- A solve that notes what it has returned, or that it has returned nothing. -/
def recording (solve : Action (Tally × σ) R) : Action (Tally × List (Deed γ S) × σ) R :=
  fun state =>
    let outcome := solve (state.1, state.2.2)
    let deed := solved (outcome.result.toOption.map HasStatus.status)
    ⟨outcome.result, (outcome.state.1, state.2.1 ++ [deed], outcome.state.2), outcome.log⟩

theorem run_recording (solve : Action (Tally × σ) R) (tally : Tally) (deeds : List (Deed γ S))
    (state : σ) :
    (recording solve).run (tally, deeds, state) =
      ⟨(solve.run (tally, state)).result, ((solve.run (tally, state)).state.1,
        deeds ++ [solved ((solve.run (tally, state)).result.toOption.map HasStatus.status)],
        (solve.run (tally, state)).state.2), (solve.run (tally, state)).log⟩ := rfl

/-- What is noted of a solve is out of view. -/
theorem shows_recording (solve : Action (Tally × σ) R) :
    Action.Shows (Prod.map id (Prod.snd : List (Deed γ S) × σ → σ)) Eq (recording solve) solve := by
  rintro ⟨tally, deeds, state⟩
  show Outcome.Shows _ Eq _ (solve.run (tally, state))
  -- Only the trace depends on how the solve ends.
  rw [run_recording]
  rcases solve.run (tally, state) with ⟨_ | _, ⟨_, _⟩, _⟩
  · exact .failure
  · exact .value rfl

@[simp] theorem meets_recording {tally : Tally} {deeds : List (Deed γ S)} {state : σ}
    {given : R → Tally × List (Deed γ S) × σ → Prop}
    {failed : Interrupt → Tally × List (Deed γ S) × σ → Prop} :
    (recording solve).Meets (tally, deeds, state) given failed ↔
      solve.Meets (tally, state)
        (fun result after => given result
          (after.1, deeds ++ [solved (some (HasStatus.status result))], after.2))
        fun cause after => failed cause (after.1, deeds ++ [solved none], after.2) := by
  unfold Action.Meets
  rw [run_recording]
  -- What is noted says how the solve has ended.
  cases (solve.run (tally, state)).result with
  | ok result => rfl
  | error cause => rfl

end Recording

end Deed

namespace Separator

variable {separator : Separator σ γ μ}

/-- A separator that notes each candidate that it is about to add. -/
def declared (separator : Separator σ γ μ) : Separator (List (Deed γ S) × σ) γ μ :=
  { separator.onSecond with
    family :=
      { separator.family.onSecond with
        commit := fun candidate => do
          Deed.note (.added candidate)
          (separator.family.commit candidate).onSecond } }

@[simp] theorem meets_declared_commit {candidate : γ} {deeds : List (Deed γ S)} {state : σ}
    {given : Unit → List (Deed γ S) × σ → Prop}
    {failed : Interrupt → List (Deed γ S) × σ → Prop} :
    Action.Meets (separator.declared.family.commit candidate) (deeds, state) given failed ↔
      Action.Meets (separator.family.commit candidate) state
        (fun value after => given value (deeds ++ [.added candidate], after))
        fun cause after => failed cause (deeds ++ [.added candidate], after) := by
  simp [declared, Deed.note]

/-- Noting the candidates changes nothing else. -/
theorem shows_declared (separator : Separator σ γ μ) :
    (separator.declared (S := S)).Shows Prod.snd separator where
  policy := rfl
  family :=
    { separator.shows_snd.family with
      commit := fun candidate state => Action.shows_snd (separator.family.commit candidate)
        (state.1 ++ [.added candidate], state.2) }
  search := separator.shows_snd.search

/-- Nothing is noted while a separator looks for a candidate. -/
theorem looks_declared (separator : Separator σ γ μ) :
    (separator.declared (S := S)).Looks Prod.fst :=
  { separator.looks_onSecond with }

variable [Measure μ] [HasStatus R S] {solve : Action (Tally × σ) R}

/-- The loop that notes what its solves return and what its separator is about to add. -/
def recordedTask (separator : Separator σ γ μ) (fuel : Nat) (solve : Action (Tally × σ) R)
    (optimal : S) : Task (Tally × List (Deed γ S) × σ) R S Bool where
  solve := Deed.recording solve
  separate := separator.declared.call fuel
  optimal := optimal

/-- Noting what is done changes nothing else. -/
theorem shows_recordedTask (separator : Separator σ γ μ) (fuel : Nat)
    (solve : Action (Tally × σ) R) (optimal : S) :
    (separator.recordedTask fuel solve optimal).Shows (Prod.map id Prod.snd)
      (separator.task fuel solve optimal) :=
  ⟨Deed.shows_recording solve, separator.shows_declared.call fuel, rfl⟩

/-- A search behind an awaited solve is counted, and adds at most one candidate. -/
theorem declared_call_meets {isAwaited : S → Bool} {before : Tally × List (Deed γ S)}
    {tally : Tally} {deeds : List (Deed γ S)} {rows fuel : Nat} {status : S} {state : σ}
    (paced : Deed.Paced isAwaited before (tally, deeds) rows 1)
    (last : deeds.getLast? = some (.solved (some status))) (awaited : isAwaited status = true) :
    (separator.declared.call fuel).Meets (tally, deeds, state)
      (fun added after => Deed.Paced isAwaited before (after.1, after.2.1)
        (if added then rows + 1 else rows) 0)
      fun _ after => Deed.Alternate isAwaited after.2.1 := by
  refine separator.looks_declared.call_meets ?_ ?_ ?_
  -- The search finds nothing, or commits a candidate, or fails before it has one.
  · rintro ⟨later, now, state⟩ ⟨calls, rowsAdded, same⟩
    obtain rfl : now = deeds := same
    exact paced.pass calls rowsAdded
  · rintro ⟨later, now, state⟩ ⟨calls, rowsAdded, same⟩ candidate
    obtain rfl : now = deeds := same
    -- The attempt is noted before it is made, so that it is there even if it fails.
    refine meets_declared_commit.2 (Action.meets_of_forall (fun _ _ => ?_) fun _ _ => ?_)
    · exact paced.add last awaited candidate calls rowsAdded
    · exact paced.alternate_add last awaited candidate
  · rintro cause ⟨later, now, state⟩ ⟨-, -, same⟩
    obtain rfl : now = deeds := same
    exact paced.alternate

variable [Status S]

/-- The trace of a loop alternates, and the tally keeps pace with it. -/
def pacing (separator : Separator σ γ μ) (fuel : Nat) (leaves : solve.Leaves Prod.fst)
    (optimal : S) (before : Tally × List (Deed γ S)) (turns : Nat) :
    (separator.recordedTask fuel solve optimal).Course turns where
  holds
    | .before count, state =>
        Deed.Paced (separator.task fuel solve optimal).isOptimal before (state.1, state.2.1) count 0
    | .solved count result, state =>
        let isAwaited := (separator.task fuel solve optimal).isOptimal
        Deed.Paced isAwaited before (state.1, state.2.1) count
            (if isAwaited (HasStatus.status result) then 1 else 0) ∧
          state.2.1.getLast? = some (.solved (some (HasStatus.status result)))
    | .passed count _, state =>
        Deed.Paced (separator.task fuel solve optimal).isOptimal before (state.1, state.2.1) count 0
  failed _ state := Deed.Alternate (separator.task fuel solve optimal).isOptimal state.2.1
  solves := by
    rintro count ⟨tally, deeds, state⟩ - paced
    refine Deed.meets_recording.2 (leaves.meets ?_ ?_)
    · rintro result ⟨later, after⟩ same
      obtain rfl : later = tally := same
      exact ⟨paced.solve _, List.getLast?_concat⟩
    · -- A solve that fails is noted as well, and nothing is added behind it.
      rintro cause ⟨later, after⟩ -
      exact paced.alternate.solve none
  separates := by
    rintro count result ⟨tally, deeds, state⟩ - ⟨paced, last⟩ awaited
    have awaited : (separator.task fuel solve optimal).isOptimal (HasStatus.status result) = true :=
      awaited
    rw [if_pos awaited] at paced
    -- The search that is pending is the one that is made now.
    refine (declared_call_meets paced last awaited).mono ?_
    rintro added ⟨tally, deeds, state⟩ paced
    cases added with
    | true => exact paced
    | false => exact paced
  spent paced := paced.alternate

section Pacing

variable {leaves : solve.Leaves Prod.fst} {optimal : S} {fuel turns count : Nat}
  {before : Tally × List (Deed γ S)} {result : R} {state : Tally × List (Deed γ S) × σ}

/-- What is noted alternates at every phase. -/
theorem alternate_of_holds {phase : Task.Phase R}
    (held : (separator.pacing fuel leaves optimal before turns).holds phase state) :
    Deed.Alternate (separator.task fuel solve optimal).isOptimal state.2.1 := by
  cases phase with
  | before count => exact Deed.Paced.alternate held
  | solved count result => exact held.1.alternate
  | passed count result => exact Deed.Paced.alternate held

/-- The phase of a loop depends on the tally and on what is noted. -/
theorem holds_congr {phase : Task.Phase R} {tally : Tally} {deeds : List (Deed γ S)}
    {state other : σ}
    (held : (separator.pacing fuel leaves optimal before turns).holds phase (tally, deeds, state)) :
    (separator.pacing fuel leaves optimal before turns).holds phase (tally, deeds, other) := by
  cases phase with
  | before count => exact held
  | solved count result => exact held
  | passed count result => exact held

/-- No search is pending behind a solve that has ended otherwise. -/
theorem paced_of_solved
    (held : (separator.pacing fuel leaves optimal before turns).holds (.solved count result) state)
    (other : (separator.task fuel solve optimal).isOptimal (HasStatus.status result) = false) :
    Deed.Paced (separator.task fuel solve optimal).isOptimal before (state.1, state.2.1) count
      0 := by
  obtain ⟨paced, -⟩ := held
  rwa [if_neg (Bool.eq_false_iff.1 other)] at paced

end Pacing

end Separator

/-- One use of a loop: by itself, or under limits, before watchers and on a clock. -/
inductive Use (τ κ S K : Type) where
  | bare (turns : Nat)
  | supervised (limits : Limits K) (watchers : List (Watcher τ K S Bool))
      (last : Option (Report K S)) (clock : Clock κ K) (turns : Nat)

namespace Use

variable [HasStatus R S] [HasObjective R K] [Status S] [Scalar K]

/-- What a use of a task does; a supervised one gives its report. -/
def perform {τ : Type} (task : Task τ R S Bool) :
    Use τ κ S K → Action (κ × τ) (Option (Report K S))
  | bare turns => do
      let _ ← (task.alternate turns).onSecond
      return none
  | supervised limits watchers last clock turns =>
      some <$> Supervisor.solve ⟨task, limits, watchers, last⟩ clock turns

/-- The same use, whose watchers leave alone what is noted. -/
def past : Use (Tally × σ) κ S K → Use (Tally × List (Deed γ S) × σ) κ S K
  | bare turns => bare turns
  | supervised limits watchers last clock turns =>
      supervised limits (watchers.map fun watcher isSolved round => (watcher isSolved round).past)
        last clock turns

/-- A use whose watchers leave the tally alone. -/
def IsQuiet : Use (Tally × σ) κ S K → Prop
  | bare _ => True
  | supervised _ watchers _ _ _ => ∀ watcher ∈ watchers, ∀ isSolved round,
      Action.Leaves Prod.fst (watcher isSolved round)

variable [Measure μ] {separator : Separator σ γ μ} {fuel : Nat} {solve : Action (Tally × σ) R}
  {optimal : S}

/-- A use of the loop that notes what is done shows the same use of the loop. -/
theorem shows_past (use : Use (Tally × σ) κ S K) :
    Action.Shows (Prod.map id (Prod.map id Prod.snd)) Eq
      (use.past.perform (separator.recordedTask fuel solve optimal))
      (use.perform (separator.task fuel solve optimal)) := by
  have task := separator.shows_recordedTask fuel solve optimal
  -- In both ways the same task is used, once with what is noted and once without.
  cases use with
  | bare turns => exact (task.alternate turns).onSecond.andThen fun _ => Action.shows_pure rfl
  | supervised limits watchers last clock turns =>
    have shows : Supervisor.Shows (Prod.map id Prod.snd)
        ⟨separator.recordedTask fuel solve optimal, limits,
          watchers.map fun watcher isSolved round => (watcher isSolved round).past, last⟩
        ⟨separator.task fuel solve optimal, limits, watchers, last⟩ := by
      refine ⟨task, rfl, List.forall₂_map_left_iff.2 (List.forall₂_same.2 ?_), rfl⟩
      exact fun watcher _ isSolved round => Action.shows_past _
    exact (shows.solve clock turns).andThen fun report => Action.shows_pure rfl

variable (separator fuel optimal) in
/-- Watchers that leave the tally alone keep the pace of the loop that they watch. -/
theorem keeps_past (leaves : solve.Leaves Prod.fst) (limits : Limits K)
    {watchers : List (Watcher (Tally × σ) K S Bool)}
    (quiet : ∀ watcher ∈ watchers, ∀ isSolved round,
      Action.Leaves Prod.fst (watcher isSolved round)) (last : Option (Report K S))
    (clock : Clock κ K) (before : Tally × List (Deed γ S)) (turns : Nat) :
    Supervisor.Keeps ⟨separator.recordedTask fuel solve optimal, limits,
        watchers.map fun watcher isSolved round => (watcher isSolved round).past, last⟩
      (separator.pacing fuel leaves optimal before turns) clock (fun _ => True)
      fun _ => True where
  timed := limits.timed_trivial R clock
  watched := by
    intro watcher member isSolved round phase
    obtain ⟨plain, among, rfl⟩ := List.mem_map.1 member
    rintro ⟨tally, deeds, state⟩ held
    have alternate := Separator.alternate_of_holds held
    -- The watcher may change what is neither counted nor noted.
    refine Action.meets_past.2 ((quiet plain among isSolved round).meets ?_ ?_)
    · rintro answer ⟨later, after⟩ same
      obtain rfl : later = tally := same
      exact Separator.holds_congr held
    · -- A watcher that fails has noted nothing either.
      rintro cause after -
      exact alternate
  breaks := by
    rintro phase state fault held -
    exact Separator.alternate_of_holds held

/-- A use goes on from one trace that alternates to another one, with the tally in step. -/
theorem perform_meets (leaves : solve.Leaves Prod.fst) {use : Use (Tally × σ) κ S K}
    (quiet : use.IsQuiet) {begun : κ × Tally × List (Deed γ S) × σ}
    (alternate : Deed.Alternate (separator.task fuel solve optimal).isOptimal begun.2.2.1) :
    (use.past.perform (separator.recordedTask fuel solve optimal)).Meets begun
      (fun report after => ∃ rows : Nat, (∀ given ∈ report, given.rowsAdded = rows) ∧
        Deed.Paced (separator.task fuel solve optimal).isOptimal (begun.2.1, begun.2.2.1)
          (after.2.1, after.2.2.1) rows 0)
      fun _ after =>
        Deed.Alternate (separator.task fuel solve optimal).isOptimal after.2.2.1 := by
  obtain ⟨moment, tally, deeds, state⟩ := begun
  -- Nothing is done yet, and nothing is counted.
  have begun (turns : Nat) : (separator.pacing fuel leaves optimal (tally, deeds) turns).holds
      (.before 0) (tally, deeds, state) := Deed.paced_begun alternate
  cases use with
  | bare turns =>
    simp only [past, perform, Action.meets_bind, Action.meets_onSecond, Action.meets_pure]
    refine ((separator.pacing fuel leaves optimal (tally, deeds) turns).alternate_meets
      (Nat.add_zero turns) (begun turns)).mono ?_
    rintro status after ⟨count, result, rfl, ended⟩
    refine ⟨count, fun given impossible => absurd impossible (Option.not_mem_none given), ?_⟩
    -- The loop stops behind a search that has found nothing, or behind a solve without one.
    split at ended
    · exact ended
    · next other => exact Separator.paced_of_solved ended (Bool.eq_false_iff.2 other)
  | supervised limits watchers last clock turns =>
    simp only [past, perform, Action.meets_map]
    have keeps := keeps_past separator fuel optimal leaves limits quiet last clock
      (tally, deeds) turns
    refine (keeps.solve_meets (begun turns)).mono ?_
    rintro report after ⟨iterations, rows, -, same, closed⟩
    refine ⟨rows, ?_, ?_⟩
    · rintro _ ⟨⟩
      exact same
    · -- Wherever the run is closed, no search is pending.
      generalize report.ending = ending, report.status = status, report.objective = objective
        at closed
      cases closed with
      | refused held other => exact Separator.paced_of_solved held other
      | passed held optimal => exact held
      | cut within held cuts => exact held

/-- A use that gives its report agrees with what has been noted in it. -/
theorem exists_deeds (leaves : solve.Leaves Prod.fst) {use : Use (Tally × σ) κ S K}
    (quiet : use.IsQuiet) {begun : κ × Tally × List (Deed γ S) × σ} {plain : κ × Tally × σ}
    (alternate : Deed.Alternate (separator.task fuel solve optimal).isOptimal begun.2.2.1)
    (seen : Prod.map id (Prod.map id Prod.snd) begun = plain) {report : Report K S}
    (given : ((use.perform (separator.task fuel solve optimal)).run plain).result =
      .ok (some report)) :
    ∃ deeds, ((use.past.perform (separator.recordedTask fuel solve optimal)).run
        begun).state.2.2.1 = begun.2.2.1 ++ deeds ∧
      report.rowsAdded = (Deed.additions deeds : Int) ∧
      Deed.InStep (separator.task fuel solve optimal).isOptimal deeds plain.2.1
        ((use.perform (separator.task fuel solve optimal)).run plain).state.2.1 := by
  subst seen
  have shows : Action.Shows (Prod.map id (Prod.map id Prod.snd)) Eq
      (use.past.perform (separator.recordedTask fuel solve optimal))
      (use.perform (separator.task fuel solve optimal)) := use.shows_past
  rw [shows.run_eq begun] at given ⊢
  -- What the use gives in view, it gives with the notes as well.
  obtain ⟨rows, counted, paced⟩ := (perform_meets leaves quiet alternate).of_ok given
  obtain ⟨deeds, grown, added, inStep⟩ := paced.inStep
  refine ⟨deeds, grown, ?_, inStep⟩
  -- The rows of the report are those that the trace has grown by.
  rw [counted report rfl, added]

end Use

namespace Separator

variable [HasStatus R S] [HasObjective R K] [Status S] [Scalar K] [Measure μ]

section Uses

variable (separator : Separator σ γ μ) (fuel : Nat) (solve : Action (Tally × σ) R) (optimal : S)

/-- Where some uses of a loop lead, one after another, whether they fail or not. -/
def reached (uses : List (Use (Tally × σ) κ S K)) (begun : κ × Tally × σ) : κ × Tally × σ :=
  Action.leave (uses.map (Use.perform (separator.task fuel solve optimal))) begun

/-- Where the same uses lead of the loop that notes what is done. -/
def recorded (uses : List (Use (Tally × σ) κ S K)) (begun : κ × Tally × List (Deed γ S) × σ) :
    κ × Tally × List (Deed γ S) × σ :=
  Action.leave
    (uses.map fun use => use.past.perform (separator.recordedTask fuel solve optimal)) begun

/-- What is done in some uses of a loop, in its order. -/
def deedsOf (uses : List (Use (Tally × σ) κ S K)) (begun : κ × Tally × σ) : List (Deed γ S) :=
  (separator.recorded fuel solve optimal uses (begun.1, begun.2.1, [], begun.2.2)).2.2.1

/-- The loop that notes what is done leads to where the loop leads. -/
theorem view_recorded (uses : List (Use (Tally × σ) κ S K))
    (begun : κ × Tally × List (Deed γ S) × σ) :
    Prod.map id (Prod.map id Prod.snd) (separator.recorded fuel solve optimal uses begun) =
      separator.reached fuel solve optimal uses (Prod.map id (Prod.map id Prod.snd) begun) := by
  unfold recorded reached
  induction uses generalizing begun with
  | nil => rfl
  | cons use rest ih =>
    have shows : Action.Shows (Prod.map id (Prod.map id Prod.snd)) Eq
        (use.past.perform (separator.recordedTask fuel solve optimal))
        (use.perform (separator.task fuel solve optimal)) := use.shows_past
    -- Both make the same step, and one of them notes it.
    rw [List.map_cons, List.map_cons, Action.leave, Action.leave, ih, shows.run_eq begun]

/-- The last of some uses is made where the others have led. -/
theorem reached_append (uses : List (Use (Tally × σ) κ S K)) (next : Use (Tally × σ) κ S K)
    (begun : κ × Tally × σ) :
    separator.reached fuel solve optimal (uses ++ [next]) begun =
      ((next.perform (separator.task fuel solve optimal)).run
        (separator.reached fuel solve optimal uses begun)).state := by
  rw [reached, List.map_append, Action.leave_append]
  rfl

theorem recorded_append (uses : List (Use (Tally × σ) κ S K)) (next : Use (Tally × σ) κ S K)
    (begun : κ × Tally × List (Deed γ S) × σ) :
    separator.recorded fuel solve optimal (uses ++ [next]) begun =
      ((next.past.perform (separator.recordedTask fuel solve optimal)).run
        (separator.recorded fuel solve optimal uses begun)).state := by
  rw [recorded, List.map_append, Action.leave_append]
  rfl

end Uses

variable {separator : Separator σ γ μ} {fuel : Nat} {solve : Action (Tally × σ) R} {optimal : S}

/-- Uses of a loop, of which some may fail, go on with a trace that alternates. -/
theorem recorded_alternate (leaves : solve.Leaves Prod.fst) {uses : List (Use (Tally × σ) κ S K)}
    (quiet : ∀ use ∈ uses, use.IsQuiet) {begun : κ × Tally × List (Deed γ S) × σ}
    (alternate : Deed.Alternate (separator.task fuel solve optimal).isOptimal begun.2.2.1) :
    Deed.Alternate (separator.task fuel solve optimal).isOptimal
      (separator.recorded fuel solve optimal uses begun).2.2.1 := by
  unfold recorded
  induction uses generalizing begun with
  | nil => exact alternate
  | cons use rest ih =>
    have later (other : Use (Tally × σ) κ S K) (member : other ∈ rest) : other.IsQuiet :=
      quiet other (List.mem_cons_of_mem use member)
    have met := Use.perform_meets leaves (quiet use List.mem_cons_self) alternate
    -- The trace alternates behind the first use, whether that fails or not.
    rcases Action.meets_iff.1 met with ⟨report, -, rows, -, paced⟩ | ⟨cause, -, failed⟩
    · exact ih later paced.alternate
    · exact ih later failed

variable (separator fuel optimal)

/--
Solving and adding alternate, and the counters agree.

A separator of any policy is searched in any uses of a loop, of which any may fail: every attempt
to add comes right behind a solve that has returned the awaited status. In every use that gives a
report the rows of the report are the attempts made in it and the rows that the tally has gained,
which has gained one call for each solve that has returned the awaited status.
-/
theorem additions_alternate (leaves : solve.Leaves Prod.fst)
    {uses : List (Use (Tally × σ) κ S K)} (quiet : ∀ use ∈ uses, use.IsQuiet)
    (begun : κ × Tally × σ) :
    Deed.Alternate (separator.task fuel solve optimal).isOptimal
        (separator.deedsOf fuel solve optimal uses begun) ∧
      ∀ earlier next later, uses = earlier ++ next :: later →
        ∀ report, ((next.perform (separator.task fuel solve optimal)).run
            (separator.reached fuel solve optimal earlier begun)).result = .ok (some report) →
          ∃ deeds, separator.deedsOf fuel solve optimal (earlier ++ [next]) begun =
              separator.deedsOf fuel solve optimal earlier begun ++ deeds ∧
            report.rowsAdded = (Deed.additions deeds : Int) ∧
            Deed.InStep (separator.task fuel solve optimal).isOptimal deeds
              (separator.reached fuel solve optimal earlier begun).2.1
              (separator.reached fuel solve optimal (earlier ++ [next]) begun).2.1 := by
  have unwritten : Deed.Alternate (separator.task fuel solve optimal).isOptimal
      ([] : List (Deed γ S)) := throughout_nil _
  refine ⟨recorded_alternate leaves quiet unwritten, ?_⟩
  rintro earlier next later rfl report given
  have before (use : Use (Tally × σ) κ S K) (member : use ∈ earlier) : use.IsQuiet :=
    quiet use (List.mem_append_left _ member)
  have after : next.IsQuiet := quiet next (List.mem_append_right _ List.mem_cons_self)
  rw [deedsOf, deedsOf, recorded_append, reached_append]
  -- The use is made where the others have led, with a trace that alternates.
  exact Use.exists_deeds leaves after (recorded_alternate leaves before unwritten)
    (separator.view_recorded fuel solve optimal earlier _) given

end Separator

namespace Exploration

/-- Under a limit of one iteration. -/
def once : Use (Tally × Rotation Unit × List (Option ℚ)) Nat LpStatus ℚ :=
  .supervised ⟨1, 0, true, true⟩ [] none Supervisor.ticking 3

/-- Under a limit, then before a watcher that fails, and then by itself. -/
def thrice : List (Use (Tally × Rotation Unit × List (Option ℚ)) Nat LpStatus ℚ) :=
  [once, .supervised Limits.none [fun _ _ => Action.raise .outOfRange] none Supervisor.ticking 3,
    .bare 3]

/-- A row is added in each of the first two uses, of which one fails, and none in the third. -/
theorem additions_alternate_written :
    (written .deepest).separator.deedsOf 3 solving LpStatus.optimal thrice (0, unwritten) =
        [.solved (some .optimal), .added 1, .solved (some .optimal), .added 0,
          .solved (some .optimal)] ∧
      Deed.Alternate ((written .deepest).separator.task 3 solving LpStatus.optimal).isOptimal
        ((written .deepest).separator.deedsOf 3 solving LpStatus.optimal thrice (0, unwritten)) ∧
      ∃ report, ((once.perform ((written .deepest).separator.task 3 solving LpStatus.optimal)).run
          (0, unwritten)).result = .ok (some report) ∧
        ∃ deeds, (written .deepest).separator.deedsOf 3 solving LpStatus.optimal [once]
            (0, unwritten) = deeds ∧
          report.rowsAdded = (Deed.additions deeds : Int) ∧
          Deed.InStep ((written .deepest).separator.task 3 solving LpStatus.optimal).isOptimal deeds
            .zero ((written .deepest).separator.reached 3 solving LpStatus.optimal [once]
              (0, unwritten)).2.1 := by
  have leaves : solving.Leaves Prod.fst := fun _ => rfl
  have quiet : ∀ use ∈ thrice, use.IsQuiet := by
    intro use member
    rcases List.mem_cons.1 member with rfl | member
    · exact nofun
    · rcases List.mem_cons.1 member with rfl | member
      · -- The watcher that fails leaves everything as it is.
        intro watcher among
        rw [List.mem_singleton.1 among]
        exact fun _ _ _ => rfl
      · rw [List.mem_singleton.1 member]
        trivial
  obtain ⟨alternate, agrees⟩ := (written .deepest).separator.additions_alternate 3 LpStatus.optimal
    leaves quiet (0, unwritten)
  obtain ⟨report, given⟩ : ∃ report,
      ((once.perform ((written .deepest).separator.task 3 solving LpStatus.optimal)).run
        (0, unwritten)).result = .ok (some report) := ⟨_, rfl⟩
  obtain ⟨deeds, grown, added, inStep⟩ := agrees [] once _ rfl report given
  exact ⟨rfl, alternate, report, given, deeds, grown, added, inStep⟩

end Exploration

end CuttingPlanes
