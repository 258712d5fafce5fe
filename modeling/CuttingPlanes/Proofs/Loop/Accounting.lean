import CuttingPlanes.Proofs.Loop.Chronicle
import CuttingPlanes.Proofs.Loop.Invocation
import CuttingPlanes.Proofs.Loop.Refinement

/-! The accounts of a run: what it reports agrees with its record and with its calls. -/

namespace CuttingPlanes

variable {σ κ R S A K : Type}

namespace Scalar

variable [Scalar K]

/-- The sum of some values, from the left. -/
def total (values : List K) : Except Fault K := values.foldlM add (ofRat 0)

/-- One more value is added to the sum of those before it. -/
theorem total_append {values : List K} {value before after : K}
    (known : total values = .ok before) (added : add before value = .ok after) :
    total (values ++ [value]) = .ok after := by
  rw [total, List.foldlM_append, ← total, known]
  -- What is left of the sum is one addition.
  show add before value >>= pure = Except.ok after
  rw [added]
  rfl

/-- Zero added to a sum leaves it as it is. -/
def ZeroIsNeutral (K : Type) [Scalar K] : Prop :=
  ∀ {values : List K} {sum : K}, total values = .ok sum → add sum (ofRat 0) = .ok sum

theorem zeroIsNeutral_rat : ZeroIsNeutral ℚ := by
  intro values sum _
  show Except.ok (sum + 0) = Except.ok sum
  rw [add_zero]

end Scalar

namespace Round

/-- Iterations numbered from one on that have all added a row after a solve as awaited. -/
structure AllGoOn (isAwaited : S → Bool) (rounds : List (Round K S)) : Prop where
  numbered : rounds.map Round.iteration = List.range' 1 rounds.length
  added : ∀ round ∈ rounds, round.rowAdded = true ∧ isAwaited round.status = true

/-- One more iteration that has gone on is numbered behind the others. -/
theorem AllGoOn.append {isAwaited : S → Bool} {rounds : List (Round K S)} {last : Round K S}
    (goOn : AllGoOn isAwaited rounds) (iteration : last.iteration = rounds.length + 1)
    (added : last.rowAdded = true ∧ isAwaited last.status = true) :
    AllGoOn isAwaited (rounds ++ [last]) where
  numbered := by
    -- The new iteration has the number behind the last one.
    rw [List.map_append, goOn.numbered, List.length_append, List.length_singleton,
      List.range'_1_concat, Nat.add_comm 1, ← iteration]
    rfl
  added := by
    intro round member
    -- An iteration is one of those before, or it is the new one.
    rcases List.mem_append.1 member with earlier | new
    · exact goOn.added round earlier
    · rw [List.mem_singleton.1 new]
      exact added

end Round

namespace Progress

variable [Scalar K] {isAwaited : S → Bool} {progress : Progress K S}

/-- What a run has gathered ahead of an iteration agrees with its record. -/
structure Kept (isAwaited : S → Bool) (progress : Progress K S) : Prop where
  goOn : Round.AllGoOn isAwaited progress.rounds
  rowsAdded : progress.rowsAdded = progress.rounds.length
  solveTime : Scalar.total (progress.rounds.map Round.solveTime) = .ok progress.solveTime
  separationTime :
    Scalar.total (progress.rounds.map Round.separationTime) = .ok progress.separationTime

theorem kept_begun : Kept isAwaited (begun : Progress K S) where
  goOn := ⟨rfl, nofun⟩
  rowsAdded := rfl
  solveTime := rfl
  separationTime := rfl

/-- What a run has gathered behind its last iteration agrees with the record of all of them. -/
structure Closed (isAwaited : S → Bool) (progress : Progress K S) (earlier : List (Round K S))
    (last : Round K S) : Prop where
  rounds : progress.rounds = earlier ++ [last]
  goOn : Round.AllGoOn isAwaited earlier
  iteration : last.iteration = earlier.length + 1
  awaited : last.rowAdded = true → isAwaited last.status = true
  rowsAdded : progress.rowsAdded = earlier.length + if last.rowAdded then 1 else 0
  solveTime : Scalar.total (progress.rounds.map Round.solveTime) = .ok progress.solveTime
  /-- Without a search the last iteration adds nothing to the time of searches. -/
  separationTime : if isAwaited last.status then
    Scalar.total (progress.rounds.map Round.separationTime) = .ok progress.separationTime
      else Scalar.total (earlier.map Round.separationTime) = .ok progress.separationTime ∧
        last.separationTime = Scalar.ofRat 0

variable [HasStatus R S] [HasObjective R K] {result : R} {taken spent lasted all : K}

/-- A solve that ended otherwise closes the record without a search. -/
theorem Kept.refused (kept : progress.Kept isAwaited)
    (added : Scalar.add progress.solveTime taken = .ok spent)
    (other : isAwaited (HasStatus.status result) = false) :
    Closed isAwaited (recorded { progress with solveTime := spent }
      (progress.next result false taken (Scalar.ofRat 0))) progress.rounds
        (progress.next result false taken (Scalar.ofRat 0)) where
  rounds := rfl
  goOn := kept.goOn
  iteration := rfl
  awaited := nofun
  rowsAdded := kept.rowsAdded
  solveTime := by
    simp only [recorded, next, List.map_append, List.map_cons, List.map_nil]
    exact Scalar.total_append kept.solveTime added
  separationTime := by
    -- No search was made, so that the total is still that of the iterations before.
    simp only [next, other, Bool.false_eq_true, if_false, and_true]
    exact kept.separationTime

/-- A search closes the record of its iteration, whatever it has found. -/
theorem Kept.searched (kept : progress.Kept isAwaited)
    (added : Scalar.add progress.solveTime taken = .ok spent)
    (optimal : isAwaited (HasStatus.status result) = true) {found : Bool}
    (sum : Scalar.add progress.separationTime lasted = .ok all) :
    Closed isAwaited
      (Progress.searched { progress with solveTime := spent } all
        (progress.next result found taken lasted)) progress.rounds
        (progress.next result found taken lasted) where
  rounds := rfl
  goOn := kept.goOn
  iteration := rfl
  awaited _ := optimal
  rowsAdded := by
    -- Every iteration before has added a row.
    rw [← kept.rowsAdded]
    rfl
  solveTime := by
    simp only [Progress.searched, next, List.map_append, List.map_cons, List.map_nil]
    exact Scalar.total_append kept.solveTime added
  separationTime := by
    simp only [Progress.searched, next, optimal, if_true, List.map_append, List.map_cons,
      List.map_nil]
    exact Scalar.total_append kept.separationTime sum

omit [HasStatus R S] [HasObjective R K] in
/-- A record of iterations that have all gone on is what the next iteration starts from. -/
theorem Closed.kept {earlier : List (Round K S)} {last : Round K S}
    (closed : progress.Closed isAwaited earlier last) (added : last.rowAdded = true) :
    progress.Kept isAwaited where
  goOn := by
    rw [closed.rounds]
    exact closed.goOn.append closed.iteration ⟨added, closed.awaited added⟩
  rowsAdded := by
    rw [closed.rowsAdded, closed.rounds, if_pos added, List.length_append, List.length_singleton]
  solveTime := closed.solveTime
  separationTime := by
    -- An iteration that has added a row has been searched.
    have sum := closed.separationTime
    rwa [if_pos (closed.awaited added)] at sum

end Progress

/-- A report that agrees with its record, with the number of its solves and with its ending. -/
structure Report.Accounts [Scalar K] (isAwaited : S → Bool) (solves : Nat) (report : Report K S) :
    Prop where
  iterations_pos : 1 ≤ report.iterations
  solves : report.iterations = solves
  rounds : report.iterations = report.rounds.length
  numbered : report.rounds.map Round.iteration = List.range' 1 report.rounds.length
  goOn : ∀ round ∈ report.rounds.dropLast, round.rowAdded = true ∧ isAwaited round.status = true
  rowsAdded : report.rowsAdded = report.rounds.countP Round.rowAdded
  last : ∃ round ∈ report.rounds.getLast?,
    report.status = round.status ∧ report.objective = round.objective
  solveTime : Scalar.total (report.rounds.map Round.solveTime) = .ok report.solveTime
  /-- Only an iteration that is searched takes a time for it, and a last one may not be. -/
  searches : Scalar.total ((report.rounds.filter fun round => isAwaited round.status).map
    Round.separationTime) = .ok report.separationTime
  unsearched : ∀ round ∈ report.rounds, isAwaited round.status = false →
    round.separationTime = Scalar.ofRat 0
  separationTime : Scalar.ZeroIsNeutral K →
    Scalar.total (report.rounds.map Round.separationTime) = .ok report.separationTime
  cut : report.rowsAdded = report.iterations ↔
    report.ending ∈ [.iterationLimit, .timeLimit, .stopped]
  finished : report.rowsAdded = report.iterations - 1 ↔
    report.ending ∈ [.optimal, .infeasible, .unbounded, .lpError]
  solved : report.ending ≠ .notSolved

/-- A status never ends a run as a limit or a watcher does. -/
theorem Ending.ofStatus_mem [Status S] (status : S) :
    Ending.ofStatus status ∈ [Ending.optimal, .infeasible, .unbounded, .lpError] := by
  unfold ofStatus
  -- Whatever the name of the status is, it stands for one of the four.
  split <;> decide

/-- A run that is cut short has not finished, and none of the two says that there was no run. -/
theorem Ending.notMem_of_mem {ending : Ending} :
    (ending ∈ [iterationLimit, timeLimit, stopped] →
      ending ∉ [optimal, infeasible, unbounded, lpError] ∧ ending ≠ notSolved) ∧
    (ending ∈ [optimal, infeasible, unbounded, lpError] →
      ending ∉ [iterationLimit, timeLimit, stopped] ∧ ending ≠ notSolved) := by
  cases ending <;> decide

/-- A run is cut short after a row, and finished after an iteration without one. -/
theorem Supervisor.Exits.mem [Status S] [Scalar K] {supervisor : Supervisor σ R S A K}
    {clock : Clock κ K} {start : K} {round : Round K S} {said : List Bool} {moment later : κ}
    {ending : Ending} (exits : supervisor.Exits clock start round said moment ending later)
    (awaited : round.rowAdded = true → supervisor.task.isOptimal round.status = true) :
    ending ∈ if round.rowAdded then [Ending.iterationLimit, .timeLimit, .stopped]
      else [Ending.optimal, .infeasible, .unbounded, .lpError] := by
  cases exits with
  | refused other =>
    cases added : round.rowAdded with
    | false => exact Ending.ofStatus_mem round.status
    | true => exact absurd (awaited added) (Bool.eq_false_iff.1 other)
  | passed optimal none => simp [none]
  | stopped optimal added no => simp [added]
  | iterations optimal added agreed spent => simp [added]
  | time optimal added agreed within taken spent => simp [added]

namespace Progress.Closed

variable [Scalar K] {isAwaited : S → Bool} {progress : Progress K S} {earlier : List (Round K S)}
  {last : Round K S} (closed : progress.Closed isAwaited earlier last)

include closed

theorem length_eq : progress.rounds.length = earlier.length + 1 := by
  rw [closed.rounds, List.length_append, List.length_singleton]

/-- The last iteration is numbered behind the ones that have gone on. -/
theorem numbered :
    progress.rounds.map Round.iteration = List.range' 1 progress.rounds.length := by
  rw [closed.length_eq, closed.rounds, List.map_append, closed.goOn.numbered,
    List.range'_1_concat, Nat.add_comm 1, ← closed.iteration]
  rfl

/-- Every iteration before the last one has added a row. -/
theorem rowsAdded_eq : progress.rowsAdded = progress.rounds.countP Round.rowAdded := by
  have all : earlier.countP Round.rowAdded = earlier.length :=
    List.countP_eq_length.2 fun round member => (closed.goOn.added round member).1
  rw [closed.rowsAdded, closed.rounds, List.countP_append, all, List.countP_singleton]

/-- The searches were made in the iterations whose solve ended as awaited. -/
theorem searches :
    Scalar.total ((progress.rounds.filter fun round => isAwaited round.status).map
      Round.separationTime) = .ok progress.separationTime := by
  have all : earlier.filter (fun round => isAwaited round.status) = earlier :=
    List.filter_eq_self.2 fun round member => (closed.goOn.added round member).2
  have times := closed.separationTime
  rw [closed.rounds, List.filter_append, all]
  -- Only the last iteration may be left out.
  cases awaited : isAwaited last.status with
  | true =>
    rw [if_pos awaited, closed.rounds] at times
    simpa [awaited] using times
  | false =>
    rw [if_neg (Bool.eq_false_iff.1 awaited)] at times
    simpa [awaited] using times.1

/-- An iteration without a search is the last one, and takes no time for it. -/
theorem unsearched : ∀ round ∈ progress.rounds, isAwaited round.status = false →
    round.separationTime = Scalar.ofRat 0 := by
  intro round member other
  rw [closed.rounds] at member
  rcases List.mem_append.1 member with before | new
  · -- All iterations before the last one are searched.
    have awaited := (closed.goOn.added round before).2
    exact absurd awaited (Bool.eq_false_iff.1 other)
  · obtain rfl := List.mem_singleton.1 new
    have times := closed.separationTime
    rw [if_neg (Bool.eq_false_iff.1 other)] at times
    exact times.2

/-- The time of an iteration without a search changes nothing in a sum. -/
theorem total_separationTime (neutral : Scalar.ZeroIsNeutral K) :
    Scalar.total (progress.rounds.map Round.separationTime) = .ok progress.separationTime := by
  have times := closed.separationTime
  cases awaited : isAwaited last.status with
  | true => rwa [if_pos awaited] at times
  | false =>
    rw [if_neg (Bool.eq_false_iff.1 awaited)] at times
    obtain ⟨known, none⟩ := times
    rw [closed.rounds, List.map_append]
    refine Scalar.total_append known ?_
    -- What comes last in the sum is the zero of an iteration without a search.
    rw [none]
    exact neutral known

/-- The report of a closed record agrees with it. -/
theorem accounts {ending : Ending}
    (among : ending ∈ if last.rowAdded then [Ending.iterationLimit, .timeLimit, .stopped]
      else [Ending.optimal, .infeasible, .unbounded, .lpError]) (total : K) :
    (progress.report ending last total).Accounts isAwaited progress.rounds.length := by
  have length := closed.length_eq
  have rows := closed.rowsAdded
  -- Only a run that is cut short has added a row in its last iteration.
  have told : (progress.rowsAdded : Int) = progress.rounds.length ∧
        ending ∈ [.iterationLimit, .timeLimit, .stopped] ∨
      (progress.rowsAdded : Int) = progress.rounds.length - 1 ∧
        ending ∈ [.optimal, .infeasible, .unbounded, .lpError] := by
    cases added : last.rowAdded with
    | true =>
      rw [added] at rows among
      exact .inl ⟨by simp [rows, length], among⟩
    | false =>
      rw [added] at rows among
      exact .inr ⟨by simp [rows, length], among⟩
  exact
    { iterations_pos := by
        show (1 : Int) ≤ progress.rounds.length
        omega
      solves := rfl
      rounds := rfl
      numbered := closed.numbered
      goOn := by
        show ∀ round ∈ progress.rounds.dropLast, _
        rw [closed.rounds, List.dropLast_concat]
        exact closed.goOn.added
      rowsAdded := congrArg Nat.cast closed.rowsAdded_eq
      last := ⟨last, by simp [report, closed.rounds], rfl, rfl⟩
      solveTime := closed.solveTime
      searches := closed.searches
      unsearched := closed.unsearched
      separationTime := closed.total_separationTime
      cut := by
        show (progress.rowsAdded : Int) = progress.rounds.length ↔ _
        rcases told with ⟨same, cut⟩ | ⟨short, finished⟩
        · exact iff_of_true same cut
        · exact iff_of_false (by omega) (Ending.notMem_of_mem.2 finished).1
      finished := by
        show (progress.rowsAdded : Int) = progress.rounds.length - 1 ↔ _
        rcases told with ⟨same, cut⟩ | ⟨short, finished⟩
        · exact iff_of_false (by omega) (Ending.notMem_of_mem.1 cut).1
        · exact iff_of_true short finished
      solved := by
        rcases told with ⟨same, cut⟩ | ⟨short, finished⟩
        · exact (Ending.notMem_of_mem.1 cut).2
        · exact (Ending.notMem_of_mem.2 finished).2 }

end Progress.Closed

/-- Calls with some number of solves, of which every watcher is told what is right. -/
structure Event.Counted (isSolved : Bool) (calls : List Event) (count : Nat) : Prop where
  solves : Event.solves calls = count
  told : Event.Told isSolved calls

namespace Event.Counted

variable {isSolved : Bool} {calls : List Event} {count : Nat}
  (counted : Counted isSolved calls count)

include counted

theorem solve : Counted isSolved (calls ++ [.solve]) (count + 1) :=
  ⟨by rw [solves_append_solve, counted.solves], counted.told.append nofun⟩

theorem separate : Counted isSolved (calls ++ [.separate]) count :=
  ⟨by rw [solves_append_separate, counted.solves], counted.told.append nofun⟩

/-- A watcher is shown the latest iteration. -/
theorem watch (position : Nat) :
    Counted isSolved (calls ++ [.watch position count isSolved]) count where
  solves := by rw [solves_append_watch, counted.solves]
  told := counted.told.append fun _ _ _ same => by
    cases same
    exact ⟨rfl, counted.solves.symm⟩

end Event.Counted

namespace Supervisor

variable [HasStatus R S] [HasObjective R K] [Status S] [Answer A] [Scalar K]
  (supervisor : Supervisor σ R S A K) (clock : Clock κ K) (turns : Nat)

/-- What a run gathers agrees with its record, and its record with its calls. -/
def accounting (start : K) : supervisor.announced.Chronicle clock start turns where
  holds
    | .before progress, _, state =>
        progress.Kept supervisor.task.isOptimal ∧
          Event.Counted supervisor.isSolved state.1 progress.rounds.length
    | .solved progress _, _, state =>
        progress.Kept supervisor.task.isOptimal ∧
          Event.Counted supervisor.isSolved state.1 (progress.rounds.length + 1)
    | .searched progress result taken _, _, state =>
        supervisor.task.isOptimal (HasStatus.status result) = true ∧
          Event.Counted supervisor.isSolved state.1 (progress.rounds.length + 1) ∧
            ∃ before : Progress K S, before.Kept supervisor.task.isOptimal ∧
              Scalar.add before.solveTime taken = .ok progress.solveTime ∧
                progress = { before with solveTime := progress.solveTime }
    | .shown progress round _, _, state =>
        Event.Counted supervisor.isSolved state.1 progress.rounds.length ∧
          ∃ earlier, progress.Closed supervisor.task.isOptimal earlier round
  failed _ state := Event.Told supervisor.isSolved state.1
  solves := by
    rintro progress moment ⟨calls, state⟩ - ⟨kept, counted⟩
    -- The solve is noted before it is made, so that it counts even if it fails.
    have noted := counted.solve
    exact Action.meets_announced.2
      (Action.meets_of_forall (fun _ _ => ⟨kept, noted⟩) fun _ _ => noted.told)
  separates := by
    rintro progress result moment ⟨calls, state⟩ taken spent ⟨kept, counted⟩ optimal takes
    have noted := counted.separate
    refine Action.meets_announced.2
      (Action.meets_of_forall (fun _ _ => ?_) fun _ _ => noted.told)
    exact ⟨optimal, noted, progress, kept, takes.add_eq, rfl⟩
  refuses := by
    rintro progress result moment ⟨calls, state⟩ taken spent ⟨kept, counted⟩ other takes
    refine ⟨?_, progress.rounds, kept.refused takes.add_eq other⟩
    simpa [Progress.recorded] using counted
  records := by
    rintro progress result taken added moment ⟨calls, state⟩ lasted spent
      ⟨optimal, counted, before, kept, known, same⟩ takes
    rw [same] at takes counted ⊢
    -- Both times of the iteration go into the totals of before.
    refine ⟨?_, before.rounds, kept.searched known optimal takes.add_eq⟩
    simpa [Progress.searched] using counted
  watches := by
    rintro watcher member progress round said moment ⟨calls, state⟩ ⟨counted, earlier, closed⟩
    obtain ⟨position, plain, -, rfl⟩ := exists_of_mem_announced member
    -- The iteration that is shown is the latest one, by its number.
    have iteration : round.iteration = progress.rounds.length := by
      rw [closed.iteration, closed.length_eq]
    have noted := counted.watch position
    rw [← iteration] at noted
    refine Action.meets_announced.2
      (Action.meets_of_forall (fun _ _ => ?_) fun _ _ => noted.told)
    exact ⟨iteration ▸ noted, earlier, closed⟩
  goesOn := by
    rintro progress round said moment ⟨calls, state⟩ ⟨counted, earlier, closed⟩ continues
    exact ⟨closed.kept continues.added, counted⟩
  spent := by
    rintro progress moment ⟨calls, state⟩ - ⟨-, counted⟩
    exact counted.told

/-- A run reports what agrees with its record and with its calls, or it has failed. -/
theorem announced_meets (moment : κ) (state : σ) :
    (supervisor.announced.solve clock turns).Meets (moment, [], state)
      (fun report after => Event.Told supervisor.isSolved after.2.1 ∧
        report.Accounts supervisor.task.isOptimal (Event.solves after.2.1))
      fun _ after => Event.Told supervisor.isSolved after.2.1 := by
  have covers : (supervisor.accounting clock turns (clock.reading moment 0)).Covers
      (fun _ => True) fun _ => True := by
    refine ⟨supervisor.announced.limits.timed_trivial R clock, fun {stage} _ _ _ held _ => ?_⟩
    -- Wherever something is refused, the watchers have been told what is right.
    cases stage with
    | before progress => exact held.2.told
    | solved progress result => exact held.2.told
    | searched progress result taken added => exact held.2.1.told
    | shown progress round said => exact held.1.told
  have begun : Event.Counted supervisor.isSolved [] 0 := ⟨rfl, throughout_nil _⟩
  -- A run stops behind the record of an iteration, which closes it.
  refine (Chronicle.solve_meets covers ⟨Progress.kept_begun, begun⟩).mono ?_
  rintro _ after ⟨⟨counted, earlier, closed⟩, exits, elapsed⟩
  rw [counted.solves]
  exact ⟨counted.told, closed.accounts (exits.mem closed.awaited) _⟩

variable {supervisor clock turns}

/--
The accounts of a run that gives a report.

This holds for all callables, limits, watchers and clocks, and after any number of iterations.
-/
theorem accounts_of_solve {moment : κ} {state : σ} {report : Report K S}
    (given : ((supervisor.solve clock turns).run (moment, state)).result = .ok report) :
    report.Accounts supervisor.task.isOptimal
      (Event.solves (supervisor.invocations clock turns moment state)) := by
  have met := supervisor.announced_meets clock turns moment state
  -- The run that notes its calls gives the same report.
  rw [← supervisor.announced_result clock turns moment state] at given
  exact (met.of_ok given).2

/-- Two rows to add within three iterations, in the sight of someone who always agrees. -/
def attended : Supervisor Nat (LpAnswer ℚ) LpStatus Bool ℚ where
  task := .countdown ⟨.optimal, some 1, [], [], 0, 0, 0⟩ .optimal
  limits := ⟨5, 0, true, true⟩
  watchers := [fun _ _ => pure true]
  last := none

/-- Two rows are added, and the third search finds nothing. -/
theorem accounts_of_attended :
    ∃ report, ((attended.solve ticking 4).run (0, 2)).result = .ok report ∧
      report.ending = .optimal ∧ report.iterations = 3 ∧
      report.Accounts attended.task.isOptimal
        (Event.solves (attended.invocations ticking 4 0 2)) ∧
      Scalar.total (report.rounds.map Round.separationTime) = .ok report.separationTime := by
  obtain ⟨report, given, ending, iterations⟩ :
      ∃ report, ((attended.solve ticking 4).run (0, 2)).result = .ok report ∧
        report.ending = .optimal ∧ report.iterations = 3 := by
    refine ⟨_, rfl, ?_, ?_⟩
    · rfl
    · rfl
  have accounts := accounts_of_solve given
  -- The numbers of this run are exact, so that a time of nothing changes no sum.
  exact ⟨report, given, ending, iterations, accounts,
    accounts.separationTime Scalar.zeroIsNeutral_rat⟩

end Supervisor

end CuttingPlanes
