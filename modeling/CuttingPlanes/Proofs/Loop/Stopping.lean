import CuttingPlanes.Proofs.Loop.Chronicle
import CuttingPlanes.Proofs.Loop.Refinement

/-! Where a run stops, and with which ending: the first iteration that has a verdict decides. -/

namespace CuttingPlanes

variable {σ τ κ R S A K : Type}

namespace Action

variable {α : Type}

/-- A computation whose value is noted beside its state. -/
def noting (note : α → τ → τ) (action : Action σ α) : Action (τ × σ) α := do
  let value ← action.onSecond
  Action.modify fun state => (note value state.1, state.2)
  return value

/-- What is noted is out of view. -/
theorem shows_noting (note : α → τ → τ) (action : Action σ α) :
    Shows Prod.snd Eq (noting note action) action := by
  have plain : Shows Prod.snd Eq (noting note action) (action >>= pure) :=
    -- Behind the call only the notes change.
    (shows_snd action).andThen fun value _ => .value rfl
  rwa [bind_pure] at plain

@[simp] theorem meets_noting {note : α → τ → τ} {action : Action σ α} {notes : τ} {state : σ}
    {given : α → τ × σ → Prop} {failed : Interrupt → τ × σ → Prop} :
    Meets (noting note action) (notes, state) given failed ↔
      Meets action state (fun value after => given value (note value notes, after))
        fun cause after => failed cause (notes, after) := by
  simp [noting]

/-- A computation that never fails. -/
def Total (action : Action σ α) : Prop :=
  ∀ state, ∃ value, (action.run state).result = .ok value

/-- What holds of every value is met by a computation that never fails. -/
theorem Total.meets {action : Action σ α} (total : Total action) {state : σ}
    {given : α → σ → Prop} {failed : Interrupt → σ → Prop}
    (follows : ∀ value after, given value after) : Meets action state given failed := by
  obtain ⟨value, ended⟩ := total state
  -- Nothing has to be shown of failures, of which there are none.
  exact meets_iff.2 (.inl ⟨value, ended, follows value _⟩)

end Action

namespace Limits

variable [Scalar K]

/-- Whether a limit is positive, and a value has reached it. -/
def reached (limit value : K) : Bool :=
  (Scalar.order .greater limit (Scalar.ofInt 0)).toOption == some true &&
    (Scalar.order .atLeast value limit).toOption == some true

/-- A limit is compared with a value only where it is positive. -/
theorem reached_eq {limit value : K} {answer : Bool}
    (made : (do
      if ← Scalar.order .greater limit (Scalar.ofInt 0) then Scalar.order .atLeast value limit
      else return false) = .ok answer) : reached limit value = answer := by
  unfold reached
  -- Whether the limit is positive is asked first, and the value only then.
  cases positive : Scalar.order .greater limit (Scalar.ofInt 0) with
  | error fault => simp [positive, bind, Except.bind] at made
  | ok limited =>
    cases limited with
    | false =>
      simp only [positive, bind, Except.bind, Bool.false_eq_true, if_false, pure, Except.pure,
        Except.ok.injEq] at made
      simp [Except.toOption, ← made]
    | true =>
      simp only [positive, bind, Except.bind, if_true] at made
      simp [Except.toOption, made]

/-- A limit that is not positive is never reached. -/
theorem reached_eq_false {limit : K}
    (idle : Scalar.order .greater limit (Scalar.ofInt 0) = .ok false) (value : K) :
    reached limit value = false := by
  simp [reached, idle, Except.toOption]

end Limits

/-- What is answered in one iteration. -/
structure Sight (S : Type) where
  status : S
  /-- Whether the search has found a row, where one was made. -/
  found : Option Bool
  /-- The answers of the watchers, up to the first that refuses. -/
  agreed : List Bool

namespace Sight

/-- The iteration that begins with a solve. -/
def ofStatus (status : S) : Sight S := ⟨status, none, []⟩

/-- What the latest iteration has been answered, changed. -/
def onLatest (change : Sight S → Sight S) : List (Sight S) → List (Sight S)
  | [] => []
  | latest :: earlier => change latest :: earlier

/-- A search has answered. -/
def searched (answer : Bool) (sight : Sight S) : Sight S := { sight with found := some answer }

/-- One more watcher has answered. -/
def asked (answer : Bool) (sight : Sight S) : Sight S :=
  { sight with agreed := sight.agreed ++ [answer] }

/-- What has been answered by the time an iteration is recorded and watchers have said something. -/
def ofRound (isAwaited : S → Bool) (round : Round K S) (said : List Bool) : Sight S where
  status := round.status
  found := if isAwaited round.status then some round.rowAdded else none
  agreed := said

end Sight

/-- The ending of a status other than the awaited one is what its name says. -/
theorem Ending.ofStatus_eq [Status S] (status : S) :
    Ending.ofStatus status =
      if Status.name? status = some "INFEASIBLE" then .infeasible
      else if Status.name? status = some "UNBOUNDED" then .unbounded
      else .lpError := by
  unfold ofStatus
  split <;> simp_all

namespace Supervisor

section Verdicts

variable [Status S] [Scalar K]

/-- The time of a run behind an iteration; each one that goes on reads the clock five times. -/
def elapsed (clock : Clock κ K) (moment : κ) (iteration : Nat) : Except Fault K :=
  Scalar.sub (clock.reading moment (5 * iteration)) (clock.reading moment 0)

/--
The ending of a run that stops after an iteration, where it does.

The status of the solve comes first, and then the search, the watchers, the number of iterations
and the time.
-/
def verdict (supervisor : Supervisor σ R S A K) (clock : Clock κ K) (moment : κ) (iteration : Nat)
    (sight : Sight S) : Option Ending :=
  if supervisor.task.isOptimal sight.status = false then
    if Status.name? sight.status = some "INFEASIBLE" then some .infeasible
    else if Status.name? sight.status = some "UNBOUNDED" then some .unbounded
    else some .lpError
  else if sight.found = some false then some .optimal
  else if false ∈ sight.agreed then some .stopped
  else if Limits.reached supervisor.limits.maxIterations (Scalar.ofInt iteration) then
    some .iterationLimit
  else if (elapsed clock moment iteration).toOption.any
    (Limits.reached supervisor.limits.maxTime) then some .timeLimit
  else none

/-- The verdicts on some iterations, which are counted from one. -/
def verdicts (supervisor : Supervisor σ R S A K) (clock : Clock κ K) (moment : κ)
    (sights : List (Sight S)) : List (Option Ending) :=
  sights.mapIdx fun position sight => supervisor.verdict clock moment (position + 1) sight

variable {supervisor : Supervisor σ R S A K} {clock : Clock κ K} {moment : κ} {round : Round K S}
  {said : List Bool}

/-- An iteration after which a run stops has the ending of the run as its verdict. -/
theorem verdict_of_exits {present later : κ} {ending : Ending}
    (exits : supervisor.Exits clock (clock.reading moment 0) round said present ending later)
    (timely : supervisor.task.isOptimal round.status = true →
      present = clock.later moment (5 * round.iteration)) :
    supervisor.verdict clock moment round.iteration
      (.ofRound supervisor.task.isOptimal round said) = some ending := by
  unfold verdict Sight.ofRound
  cases exits with
  | refused other =>
    -- The name of the status decides in both.
    rw [Ending.ofStatus_eq]
    simp only [other, if_true]
    split
    · rfl
    · split <;> rfl
  | passed optimal none => simp [optimal, none]
  | stopped optimal added no =>
    have refused : false ∈ said := by simpa using no
    simp [optimal, added, refused]
  | iterations optimal added agreed spent =>
    have agreed : false ∉ said := by simpa using agreed
    have full := Limits.reached_eq spent
    simp [optimal, added, agreed, full]
  | time optimal added agreed within taken spent =>
    have agreed : false ∉ said := by simpa using agreed
    have free := Limits.reached_eq within
    have late := Limits.reached_eq spent
    -- The clock has been read five times in every iteration.
    rw [timely optimal, Clock.reading_later, Nat.add_zero] at taken
    simp [optimal, added, agreed, free, elapsed, taken, late, Except.toOption]

/-- An iteration after which a run goes on has no verdict. -/
theorem verdict_of_continues {present : κ}
    (continues : supervisor.Continues clock (clock.reading moment 0) round said present)
    (timely : supervisor.task.isOptimal round.status = true →
      present = clock.later moment (5 * round.iteration)) :
    supervisor.verdict clock moment round.iteration
      (.ofRound supervisor.task.isOptimal round said) = none := by
  obtain ⟨optimal, added, agreed, within, time, taken, early⟩ := continues
  -- None of the five reasons to stop is there.
  have agreed : false ∉ said := by simpa using agreed
  have free := Limits.reached_eq within
  have soon := Limits.reached_eq early
  rw [timely optimal, Clock.reading_later, Nat.add_zero] at taken
  simp [verdict, Sight.ofRound, optimal, added, agreed, free, elapsed, taken, soon,
    Except.toOption]

/-- An iteration at which the limit on them is reached has a verdict. -/
theorem verdict_ne_none {iteration : Nat}
    (full : Limits.reached supervisor.limits.maxIterations (Scalar.ofInt iteration) = true)
    (sight : Sight S) : supervisor.verdict clock moment iteration sight ≠ none := by
  unfold verdict
  rw [full]
  -- Whatever is looked at before the limit leads to a verdict of its own.
  split_ifs <;> simp_all

/-- An iteration behind which the time is up has a verdict. -/
theorem verdict_ne_none_of_late {iteration : Nat}
    (late : (elapsed clock moment iteration).toOption.any
      (Limits.reached supervisor.limits.maxTime) = true)
    (sight : Sight S) : supervisor.verdict clock moment iteration sight ≠ none := by
  unfold verdict
  rw [late]
  split_ifs <;> simp_all

/-- Only a limit that is reached stops a run as a limit. -/
theorem verdict_eq_iterationLimit {iteration : Nat} {sight : Sight S}
    (stops : supervisor.verdict clock moment iteration sight = some .iterationLimit) :
    Limits.reached supervisor.limits.maxIterations (Scalar.ofInt iteration) = true := by
  unfold verdict at stops
  split_ifs at stops <;> simp_all

theorem verdict_eq_timeLimit {iteration : Nat} {sight : Sight S}
    (stops : supervisor.verdict clock moment iteration sight = some .timeLimit) :
    (elapsed clock moment iteration).toOption.any (Limits.reached supervisor.limits.maxTime) =
      true := by
  unfold verdict at stops
  split_ifs at stops <;> simp_all

/-- What the watchers say makes no difference where the run ends before they are looked at. -/
theorem verdict_congr {sight : Sight S}
    (ends : supervisor.task.isOptimal sight.status = false ∨ sight.found = some false)
    (iteration : Nat) (agreed : List Bool) :
    supervisor.verdict clock moment iteration { sight with agreed := agreed } =
      supervisor.verdict clock moment iteration sight := by
  unfold verdict
  rcases ends with other | passed
  · simp [other]
  · simp [passed]

/-- The last of some verdicts is the verdict on some iteration. -/
theorem exists_of_verdicts {sights : List (Sight S)} {count : Nat} {ending : Ending}
    (first : supervisor.verdicts clock moment sights = List.replicate count none ++ [some ending]) :
    ∃ sight, supervisor.verdict clock moment (count + 1) sight = some ending := by
  -- The verdict stands at the position behind the iterations that have none.
  have last : (supervisor.verdicts clock moment sights)[count]? = some (some ending) := by
    rw [first, List.getElem?_append_right (by simp)]
    simp
  rw [verdicts, List.getElem?_mapIdx, Option.map_eq_some_iff] at last
  obtain ⟨sight, -, stops⟩ := last
  exact ⟨sight, stops⟩

/-- Behind an iteration that has a verdict in any case, no more of them are without one. -/
theorem lt_of_verdict_ne_none {sights : List (Sight S)} {count : Nat} {rest : List (Option Ending)}
    (first : supervisor.verdicts clock moment sights = List.replicate count none ++ rest)
    {bound : Nat} (positive : 0 < bound)
    (stops : ∀ sight, supervisor.verdict clock moment bound sight ≠ none) : count < bound := by
  by_contra beyond
  have within : bound - 1 < count := by omega
  have behind : (supervisor.verdicts clock moment sights)[bound - 1]? = some none := by
    rw [first, List.getElem?_append_left (by simpa using within), List.getElem?_replicate,
      if_pos within]
  -- The iteration at that position would have to go on.
  rw [verdicts, List.getElem?_mapIdx, Option.map_eq_some_iff] at behind
  obtain ⟨sight, -, goesOn⟩ := behind
  rw [Nat.sub_add_cancel positive] at goesOn
  exact stops sight goesOn

/-- Where the limit on the iterations is reached, no more of them are without a verdict. -/
theorem lt_of_verdicts {sights : List (Sight S)} {count : Nat} {rest : List (Option Ending)}
    (first : supervisor.verdicts clock moment sights = List.replicate count none ++ rest)
    {bound : Nat} (positive : 0 < bound)
    (full : Limits.reached supervisor.limits.maxIterations (Scalar.ofInt bound) = true) :
    count < bound :=
  lt_of_verdict_ne_none first positive (verdict_ne_none full)

end Verdicts

variable [HasStatus R S] [HasObjective R K] [Status S] [Answer A] [Scalar K]

/-- A supervisor that notes what it is answered, the latest iteration first. -/
def sighted (supervisor : Supervisor σ R S A K) : Supervisor (List (Sight S) × σ) R S A K where
  task :=
    { solve := supervisor.task.solve.noting fun result sights =>
        .ofStatus (HasStatus.status result) :: sights
      separate := supervisor.task.separate.noting fun answer =>
        Sight.onLatest (.searched (Answer.yes answer))
      optimal := supervisor.task.optimal }
  limits := supervisor.limits
  watchers := supervisor.watchers.map fun watcher isSolved round =>
    (watcher isSolved round).noting fun answer => Sight.onLatest (.asked (Answer.yes answer))
  last := supervisor.last

omit [HasObjective R K] [Status S] [Scalar K] in
/-- Noting the answers changes nothing else. -/
theorem shows_sighted (supervisor : Supervisor σ R S A K) :
    supervisor.sighted.Shows Prod.snd supervisor where
  task := ⟨Action.shows_noting _ _, Action.shows_noting _ _, rfl⟩
  limits := rfl
  watchers := by
    refine List.forall₂_map_left_iff.2 (List.forall₂_same.2 ?_)
    exact fun watcher _ isSolved round => Action.shows_noting _ _
  last := rfl

/-- What is answered in the iterations of a run within some turns, in their order. -/
def sights (supervisor : Supervisor σ R S A K) (clock : Clock κ K) (turns : Nat) (moment : κ)
    (state : σ) : List (Sight S) :=
  ((supervisor.sighted.solve clock turns).run (moment, [], state)).state.2.1.reverse

variable {supervisor : Supervisor σ R S A K} {clock : Clock κ K} {moment : κ} {turns : Nat}

/-- The latest iteration comes behind others, of which none has a verdict. -/
def Latest (supervisor : Supervisor σ R S A K) (clock : Clock κ K) (moment : κ)
    (sights : List (Sight S)) (count : Nat) (latest : Sight S) : Prop :=
  ∃ earlier, sights = latest :: earlier ∧ earlier.length = count ∧
    supervisor.verdicts clock moment earlier.reverse = List.replicate count none

omit [HasStatus R S] [HasObjective R K] [Answer A] in
/-- Only the latest iteration may have a verdict. -/
theorem Latest.verdicts_eq {sights : List (Sight S)} {count : Nat} {latest : Sight S}
    (last : supervisor.Latest clock moment sights count latest) :
    supervisor.verdicts clock moment sights.reverse =
      List.replicate count none ++ [supervisor.verdict clock moment (count + 1) latest] := by
  obtain ⟨earlier, rfl, length, none⟩ := last
  -- In their order the latest iteration is the last one, and its number is one more.
  rw [verdicts, List.reverse_cons, List.mapIdx_concat, List.length_reverse, length]
  exact congrArg (· ++ _) none

/-- A run of callables that never fail goes on as long as no iteration has a verdict. -/
def watching (clock : Clock κ K) (moment : κ) (turns : Nat)
    (solves : supervisor.task.solve.Total)
    (separates : supervisor.task.separate.Total)
    (watches : ∀ watcher ∈ supervisor.watchers, ∀ isSolved round,
      Action.Total (watcher isSolved round)) :
    supervisor.sighted.Chronicle clock (clock.reading moment 0) turns where
  holds
    | .before progress, present, state =>
        present = clock.later moment (5 * progress.rounds.length + 1) ∧
          state.1.length = progress.rounds.length ∧
            supervisor.verdicts clock moment state.1.reverse =
              List.replicate progress.rounds.length none
    | .solved progress result, present, state =>
        present = clock.later moment (5 * progress.rounds.length + 1) ∧
          supervisor.Latest clock moment state.1 progress.rounds.length
            (.ofStatus (HasStatus.status result))
    | .searched progress result _ added, present, state =>
        present = clock.later moment (5 * progress.rounds.length + 3) ∧
          supervisor.task.isOptimal (HasStatus.status result) = true ∧
            supervisor.Latest clock moment state.1 progress.rounds.length
              ⟨HasStatus.status result, some added, []⟩
    | .shown progress round said, present, state =>
        (supervisor.task.isOptimal round.status = true →
          present = clock.later moment (5 * round.iteration)) ∧
            progress.rounds.length = round.iteration ∧
              ∃ count, round.iteration = count + 1 ∧
                supervisor.Latest clock moment state.1 count
                  (.ofRound supervisor.task.isOptimal round said)
  failed cause state := cause = .unfinished ∧ state.1.length = turns ∧
    supervisor.verdicts clock moment state.1.reverse = List.replicate turns none
  solves := by
    rintro progress present ⟨sights, state⟩ - ⟨timely, counted, none⟩
    -- A solve begins an iteration, and those before it have no verdict.
    refine Action.meets_noting.2 (solves.meets fun result after => ?_)
    exact ⟨timely, sights, rfl, counted, none⟩
  separates := by
    rintro progress result present ⟨sights, state⟩ taken spent ⟨timely, latest⟩ optimal -
    obtain ⟨earlier, rfl, rest⟩ := latest
    refine Action.meets_noting.2 (separates.meets fun answer after => ?_)
    -- Two readings of the clock have passed since the solve was begun.
    refine ⟨?_, optimal, earlier, rfl, rest⟩
    rw [timely, Clock.later_later]
  refuses := by
    rintro progress result present ⟨sights, state⟩ taken spent ⟨timely, latest⟩ other -
    have other : supervisor.task.isOptimal (HasStatus.status result) = false := other
    refine ⟨fun optimal => ?_, by simp [Progress.recorded, Progress.next], progress.rounds.length,
      rfl, ?_⟩
    · exact absurd optimal (Bool.eq_false_iff.1 other)
    · -- Without a search there is no answer of one.
      simpa [Sight.ofRound, Progress.next, other, Sight.ofStatus] using latest
  records := by
    rintro progress result taken added present ⟨sights, state⟩ lasted spent
      ⟨timely, optimal, latest⟩ -
    refine ⟨fun _ => ?_, by simp [Progress.searched, Progress.next], progress.rounds.length, rfl,
      ?_⟩
    · -- With the two readings around the search there are five in the iteration.
      rw [timely, Clock.later_later]
      rfl
    · simpa [Sight.ofRound, Progress.next, optimal] using latest
  watches := by
    rintro watcher member progress round said present ⟨sights, state⟩
      ⟨timely, recorded, count, counted, latest⟩
    obtain ⟨plain, among, rfl⟩ := List.mem_map.1 member
    obtain ⟨earlier, rfl, rest⟩ := latest
    -- A watcher changes what is known of the latest iteration alone.
    refine Action.meets_noting.2 ((watches plain among _ round).meets fun answer after => ?_)
    exact ⟨timely, recorded, count, counted, earlier, rfl, rest⟩
  goesOn := by
    rintro progress round said present ⟨sights, state⟩
      ⟨timely, recorded, count, counted, latest⟩ continues
    have verdicts := latest.verdicts_eq
    obtain ⟨earlier, rfl, length, -⟩ := latest
    refine ⟨?_, ?_, ?_⟩
    · rw [timely continues.optimal, Clock.later_later, recorded]
    · rw [recorded, counted, List.length_cons, length]
    · -- The iteration that goes on is one more without a verdict.
      have same := verdict_of_continues continues timely
      rw [verdicts, recorded, counted, List.replicate_succ', ← counted]
      exact congrArg (fun verdict => List.replicate count none ++ [verdict]) same
  spent := by
    rintro progress present ⟨sights, state⟩ all ⟨-, counted, none⟩
    rw [all] at counted none
    exact ⟨rfl, counted, none⟩

/-- A run reports the verdict of the first iteration that has one, or none has one in its turns. -/
theorem sighted_meets {time : K → Prop} (clock : Clock κ K) (moment : κ) (turns : Nat) (state : σ)
    (timed : supervisor.limits.Timed R clock time fun _ => False)
    (solves : supervisor.task.solve.Total) (separates : supervisor.task.separate.Total)
    (watches : ∀ watcher ∈ supervisor.watchers, ∀ isSolved round,
      Action.Total (watcher isSolved round)) :
    (supervisor.sighted.solve clock turns).Meets (moment, [], state)
      (fun report after => report.iterations = after.2.1.length ∧ ∃ earlier,
        supervisor.verdicts clock moment after.2.1.reverse =
          List.replicate earlier none ++ [some report.ending])
      fun cause after => cause = .unfinished ∧ after.2.1.length = turns ∧
        supervisor.verdicts clock moment after.2.1.reverse = List.replicate turns none := by
  have covers : (watching clock moment turns solves separates watches).Covers time
      fun _ => False := ⟨timed, fun _ refused => refused.elim⟩
  -- One reading has been made when the first iteration begins.
  refine (Chronicle.solve_meets covers ⟨rfl, rfl, rfl⟩).mono ?_
  rintro _ after ⟨⟨timely, recorded, count, counted, latest⟩, exits, -⟩
  have verdict := verdict_of_exits exits timely
  have verdicts := latest.verdicts_eq
  obtain ⟨earlier, sights, length, -⟩ := latest
  refine ⟨?_, count, ?_⟩
  · -- Every iteration that is recorded has been seen.
    rw [sights, List.length_cons, length, ← counted, ← recorded]
    rfl
  · rw [verdicts, ← counted]
    exact congrArg (fun verdict => List.replicate count none ++ [verdict]) verdict

/--
Where a run within some turns stops.

The sights are what its callables have answered, one for each solve.
-/
structure Stops (supervisor : Supervisor σ R S A K) (clock : Clock κ K) (turns : Nat) (moment : κ)
    (state : σ) : Prop where
  /-- The first verdict is reported, and without a verdict the turns are used up. -/
  first :
    (∃ report, ((supervisor.solve clock turns).run (moment, state)).result = .ok report ∧
      report.iterations = (supervisor.sights clock turns moment state).length ∧ ∃ earlier,
        supervisor.verdicts clock moment (supervisor.sights clock turns moment state) =
          List.replicate earlier none ++ [some report.ending]) ∨
    (((supervisor.solve clock turns).run (moment, state)).result = .error .unfinished ∧
      supervisor.verdicts clock moment (supervisor.sights clock turns moment state) =
        List.replicate turns none)
  /-- A positive limit on the iterations bounds the solves, and makes the run come to an end. -/
  bounded : ∀ bound : Nat, 0 < bound →
    Limits.reached supervisor.limits.maxIterations (Scalar.ofInt bound) = true →
      (supervisor.sights clock turns moment state).length ≤ bound ∧ (bound ≤ turns →
        ∃ report, ((supervisor.solve clock turns).run (moment, state)).result = .ok report)
  /-- A limit that is not positive never stops a run. -/
  unlimited : ∀ report,
    ((supervisor.solve clock turns).run (moment, state)).result = .ok report →
      (Scalar.order .greater supervisor.limits.maxIterations (Scalar.ofInt 0) = .ok false →
        report.ending ≠ .iterationLimit) ∧
      (Scalar.order .greater supervisor.limits.maxTime (Scalar.ofInt 0) = .ok false →
        report.ending ≠ .timeLimit)
  /-- What the watchers say of an iteration that ends the run anyway makes no difference. -/
  unmoved : ∀ iteration (sight : Sight S) agreed,
    supervisor.task.isOptimal sight.status = false ∨ sight.found = some false →
      supervisor.verdict clock moment iteration { sight with agreed := agreed } =
        supervisor.verdict clock moment iteration sight

/--
The stopping rule of a run whose callables never fail.

It stops at the first iteration that has a verdict, and reports that verdict. This holds for all
limits and clocks that can be reckoned with, and within any number of turns.
-/
theorem stops_at_first_verdict {time : K → Prop}
    (timed : supervisor.limits.Timed R clock time fun _ => False)
    (solves : supervisor.task.solve.Total) (separates : supervisor.task.separate.Total)
    (watches : ∀ watcher ∈ supervisor.watchers, ∀ isSolved round,
      Action.Total (watcher isSolved round)) (turns : Nat) (moment : κ) (state : σ) :
    supervisor.Stops clock turns moment state := by
  have same : ((supervisor.sighted.solve clock turns).run (moment, [], state)).result =
      ((supervisor.solve clock turns).run (moment, state)).result :=
    (supervisor.shows_sighted.solve clock turns).result_eq (moment, [], state)
  have met := Action.meets_iff.1
    (sighted_meets clock moment turns state timed solves separates watches)
  rw [same, ← List.length_reverse] at met
  -- As many sights have been seen as there are verdicts.
  have length (sights : List (Sight S)) :
      (supervisor.verdicts clock moment sights).length = sights.length := List.length_mapIdx
  refine ⟨?_, ?_, ?_, fun iteration sight agreed ends => verdict_congr ends iteration agreed⟩
  · rcases met with ⟨report, given, counted, first⟩ | ⟨cause, failed, rfl, -, none⟩
    · exact .inl ⟨report, given, counted, first⟩
    · exact .inr ⟨failed, none⟩
  · intro bound positive full
    rcases met with ⟨report, given, counted, earlier, first⟩ | ⟨cause, failed, rfl, many, none⟩
    · -- All iterations but the last one lie below the limit.
      have short := lt_of_verdicts first positive full
      have all := congrArg List.length first
      rw [length, List.length_append, List.length_replicate, List.length_singleton] at all
      exact ⟨all ▸ short, fun _ => ⟨report, given⟩⟩
    · -- A run that is out of turns has had fewer of them than the limit allows.
      rw [← List.append_nil (List.replicate turns _)] at none
      have short := lt_of_verdicts none positive full
      have all : (supervisor.sights clock turns moment state).length = turns := many
      exact ⟨all.trans_le short.le, fun enough => absurd enough short.not_ge⟩
  · intro report given
    rcases met with ⟨other, also, -, earlier, first⟩ | ⟨cause, failed, -⟩
    · -- A limit that has stopped the run must have been reached.
      obtain rfl : other = report := Except.ok.inj (also.symm.trans given)
      obtain ⟨sight, stops⟩ := exists_of_verdicts first
      refine ⟨fun idle limit => ?_, fun idle limit => ?_⟩
      · rw [limit] at stops
        have full := verdict_eq_iterationLimit stops
        rw [Limits.reached_eq_false idle] at full
        exact Bool.false_ne_true full
      · rw [limit] at stops
        obtain ⟨time, -, late⟩ := (Option.any_eq_true _ _).1 (verdict_eq_timeLimit stops)
        rw [Limits.reached_eq_false idle] at late
        exact Bool.false_ne_true late
    · exact nomatch failed.symm.trans given

/-- Three rows to add, of which the second one meets a refusal and both limits at once. -/
def contested : Supervisor Nat (LpAnswer ℚ) LpStatus Bool ℚ where
  task := .countdown ⟨.optimal, some 1, [], [], 0, 0, 0⟩ .optimal
  limits := ⟨2, 10, true, true⟩
  watchers := [fun _ round => pure (decide (round.iteration < 2))]
  last := none

/-- The refusal comes before the limits. -/
theorem stops_contested :
    contested.Stops ticking 3 0 3 ∧
      contested.verdicts ticking 0 (contested.sights ticking 3 0 3) = [none, some .stopped] ∧
      ((contested.solve ticking 3).run (0, 3)).result.toOption.map Report.ending =
        some .stopped := by
  refine ⟨stops_at_first_verdict (Limits.timed_rat _ _ _ _) ?_ ?_ ?_ 3 0 3, ?_, ?_⟩
  · exact fun state => ⟨_, rfl⟩
  · exact fun state => ⟨_, rfl⟩
  · intro watcher member
    rw [List.mem_singleton.1 member]
    exact fun isSolved round state => ⟨_, rfl⟩
  · decide +kernel
  · decide +kernel

end Supervisor

end CuttingPlanes
