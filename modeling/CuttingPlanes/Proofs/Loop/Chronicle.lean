import CuttingPlanes.Loop.Supervisor
import CuttingPlanes.Proofs.Outcome

/-! What holds along a supervised run between its calls, with all that it has gathered by then. -/

namespace CuttingPlanes

variable {σ κ R S A K : Type}

namespace Clock

/-- The clock after a number of readings. -/
def later (clock : Clock κ K) (moment : κ) : (readings : Nat) → κ
  | 0 => moment
  | readings + 1 => clock.later (clock moment).2 readings

/-- The reading at a position, counted from a moment on. -/
def reading (clock : Clock κ K) (moment : κ) (position : Nat) : K :=
  (clock (clock.later moment position)).1

theorem later_later (clock : Clock κ K) (moment : κ) (first second : Nat) :
    clock.later (clock.later moment first) second = clock.later moment (first + second) := by
  induction first generalizing moment with
  | zero => rw [later, Nat.zero_add]
  -- Both sides begin with one reading, and the rest is the case before.
  | succ first ih => rw [later, ih, Nat.add_right_comm, later]

theorem reading_later (clock : Clock κ K) (moment : κ) (first second : Nat) :
    clock.reading (clock.later moment first) second = clock.reading moment (first + second) := by
  rw [reading, later_later, reading]

end Clock

/-- The record of the iteration that comes next. -/
def Progress.next [HasStatus R S] [HasObjective R K] (progress : Progress K S) (result : R)
    (rowAdded : Bool) (solveTime separationTime : K) : Round K S where
  iteration := progress.rounds.length + 1
  status := HasStatus.status result
  objective := HasObjective.objective result
  rowAdded := rowAdded
  solveTime := solveTime
  separationTime := separationTime

/-- A run that has recorded an iteration with a search, and the time that searches have taken. -/
def Progress.searched (progress : Progress K S) (spent : K) (round : Round K S) : Progress K S where
  rounds := progress.rounds ++ [round]
  rowsAdded := progress.rowsAdded + if round.rowAdded then 1 else 0
  solveTime := progress.solveTime
  separationTime := spent

/-- The report of a run that has stopped after a last iteration. -/
def Progress.report (progress : Progress K S) (ending : Ending) (last : Round K S) (total : K) :
    Report K S where
  ending := ending
  status := last.status
  objective := last.objective
  iterations := progress.rounds.length
  rowsAdded := progress.rowsAdded
  totalTime := total
  solveTime := progress.solveTime
  separationTime := progress.separationTime
  rounds := progress.rounds

/--
Clocks and limits that can be reckoned with.

What is refused of them, or of writing about them, is refused for a cause that is allowed.
-/
structure Limits.Timed (R : Type) [HasObjective R K] [Scalar K] (limits : Limits K)
    (clock : Clock κ K) (time : K → Prop) (refusable : Fault → Prop) : Prop where
  begins : time (Scalar.ofRat 0)
  shows : ∀ moment, time (clock moment).1
  sub : ∀ {later earlier}, time later → time earlier →
    Granted (Scalar.sub later earlier) time refusable
  add : ∀ {total part}, time total → time part → Granted (Scalar.add total part) time refusable
  iterations : ∀ count,
    Granted (Supervisor.iterationsSpent limits count) (fun _ => True) refusable
  elapsed : ∀ {elapsed}, time elapsed →
    Granted (Supervisor.timeSpent limits elapsed) (fun _ => True) refusable
  limit : limits.isHeard → Granted (Scalar.fixed 1 limits.maxTime) (fun _ => True) refusable
  written : limits.isHeard → ∀ (result : R) (objective : K),
    HasObjective.objective result = some objective →
      Granted (Scalar.fixed 4 objective) (fun _ => True) refusable

/-- The line that shows a run can be written where its objective can. -/
theorem Report.shown_granted [Scalar K] {refusable : Fault → Prop} {report : Report K S}
    (written : ∀ objective, report.objective = some objective →
      Granted (Scalar.fixed 4 objective) (fun _ => True) refusable) :
    Granted report.shown (fun _ => True) refusable := by
  unfold shown
  -- Without an objective there is nothing that could be refused.
  cases known : report.objective with
  | none => trivial
  | some objective => exact (written objective known).bind fun _ _ => trivial

/-- A run that has recorded some iterations, the totals of which are times. -/
structure Progress.Times (progress : Progress K S) (time : K → Prop) (count : Nat) : Prop where
  rounds : progress.rounds.length = count
  solveTime : time progress.solveTime
  separationTime : time progress.separationTime

namespace Supervisor

/-- How far a run has come, with what it has gathered. -/
inductive Stage (R K S : Type) where
  /-- Ahead of an iteration. -/
  | before (progress : Progress K S)
  /-- After a solve with its result, the time of which is not yet known. -/
  | solved (progress : Progress K S) (result : R)
  /-- After a search, the time of which is not yet known. -/
  | searched (progress : Progress K S) (result : R) (solveTime : K) (rowAdded : Bool)
  /-- After an iteration is recorded, with the answers of the watchers so far. -/
  | shown (progress : Progress K S) (round : Round K S) (said : List Bool)

/-- The time of a call between two readings, and the total that it adds up to. -/
structure Takes [Scalar K] (clock : Clock κ K) (moment : κ) (total taken spent : K) : Prop where
  sub_eq : Scalar.sub (clock.reading moment 1) (clock.reading moment 0) = .ok taken
  add_eq : Scalar.add total taken = .ok spent

@[simp] theorem meets_readClock {clock : Clock κ K} {moment : κ} {state : σ}
    {given : K → κ × σ → Prop} {failed : Interrupt → κ × σ → Prop} :
    Action.Meets (readClock clock) (moment, state) given failed ↔
      given (clock moment).1 ((clock moment).2, state) := Iff.rfl

variable [HasStatus R S] [HasObjective R K] [Status S] [Answer A] [Scalar K]

/-- An iteration after which the run goes on. -/
structure Continues (supervisor : Supervisor σ R S A K) (clock : Clock κ K) (start : K)
    (round : Round K S) (said : List Bool) (moment : κ) : Prop where
  optimal : supervisor.task.isOptimal round.status = true
  added : round.rowAdded = true
  agreed : said.all id = true
  within : iterationsSpent supervisor.limits round.iteration = .ok false
  early : ∃ elapsed, Scalar.sub (clock.reading moment 0) start = .ok elapsed ∧
    timeSpent supervisor.limits elapsed = .ok false

/-- An iteration after which the run stops, with the ending and the moment at which it does. -/
inductive Exits (supervisor : Supervisor σ R S A K) (clock : Clock κ K) (start : K)
    (round : Round K S) (said : List Bool) (moment : κ) : Ending → κ → Prop
  | refused (other : supervisor.task.isOptimal round.status = false) :
      Exits supervisor clock start round said moment (.ofStatus round.status) moment
  | passed (optimal : supervisor.task.isOptimal round.status = true)
      (none : round.rowAdded = false) :
      Exits supervisor clock start round said moment .optimal moment
  | stopped (optimal : supervisor.task.isOptimal round.status = true)
      (added : round.rowAdded = true) (no : said.all id = false) :
      Exits supervisor clock start round said moment .stopped moment
  | iterations (optimal : supervisor.task.isOptimal round.status = true)
      (added : round.rowAdded = true) (agreed : said.all id = true)
      (spent : iterationsSpent supervisor.limits round.iteration = .ok true) :
      Exits supervisor clock start round said moment .iterationLimit moment
  | time {elapsed : K} (optimal : supervisor.task.isOptimal round.status = true)
      (added : round.rowAdded = true) (agreed : said.all id = true)
      (within : iterationsSpent supervisor.limits round.iteration = .ok false)
      (taken : Scalar.sub (clock.reading moment 0) start = .ok elapsed)
      (spent : timeSpent supervisor.limits elapsed = .ok true) :
      Exits supervisor clock start round said moment .timeLimit (clock.later moment 1)

/--
What holds at the stages of a run and what a failing call leaves.

The answers of callables, the clock and all that is gathered can be spoken of.
-/
structure Chronicle (supervisor : Supervisor σ R S A K) (clock : Clock κ K) (start : K)
    (turns : Nat) where
  holds : Stage R K S → κ → σ → Prop
  failed : Interrupt → σ → Prop
  solves : ∀ {progress moment state}, progress.rounds.length < turns →
    holds (.before progress) moment state →
      supervisor.task.solve.Meets state
        (fun result after => holds (.solved progress result) moment after) failed
  separates : ∀ {progress result moment state taken spent},
    holds (.solved progress result) moment state →
      supervisor.task.isOptimal (HasStatus.status result) = true →
        Takes clock moment progress.solveTime taken spent →
          supervisor.task.separate.Meets state (fun answer after =>
            holds (.searched { progress with solveTime := spent } result taken (Answer.yes answer))
              (clock.later moment 2) after) failed
  refuses : ∀ {progress result moment state taken spent},
    holds (.solved progress result) moment state →
      supervisor.task.isOptimal (HasStatus.status result) = false →
        Takes clock moment progress.solveTime taken spent →
          holds (.shown (Progress.recorded { progress with solveTime := spent }
            (progress.next result false taken (Scalar.ofRat 0)))
              (progress.next result false taken (Scalar.ofRat 0)) []) (clock.later moment 2) state
  records : ∀ {progress result taken added moment state lasted spent},
    holds (.searched progress result taken added) moment state →
      Takes clock moment progress.separationTime lasted spent →
        holds (.shown (progress.searched spent (progress.next result added taken lasted))
          (progress.next result added taken lasted) []) (clock.later moment 2) state
  watches : ∀ watcher ∈ supervisor.watchers, ∀ {progress round said moment state},
    holds (.shown progress round said) moment state →
      (watcher supervisor.isSolved round).Meets state (fun answer after =>
        holds (.shown progress round (said ++ [Answer.yes answer])) moment after) failed
  goesOn : ∀ {progress round said moment state}, holds (.shown progress round said) moment state →
    supervisor.Continues clock start round said moment →
      holds (.before progress) (clock.later moment 1) state
  spent : ∀ {progress moment state}, progress.rounds.length = turns →
    holds (.before progress) moment state → failed .unfinished state

namespace Chronicle

variable {supervisor : Supervisor σ R S A K} {clock : Clock κ K} {start : K} {turns : Nat}

/-- A report of a run that has stopped where a chronicle says that it may. -/
inductive Concludes (chronicle : supervisor.Chronicle clock start turns) :
    Report K S → σ → Prop
  | intro {progress round said moment state ending later total}
      (held : chronicle.holds (.shown progress round said) moment state)
      (exits : supervisor.Exits clock start round said moment ending later)
      (elapsed : Scalar.sub (clock.reading later 0) start = .ok total) :
      Concludes chronicle (progress.report ending round total) state

/-- What holds after an iteration: the run goes on with one record more, or it stops. -/
def Turned (chronicle : supervisor.Chronicle clock start turns) (time : K → Prop) (count : Nat) :
    Turn K S → κ × σ → Prop
  | .goOn progress, after =>
      chronicle.holds (.before progress) after.1 after.2 ∧ progress.Times time count
  | .stop ending last progress, after =>
      (∃ result : R, last.objective = HasObjective.objective result) ∧
        ∃ said moment, chronicle.holds (.shown progress last said) moment after.2 ∧
          supervisor.Exits clock start last said moment ending after.1

/-- What is refused of times and limits, or of writing about them, is accounted for. -/
structure Covers (chronicle : supervisor.Chronicle clock start turns) (time : K → Prop)
    (refusable : Fault → Prop) : Prop where
  timed : supervisor.limits.Timed R clock time refusable
  breaks : ∀ {stage moment state fault}, chronicle.holds stage moment state → refusable fault →
    chronicle.failed (.raised fault) state

variable {chronicle : supervisor.Chronicle clock start turns} {time : K → Prop}
  {refusable : Fault → Prop} {moment : κ} {state : σ} {progress : Progress K S}

/-- The watchers are asked in turn, up to the first that refuses. -/
theorem askWatchers_meets {round : Round K S} {said : List Bool}
    (held : chronicle.holds (.shown progress round said) moment state)
    {watchers : List (Watcher σ K S A)}
    (among : ∀ watcher ∈ watchers, watcher ∈ supervisor.watchers) :
    Action.Meets (askWatchers supervisor.isSolved round watchers) (moment, state)
      (fun agreed after => after.1 = moment ∧ ∃ answers,
        chronicle.holds (.shown progress round (said ++ answers)) moment after.2 ∧
          answers.all id = agreed)
      fun cause after => chronicle.failed cause after.2 := by
  induction watchers generalizing said state with
  | nil => exact ⟨rfl, [], by rwa [List.append_nil], rfl⟩
  | cons watcher rest ih =>
    simp only [askWatchers, Action.meets_bind, Action.meets_onSecond]
    refine (chronicle.watches watcher (among watcher List.mem_cons_self) held).mono ?_
    intro answer after held
    -- The first refusal ends the row of watchers.
    cases yes : Answer.yes answer with
    | true =>
      rw [yes] at held
      refine (ih held fun other later => among other (List.mem_cons_of_mem watcher later)).mono ?_
      rintro agreed last ⟨same, answers, held, rfl⟩
      exact ⟨same, true :: answers, by simpa using held, by simp⟩
    | false =>
      rw [yes] at held
      exact ⟨rfl, [false], held, rfl⟩

namespace Covers

variable (covers : chronicle.Covers time refusable)

include covers

/-- What is granted goes on, and what is refused is accounted for. -/
theorem ofExcept_meets {α : Type} {made : Except Fault α} {wanted : α → Prop}
    (granted : Granted made wanted refusable) {stage : Stage R K S} {before : κ}
    (held : chronicle.holds stage before state) {given : α → κ × σ → Prop}
    (goesOn : ∀ value, wanted value → made = .ok value → given value (moment, state)) :
    Action.Meets (Action.ofExcept made) (moment, state) given
      fun cause after => chronicle.failed cause after.2 :=
  -- A refusal leaves the run at the stage that it has reached.
  Action.Meets.of_granted granted goesOn fun _ refused => covers.breaks held refused

/-- The time since a reading is a time, unless it is refused. -/
theorem sinceReading_meets {earlier : K} (past : time earlier) {stage : Stage R K S} {before : κ}
    (held : chronicle.holds stage before state) {given : K → κ × σ → Prop}
    (goesOn : ∀ elapsed, time elapsed → Scalar.sub (clock.reading moment 0) earlier = .ok elapsed →
      given elapsed (clock.later moment 1, state)) :
    Action.Meets (sinceReading clock earlier) (moment, state) given
      fun cause after => chronicle.failed cause after.2 := by
  simp only [sinceReading, Action.meets_bind, meets_readClock]
  -- The clock moves on, and only the difference may be refused.
  exact covers.ofExcept_meets (covers.timed.sub (covers.timed.shows moment) past) held goesOn

/-- After a call its time is taken and added to those of before, unless either is refused. -/
theorem takes_meets {α : Type} {total : K} (known : time total) {stage : Stage R K S} {before : κ}
    (held : chronicle.holds stage before state) {next : K → K → Action (κ × σ) α}
    {given : α → κ × σ → Prop}
    (goesOn : ∀ taken spent, time spent → Takes clock moment total taken spent →
      (next taken spent).Meets (clock.later moment 2, state) given
        fun cause after => chronicle.failed cause after.2) :
    Action.Meets (do
      let taken ← sinceReading clock (clock moment).1
      let spent ← Action.ofExcept (Scalar.add total taken)
      next taken spent) ((clock moment).2, state) given
        fun cause after => chronicle.failed cause after.2 := by
  -- The call lies between two readings, of which the first has been made.
  rw [Action.meets_bind]
  refine covers.sinceReading_meets (covers.timed.shows moment) held fun taken late sub_eq => ?_
  rw [Action.meets_bind]
  refine covers.ofExcept_meets (covers.timed.add known late) held fun spent sum add_eq => ?_
  exact goesOn taken spent sum ⟨sub_eq, add_eq⟩

/-- Writing a message leaves the state and the clock alone. -/
theorem reportWritten_meets {message : Except Fault String}
    (granted : supervisor.limits.isHeard → Granted message (fun _ => True) refusable)
    {stage : Stage R K S} {before : κ} (held : chronicle.holds stage before state) :
    Action.Meets (supervisor.reportWritten message) (moment, state)
      (fun _ after => after = (moment, state))
      fun cause after => chronicle.failed cause after.2 := by
  cases message with
  | ok line => rfl
  | error fault =>
    simp only [reportWritten]
    -- What nobody reads is not written.
    split
    · exact covers.breaks held (granted ‹_›)
    · rfl

/-- An iteration that has added a row stops the run where it exits, and goes on otherwise. -/
theorem afterRow_meets (begun : time start) {round : Round K S}
    (optimal : supervisor.task.isOptimal round.status = true)
    (added : round.rowAdded = true) {count : Nat} (times : progress.Times time count)
    (known : ∃ result : R, round.objective = HasObjective.objective result)
    (held : chronicle.holds (.shown progress round []) moment state) :
    Action.Meets (supervisor.afterRow clock start round progress) (moment, state)
      (chronicle.Turned time count) fun cause after => chronicle.failed cause after.2 := by
  simp only [afterRow, Action.meets_bind]
  refine (chronicle.askWatchers_meets held fun _ member => member).mono ?_
  rintro agreed ⟨_, state⟩ ⟨rfl, said, held, rfl⟩
  rw [List.nil_append] at held
  -- A refusal stops the run before any limit is looked at.
  cases agreed : said.all id with
  | false => exact ⟨known, said, _, held, .stopped optimal added agreed⟩
  | true =>
    simp only [if_true, Action.meets_bind]
    have counted := covers.timed.iterations round.iteration
    refine covers.ofExcept_meets counted held fun spent _ made => ?_
    cases spent with
    | true => exact ⟨known, said, _, held, .iterations optimal added agreed made⟩
    | false =>
      -- Only a run that may take more iterations looks at the clock.
      simp only [Bool.false_eq_true, if_false, Action.meets_bind]
      refine covers.sinceReading_meets begun held fun elapsed late taken => ?_
      refine covers.ofExcept_meets (covers.timed.elapsed late) held fun spent _ passed => ?_
      cases spent with
      | false =>
        have continues : supervisor.Continues clock start round said _ :=
          ⟨optimal, added, agreed, made, elapsed, taken, passed⟩
        exact ⟨chronicle.goesOn held continues, times⟩
      | true =>
        simp only [if_true, Action.meets_bind]
        refine (covers.reportWritten_meets ?_ held).mono ?_
        · -- The message can be written when the limit can.
          exact fun heard => (covers.timed.limit heard).bind fun _ _ => trivial
        · rintro _ _ rfl
          exact ⟨known, said, _, held, .time optimal added agreed made taken passed⟩

/-- A solve that ended as awaited is followed by a search, whose answer is recorded. -/
theorem afterOptimal_meets (begun : time start) {result : R} {before : κ} {taken spent : K}
    (solved : chronicle.holds (.solved progress result) before state)
    (optimal : supervisor.task.isOptimal (HasStatus.status result) = true)
    (takes : Takes clock before progress.solveTime taken spent) {count : Nat}
    (times : Progress.Times { progress with solveTime := spent } time count) :
    Action.Meets (supervisor.afterOptimal clock start (progress.rounds.length + 1)
      (HasStatus.status result) (HasObjective.objective result) taken
      { progress with solveTime := spent }) (clock.later before 2, state)
      (chronicle.Turned time (count + 1)) fun cause after => chronicle.failed cause after.2 := by
  simp only [afterOptimal, Action.meets_bind, meets_readClock, Action.meets_onSecond]
  refine (chronicle.separates solved optimal takes).mono fun answer state searched => ?_
  -- The record of the iteration holds the time of the search.
  simp only [← Action.meets_bind]
  refine covers.takes_meets times.separationTime searched fun lasted sum late added => ?_
  have shown := chronicle.records searched added
  have recorded : Progress.Times (Progress.searched { progress with solveTime := spent } sum
      (Progress.next { progress with solveTime := spent } result (Answer.yes answer) taken lasted))
      time (count + 1) := ⟨by simp [Progress.searched, times.rounds], times.solveTime, late⟩
  cases yes : Answer.yes answer with
  | true =>
    simp only [if_true, Action.meets_bind, Action.meets_report]
    rw [yes] at shown recorded
    exact covers.afterRow_meets begun optimal rfl recorded ⟨result, rfl⟩ shown
  | false =>
    simp only [Bool.false_eq_true, if_false, Action.meets_bind, Action.meets_report,
      Action.meets_pure]
    rw [yes] at shown
    refine (chronicle.askWatchers_meets shown fun _ member => member).mono ?_
    rintro agreed ⟨_, state⟩ ⟨rfl, said, held, -⟩
    -- Whatever the watchers say, nothing is left to add.
    exact ⟨⟨result, rfl⟩, said, _, held, .passed optimal rfl⟩

/-- One iteration goes on with one record more, or stops the run. -/
theorem turn_meets (begun : time start) {count : Nat} (within : count < turns)
    (times : progress.Times time count) (held : chronicle.holds (.before progress) moment state) :
    Action.Meets (supervisor.turn clock start progress) (moment, state)
      (chronicle.Turned time (count + 1)) fun cause after => chronicle.failed cause after.2 := by
  simp only [turn, Action.meets_bind, meets_readClock, Action.meets_onSecond]
  refine (chronicle.solves (times.rounds ▸ within) held).mono fun result state solved => ?_
  simp only [← Action.meets_bind]
  refine covers.takes_meets times.solveTime solved fun taken spent late takes => ?_
  -- Only a solve that ended as awaited is followed by a search.
  cases optimal : supervisor.task.isOptimal (HasStatus.status result) with
  | true =>
    simp only [if_true]
    exact covers.afterOptimal_meets begun solved optimal takes
      ⟨times.rounds, late, times.separationTime⟩
  | false =>
    simp only [Bool.false_eq_true, if_false, Action.meets_bind, Action.meets_report,
      Action.meets_pure]
    refine (chronicle.askWatchers_meets (chronicle.refuses solved optimal takes)
      fun _ member => member).mono ?_
    rintro agreed ⟨_, state⟩ ⟨rfl, said, held, -⟩
    -- Whatever the watchers say, the status ends the run.
    exact ⟨⟨result, rfl⟩, said, _, held, .refused optimal⟩

/-- A run that has stopped reports what it has gathered. -/
theorem conclude_meets (begun : time start) {ending : Ending} {last : Round K S}
    (known : ∃ result : R, last.objective = HasObjective.objective result) {said : List Bool}
    {before : κ} (held : chronicle.holds (.shown progress last said) before state)
    (exits : supervisor.Exits clock start last said before ending moment) :
    Action.Meets (supervisor.conclude clock start ending last progress) (moment, state)
      (fun report after => chronicle.Concludes report after.2)
      fun cause after => chronicle.failed cause after.2 := by
  simp only [conclude, Action.meets_bind]
  refine covers.sinceReading_meets begun held fun total _ elapsed => ?_
  -- The report is made before anything is written of it.
  have concludes := Concludes.intro held exits elapsed
  split
  · simp only [Action.meets_bind]
    refine (covers.reportWritten_meets ?_ held).mono ?_
    · intro heard
      obtain ⟨result, objective⟩ := known
      refine (Report.shown_granted fun written given => ?_).bind fun _ _ => trivial
      exact covers.timed.written heard result written (objective.symm.trans given)
    · rintro _ _ rfl
      exact concludes
  · exact concludes

/-- The iterations of a run end in a report, unless a call fails or the turns are used up. -/
theorem proceed_meets (begun : time start) {fuel count : Nat} (granted : fuel + count = turns)
    (times : progress.Times time count) (held : chronicle.holds (.before progress) moment state) :
    Action.Meets (supervisor.proceed clock start fuel progress) (moment, state)
      (fun report after => chronicle.Concludes report after.2)
      fun cause after => chronicle.failed cause after.2 := by
  -- One turn less is left for one record more.
  induction fuel generalizing count progress moment state with
  | zero =>
    -- Every turn has left its record.
    have all : progress.rounds.length = turns := by
      rw [times.rounds]
      omega
    simpa [proceed] using chronicle.spent all held
  | succ fuel ih =>
    have within : count < turns := by omega
    simp only [proceed, Action.meets_bind]
    refine (covers.turn_meets begun within times held).mono ?_
    rintro turn ⟨moment, state⟩ turned
    cases turn with
    | goOn progress =>
      have later : fuel + (count + 1) = turns := by omega
      exact ih later turned.2 turned.1
    | stop ending last progress =>
      obtain ⟨known, said, before, held, exits⟩ := turned
      exact covers.conclude_meets begun known held exits

end Covers

/-- A supervised run ends in a report that its chronicle leaves, or fails as accounted for. -/
theorem solve_meets {moment : κ}
    {chronicle : supervisor.Chronicle clock (clock.reading moment 0) turns}
    (covers : chronicle.Covers time refusable)
    (held : chronicle.holds (.before .begun) (clock.later moment 1) state) :
    Action.Meets (supervisor.solve clock turns) (moment, state)
      (fun report after => chronicle.Concludes report after.2)
      fun cause after => chronicle.failed cause after.2 := by
  simp only [solve, Action.meets_bind, meets_readClock]
  -- The first reading is the start, and both totals begin at zero.
  exact covers.proceed_meets (covers.timed.shows moment) rfl
    ⟨rfl, covers.timed.begins, covers.timed.begins⟩ held

end Chronicle

end Supervisor

end CuttingPlanes
