import CuttingPlanes.Proofs.Loop.Refinement
import CuttingPlanes.Proofs.Loop.Timing
import CuttingPlanes.Proofs.Number.Whole

/-! The times of a run on a clock of whole numbers: what is recorded, and what it adds up to. -/

namespace CuttingPlanes

open Binary64 (IsWhole steadyLimit)

namespace Datum

/-- The rational that a value stands for, where it stands for one. -/
def size (value : Datum) : ℚ := (Scalar.exact value).rational?.getD 0

@[simp] theorem size_int (n : ℤ) : (int n).size = n := rfl

/-- A whole number held as a double, at most some other one. -/
def Within (value : Datum) (limit : Nat) : Prop :=
  ∃ x, value = .float x ∧ ∃ k ≤ limit, IsWhole x k

namespace Within

variable {total part : Datum} {a b : Nat}

/-- A total to which a whole number is added stays as small as it should be. -/
theorem add_int (small : total.Within a) (steady : a + b ≤ steadyLimit) :
    ∃ sum, Scalar.add total (.int b) = .ok sum ∧ sum.Within (a + b) := by
  obtain ⟨x, rfl, k, fewer, whole⟩ := small
  obtain ⟨y, near, l, less, also⟩ := Binary64.exists_ofInt? (show b ≤ steadyLimit by omega)
  obtain ⟨sum, least, total⟩ := whole.add also (by omega)
  have made : floatOfInt b = .ok y := by rw [floatOfInt, near]
  refine ⟨.float (x + y), ?_, _, rfl, sum, by omega, total⟩
  show (floatOfInt b >>= fun y => Except.ok (float (x + y))) = _
  rw [made]
  rfl

theorem add (small : total.Within a) (also : part.Within b) (steady : a + b ≤ steadyLimit) :
    ∃ sum, Scalar.add total part = .ok sum ∧ sum.Within (a + b) := by
  obtain ⟨x, rfl, k, fewer, whole⟩ := small
  obtain ⟨y, rfl, l, less, other⟩ := also
  obtain ⟨sum, least, total⟩ := whole.add other (by omega)
  exact ⟨.float (x + y), rfl, _, rfl, sum, by omega, total⟩

theorem order_atMost {n : Int} (small : total.Within a) (below : a ≤ n) :
    Scalar.order .atMost total (.int n) = .ok true := by
  obtain ⟨x, rfl, k, fewer, whole⟩ := small
  have exact : (Datum.float x).number? = some (.finite k) := by rw [number?, whole.exact_eq]
  have compared : Scalar.order .atMost (Datum.float x) (.int n) =
      .ok (Extended.related .atMost (.finite k) (.finite n)) :=
    order_of_number? .atMost exact rfl
  rw [compared]
  have least : (k : ℚ) ≤ n := by exact_mod_cast (by omega : (k : ℤ) ≤ n)
  simp [least]

end Within

end Datum

namespace Clock

variable {K κ : Type}

/-- A clock that shows a sequence. -/
def showing (reading : Nat → K) : Clock Nat K := fun moment => (reading moment, moment + 1)

theorem reading_showing (reading : Nat → K) (moment position : Nat) :
    (showing reading).reading moment position = reading (moment + position) := by
  have later (moment position : Nat) : (showing reading).later moment position = moment + position := by
    induction position generalizing moment with
    | zero => rfl
    | succ position ih => exact (ih (moment + 1)).trans (Nat.succ_add_eq_add_succ _ _)
  rw [Clock.reading, later]
  rfl

/-- The readings from a moment on are whole numbers, and time does not go back. -/
structure Counts (clock : Clock κ Datum) (moment : κ) (times : Nat → ℤ) : Prop where
  reads : ∀ position, clock.reading moment position = .int (times position)
  monotone : ∀ {first second}, first ≤ second → times first ≤ times second

end Clock

namespace Round

variable {S : Type}

/-- The time of an iteration that is recorded. -/
def time (round : Round Datum S) : ℚ := round.solveTime.size + round.separationTime.size

/-- A recorded time is not below zero. -/
def Timely (round : Round Datum S) : Prop :=
  ∀ time ∈ [round.solveTime, round.separationTime],
    Scalar.order .atLeast time (Scalar.ofInt 0) = .ok true

end Round

/--
What a run has spent of the time that has passed.

Some of it may not be recorded yet. As long as little time has passed, the totals are no greater
than what they add up.
-/
structure Spends {S : Type} (rounds : List (Round Datum S)) (solving searching : Datum)
    (pending : Nat) (passed : ℤ) : Prop where
  timely : ∀ round ∈ rounds, round.Timely
  recorded : (rounds.map Round.time).sum + pending ≤ passed
  totals : passed ≤ steadyLimit →
    ∃ a b : Nat, solving.Within a ∧ searching.Within b ∧ (a + b : ℤ) ≤ passed

namespace Spends

variable {S : Type} {rounds : List (Round Datum S)} {solving searching spent : Datum}
  {pending taken : Nat} {passed later : ℤ}

theorem begun : Spends ([] : List (Round Datum S)) (Scalar.ofRat 0) (Scalar.ofRat 0) 0 0 where
  timely := nofun
  recorded := by simp
  totals _ := ⟨0, 0, ⟨_, rfl, 0, le_rfl, Binary64.isWhole_zero⟩,
    ⟨_, rfl, 0, le_rfl, Binary64.isWhole_zero⟩, le_rfl⟩

theorem mono (spends : Spends rounds solving searching pending passed) (goesOn : passed ≤ later) :
    Spends rounds solving searching pending later where
  timely := spends.timely
  recorded := spends.recorded.trans (by exact_mod_cast goesOn)
  totals short := by
    obtain ⟨a, b, first, second, within⟩ := spends.totals (goesOn.trans short)
    exact ⟨a, b, first, second, within.trans goesOn⟩

/-- The time of a solve is added, and still to be recorded. -/
theorem solve (spends : Spends rounds solving searching 0 passed)
    (added : Scalar.add solving (.int taken) = .ok spent) :
    Spends rounds spent searching taken (passed + taken) where
  timely := spends.timely
  recorded := by
    have recorded := spends.recorded
    push_cast at recorded ⊢
    linarith
  totals short := by
    obtain ⟨a, b, first, second, within⟩ := spends.totals (by omega)
    obtain ⟨sum, made, small⟩ := first.add_int (b := taken) (by omega)
    obtain rfl := Except.ok.inj (added.symm.trans made)
    exact ⟨a + taken, b, small, second, by push_cast; omega⟩

/-- The time of a search is added, and to be recorded beside that of the solve. -/
theorem search (spends : Spends rounds solving searching pending passed)
    (added : Scalar.add searching (.int taken) = .ok spent) :
    Spends rounds solving spent (pending + taken) (passed + taken) where
  timely := spends.timely
  recorded := by
    have recorded := spends.recorded
    push_cast at recorded ⊢
    linarith
  totals short := by
    obtain ⟨a, b, first, second, within⟩ := spends.totals (by omega)
    obtain ⟨sum, made, small⟩ := second.add_int (b := taken) (by omega)
    obtain rfl := Except.ok.inj (added.symm.trans made)
    exact ⟨a, b + taken, first, small, by push_cast; omega⟩

/-- What was still to be recorded is recorded. -/
theorem record (spends : Spends rounds solving searching pending passed) {round : Round Datum S}
    (timely : round.Timely) (time : round.time = pending) :
    Spends (rounds ++ [round]) solving searching 0 passed where
  timely := by
    intro other member
    rcases List.mem_append.1 member with before | new
    · exact spends.timely other before
    · rw [List.mem_singleton.1 new]
      exact timely
  recorded := by
    have recorded := spends.recorded
    rw [← time] at recorded
    simpa using recorded
  totals := spends.totals

end Spends

namespace Round

variable {S : Type} {solving searching : Nat}

/-- A time that is a whole number, or a search that was not made, is recorded as it is. -/
theorem timely_of_int (round : Round Datum S) (solve : round.solveTime = .int solving)
    (search : round.separationTime = .int searching ∨
      searching = 0 ∧ round.separationTime = Scalar.ofRat 0) :
    round.Timely ∧ round.time = (solving + searching : Nat) := by
  have whole (n : Nat) : Scalar.order .atLeast (Datum.int n) (Scalar.ofInt 0) = .ok true ∧
      (Datum.int n).size = n := by
    have compared : Scalar.order .atLeast (Datum.int n) (Scalar.ofInt 0) =
        .ok (Extended.related .atLeast (.finite n) (.finite 0)) :=
      Datum.order_of_number? .atLeast rfl rfl
    exact ⟨by rw [compared]; simp, rfl⟩
  have none : Scalar.order .atLeast (Scalar.ofRat 0 : Datum) (Scalar.ofInt 0) = .ok true ∧
      (Scalar.ofRat 0 : Datum).size = 0 := by
    have exact : (Scalar.ofRat 0 : Datum).number? = some (.finite (0 : ℕ)) :=
      congrArg some Binary64.isWhole_zero.exact_eq
    have compared : Scalar.order .atLeast (Scalar.ofRat 0 : Datum) (Scalar.ofInt 0) =
        .ok (Extended.related .atLeast (.finite (0 : ℕ)) (.finite 0)) :=
      Datum.order_of_number? .atLeast exact rfl
    refine ⟨by rw [compared]; simp, ?_⟩
    show (((Scalar.ofRat 0 : Datum).number?.getD .undefined).rational?).getD 0 = 0
    rw [exact]
    rfl
  unfold Timely time
  rw [solve, (whole solving).2]
  rcases search with made | ⟨rfl, notMade⟩
  · rw [made, (whole searching).2]
    exact ⟨by simp [(whole solving).1, (whole searching).1], by push_cast; rfl⟩
  · rw [notMade, none.2]
    exact ⟨by simp [(whole solving).1, none.1], by push_cast; rfl⟩

end Round

namespace Supervisor

variable {σ κ R S A : Type} {clock : Clock κ Datum} {moment : κ} {times : Nat → ℤ}

/-- A call takes a whole number, and the time that has passed before it comes in front of that. -/
theorem Takes.exists_taken (counts : clock.Counts moment times) {position : Nat}
    {total taken spent : Datum}
    (takes : Takes clock (clock.later moment (position + 1)) total taken spent) :
    ∃ n : Nat, taken = .int n ∧ times position - times 0 + n ≤ times (position + 2) - times 0 := by
  have sub := takes.sub_eq
  rw [Clock.reading_later, Clock.reading_later, counts.reads, counts.reads] at sub
  obtain rfl := Except.ok.inj sub
  have before : times position ≤ times (position + 1) := counts.monotone (Nat.le_succ _)
  have during : times (position + 1) ≤ times (position + 2) := counts.monotone (Nat.le_succ _)
  refine ⟨(times (position + 2) - times (position + 1)).toNat, ?_, by omega⟩
  rw [Int.toNat_of_nonneg (by omega)]

variable [HasStatus R S] [HasObjective R Datum] [Status S] [Answer A]
  {supervisor : Supervisor σ R S A Datum}

/-- A run spends no more than has passed on its clock, wherever it reads that. -/
def timekeeping (supervisor : Supervisor σ R S A Datum) (counts : clock.Counts moment times)
    (turns : Nat) : supervisor.Chronicle clock (clock.reading moment 0) turns where
  holds
    | .before progress, present, _ | .solved progress _, present, _
    | .shown progress _ _, present, _ =>
        ∃ position, present = clock.later moment (position + 1) ∧
          Spends progress.rounds progress.solveTime progress.separationTime 0
            (times position - times 0)
    | .searched progress _ taken _, present, _ =>
        ∃ position, ∃ pending : Nat, taken = .int pending ∧
          present = clock.later moment (position + 1) ∧
            Spends progress.rounds progress.solveTime progress.separationTime pending
              (times position - times 0)
  failed _ _ := True
  solves _ held := Action.meets_of_forall (fun _ _ => held) fun _ _ => trivial
  separates := by
    rintro progress result present state taken spent ⟨position, rfl, spends⟩ - takes
    obtain ⟨pending, rfl, within⟩ := takes.exists_taken counts
    refine Action.meets_of_forall (fun _ _ => ?_) fun _ _ => trivial
    -- Three readings have been made since the last one that is counted.
    exact ⟨position + 2, pending, rfl, Clock.later_later clock moment _ 2,
      (spends.solve takes.add_eq).mono within⟩
  refuses := by
    rintro progress result present state taken spent ⟨position, rfl, spends⟩ - takes
    obtain ⟨pending, rfl, within⟩ := takes.exists_taken counts
    obtain ⟨timely, time⟩ := Round.timely_of_int
      (progress.next result false (.int pending) (Scalar.ofRat 0)) rfl (.inr ⟨rfl, rfl⟩)
    exact ⟨position + 2, Clock.later_later clock moment _ 2,
      ((spends.solve takes.add_eq).mono within).record timely (time.trans (by simp))⟩
  records := by
    rintro progress result taken added present state lasted spent
      ⟨position, pending, rfl, rfl, spends⟩ takes
    obtain ⟨searching, rfl, within⟩ := takes.exists_taken counts
    obtain ⟨timely, time⟩ := Round.timely_of_int
      (progress.next result added (.int pending) (.int searching)) rfl (.inl rfl)
    exact ⟨position + 2, Clock.later_later clock moment _ 2,
      ((spends.search takes.add_eq).mono within).record timely time⟩
  watches _ _ _ _ _ _ _ held := Action.meets_of_forall (fun _ _ => held) fun _ _ => trivial
  goesOn := by
    rintro progress round said present state ⟨position, rfl, spends⟩ continues
    have goesOn : times position ≤ times (position + 1) := counts.monotone (Nat.le_succ _)
    exact ⟨position + 1, Clock.later_later clock moment _ 1, spends.mono (by omega)⟩
  spent _ _ := trivial

omit [HasStatus R S] [HasObjective R Datum] [Answer A] in
/-- The time that a run that has stopped reads off at last comes behind all that it has spent. -/
theorem Exits.exists_position {start : Datum} {round : Round Datum S} {said : List Bool}
    {position : Nat} {ending : Ending} {later : κ}
    (exits : supervisor.Exits clock start round said (clock.later moment position) ending later) :
    ∃ last, position ≤ last ∧ later = clock.later moment last := by
  cases exits with
  | time => exact ⟨position + 1, Nat.le_succ position, Clock.later_later clock moment position 1⟩
  | _ => exact ⟨position, le_rfl, rfl⟩

end Supervisor

/-- Times of a report that are not below zero, and no more in all than the total. -/
structure Report.KeepsTime {S : Type} (report : Report Datum S) : Prop where
  timely : ∀ round ∈ report.rounds, round.Timely
  /-- The times that are recorded add up to no more than the total. -/
  recorded : (report.rounds.map Round.time).sum ≤ report.totalTime.size
  /-- The two totals are doubles, which are rounded up only where the total is great. -/
  totals : report.totalTime.size ≤ steadyLimit →
    ∃ spent, Scalar.add report.solveTime report.separationTime = .ok spent ∧
      Scalar.order .atMost spent report.totalTime = .ok true

/-- A run that has spent no more than has passed reports such times. -/
theorem Spends.keepsTime {S : Type} {report : Report Datum S} {passed : ℤ}
    (spends : Spends report.rounds report.solveTime report.separationTime 0 passed)
    (total : report.totalTime = .int passed) : report.KeepsTime where
  timely := spends.timely
  recorded := by simpa [total] using spends.recorded
  totals short := by
    rw [total, Datum.size_int] at short
    obtain ⟨a, b, first, second, within⟩ := spends.totals (by exact_mod_cast short)
    have steady : passed ≤ steadyLimit := by exact_mod_cast short
    -- Both totals are as small as what has passed, so that their sum is not rounded up.
    obtain ⟨spent, made, small⟩ := first.add second (by omega)
    rw [total]
    exact ⟨spent, made, small.order_atMost (by push_cast; omega)⟩

namespace Supervisor

variable {σ κ R S A : Type} [HasStatus R S] [HasObjective R Datum] [Status S] [Answer A]
  {supervisor : Supervisor σ R S A Datum} {clock : Clock κ Datum} {moment : κ} {times : Nat → ℤ}

/--
The times of a run with a report, on a clock of whole numbers that does not go back.

The limits, the callables and the number of turns are free.
-/
theorem keepsTime_of_solve (counts : clock.Counts moment times) {turns : Nat} {state : σ}
    {report : Report Datum S}
    (given : ((supervisor.solve clock turns).run (moment, state)).result = .ok report) :
    report.KeepsTime := by
  have covers : (supervisor.timekeeping counts turns).Covers (fun _ => True) fun _ => True :=
    ⟨supervisor.limits.timed_trivial R clock, fun _ _ => trivial⟩
  have begun : (supervisor.timekeeping counts turns).holds (.before .begun)
      (clock.later moment 1) state := ⟨0, rfl, by rw [sub_self]; exact .begun⟩
  have met := Chronicle.solve_meets covers begun
  obtain ⟨⟨position, rfl, spends⟩, exits, elapsed⟩ := met.of_ok given
  obtain ⟨last, behind, rfl⟩ := exits.exists_position
  rw [Clock.reading_later, counts.reads, counts.reads] at elapsed
  obtain rfl := Except.ok.inj elapsed
  have forth : times position ≤ times (last + 0) := counts.monotone (by omega)
  exact (spends.mono (Int.sub_le_sub_right forth (times 0))).keepsTime rfl

/-- Two rows to add on a clock that moves on by three at every reading. -/
theorem keepsTime_counting :
    ∃ report, ((counted.solve (Clock.showing fun moment => .int (3 * moment)) 4).run
      (0, 0, 2)).result = .ok report ∧ report.rounds.length = 3 ∧
        report.totalTime.size = 45 ∧ (report.rounds.map Round.time).sum = 18 ∧ report.KeepsTime := by
  have counts : (Clock.showing fun moment : Nat => Datum.int (3 * moment)).Counts 0
      fun position => 3 * position :=
    ⟨fun position => by rw [Clock.reading_showing, Nat.zero_add], fun {first second} later => by
      show (3 * first : ℤ) ≤ 3 * second
      omega⟩
  obtain ⟨report, given, length, total, sum⟩ :
      ∃ report, ((counted.solve (Clock.showing fun moment => .int (3 * moment)) 4).run
        (0, 0, 2)).result = .ok report ∧ report.rounds.length = 3 ∧
          report.totalTime.size = 45 ∧ (report.rounds.map Round.time).sum = 18 := by
    refine ⟨_, rfl, ?_, ?_, ?_⟩
    · rfl
    · decide +kernel
    · decide +kernel
  exact ⟨report, given, length, total, sum, keepsTime_of_solve counts given⟩

/-- A solve that ends the run at once. -/
def hopeless : Supervisor Unit AnyResult AnyStatus Bool Datum where
  task := ⟨pure (.object (.lp .infeasible) none), pure false, .lp .optimal⟩
  limits := ⟨.int 0, .int 0, false, false⟩
  watchers := []
  last := none

/-- A time during the solve that no double can hold, and no time before or after it. -/
def leap (position : Nat) : ℤ := if position < 2 then 0 else steadyLimit + 1

/-- The time that is added up for the solves may be rounded up beyond the total. -/
theorem total_is_exceeded :
    (Clock.showing fun moment => .int (leap moment)).Counts 0 leap ∧
      ¬∀ report, ((hopeless.solve (Clock.showing fun moment => .int (leap moment)) 1).run
        (0, ())).result = .ok report →
          ∃ spent, Scalar.add report.solveTime report.separationTime = .ok spent ∧
            Scalar.order .atMost spent report.totalTime = .ok true := by
  refine ⟨⟨fun position => by rw [Clock.reading_showing, Nat.zero_add], ?_⟩, fun all => ?_⟩
  · intro first second later
    unfold leap
    split_ifs <;> omega
  · obtain ⟨report, given, sum⟩ :
        ∃ report, ((hopeless.solve (Clock.showing fun moment => .int (leap moment)) 1).run
          (0, ())).result = .ok report ∧
            (Scalar.add report.solveTime report.separationTime >>= fun spent =>
              Scalar.order .atMost spent report.totalTime).toOption = some false :=
      ⟨_, rfl, by decide +kernel⟩
    obtain ⟨spent, added, within⟩ := all report given
    rw [added] at sum
    exact nomatch (congrArg Except.toOption within).symm.trans sum

end Supervisor

end CuttingPlanes
