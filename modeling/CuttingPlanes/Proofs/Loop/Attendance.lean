import CuttingPlanes.Proofs.Loop.Stopping
import Mathlib.Data.List.Induction

/-! Which iterations the watchers of a run are shown: all of them, up to the first refusal. -/

namespace CuttingPlanes

variable {σ τ κ R S A K : Type}

/-- One iteration shown to one watcher, who is named by its position, and what it has answered. -/
structure Showing (K S : Type) where
  watcher : Nat
  round : Round K S
  agreed : Bool

namespace Showing

/-- An iteration shown to the first watchers, which have given these answers. -/
def ofAnswers (round : Round K S) (answers : List Bool) : List (Showing K S) :=
  answers.mapIdx fun watcher agreed => ⟨watcher, round, agreed⟩

/-- The iterations that a watcher has been shown, in order. -/
def seenBy (watcher : Nat) (showings : List (Showing K S)) : List (Round K S) :=
  (showings.filter fun showing => showing.watcher = watcher).map Showing.round

/-- Whether someone ahead of a watcher has refused. -/
def refusedAhead (watcher : Nat) (showings : List (Showing K S)) : Bool :=
  showings.any fun showing => decide (showing.watcher < watcher) && !showing.agreed

/-- Answers of some watchers that are asked in turn, up to the first that refuses. -/
inductive Polled : (count : Nat) → List Bool → Prop
  | agreed (count : Nat) : Polled count (List.replicate count true)
  | refused {before count : Nat} (within : before < count) :
      Polled count (List.replicate before true ++ [false])

/-- One more watcher ahead of the others agrees. -/
theorem Polled.cons {count : Nat} {answers : List Bool} (polled : Polled count answers) :
    Polled (count + 1) (true :: answers) := by
  cases polled with
  | agreed => exact .agreed (count + 1)
  | @refused before _ within => exact @Polled.refused (before + 1) _ (Nat.succ_lt_succ within)

theorem Polled.length_le {count : Nat} {answers : List Bool} (polled : Polled count answers) :
    answers.length ≤ count := by
  cases polled with
  | agreed => rw [List.length_replicate]
  | refused within =>
    rw [List.length_append, List.length_replicate, List.length_singleton]
    exact Nat.succ_le_of_lt within

variable {round : Round K S} {watcher : Nat}

theorem ofAnswers_concat (answers : List Bool) (agreed : Bool) :
    ofAnswers round (answers ++ [agreed]) =
      ofAnswers round answers ++ [⟨answers.length, round, agreed⟩] :=
  List.mapIdx_concat

@[simp] theorem seenBy_append (first second : List (Showing K S)) :
    seenBy watcher (first ++ second) = seenBy watcher first ++ seenBy watcher second := by
  simp [seenBy]

@[simp] theorem refusedAhead_append (first second : List (Showing K S)) :
    refusedAhead watcher (first ++ second) =
      (refusedAhead watcher first || refusedAhead watcher second) :=
  List.any_append

/-- A watcher sees an iteration once if there are answers up to its own. -/
theorem seenBy_ofAnswers (answers : List Bool) :
    seenBy watcher (ofAnswers round answers) =
      if watcher < answers.length then [round] else [] := by
  induction answers using List.reverseRecOn with
  | nil => rfl
  | append_singleton answers agreed ih =>
    rw [ofAnswers_concat, seenBy_append, ih, List.length_append, List.length_singleton]
    -- The last answer is that of the watcher behind all the others.
    rcases lt_trichotomy watcher answers.length with before | rfl | behind
    · simp [seenBy, before, before.ne', Nat.lt_succ_of_lt before]
    · simp [seenBy]
    · simp [seenBy, behind.not_gt, behind.ne, Nat.not_lt.2 (Nat.succ_le_of_lt behind)]

theorem mem_ofAnswers {answers : List Bool} {showing : Showing K S}
    (member : showing ∈ ofAnswers round answers) :
    showing.round = round ∧ answers[showing.watcher]? = some showing.agreed := by
  obtain ⟨position, within, rfl⟩ := List.mem_mapIdx.1 member
  exact ⟨rfl, List.getElem?_eq_getElem within⟩

/-- Iterations of which every watcher has approved, each shown to all of them. -/
def approved (count : Nat) (rounds : List (Round K S)) : List (Showing K S) :=
  rounds.flatMap fun round => ofAnswers round (List.replicate count true)

theorem approved_concat (count : Nat) (rounds : List (Round K S)) (round : Round K S) :
    approved count (rounds ++ [round]) =
      approved count rounds ++ ofAnswers round (List.replicate count true) := by
  simp [approved]

/-- Every watcher has seen what all of them have approved. -/
theorem seenBy_approved {count : Nat} (known : watcher < count) (rounds : List (Round K S)) :
    seenBy watcher (approved count rounds) = rounds := by
  induction rounds using List.reverseRecOn with
  | nil => rfl
  | append_singleton rounds round ih =>
    rw [approved_concat, seenBy_append, ih, seenBy_ofAnswers, List.length_replicate, if_pos known]

/-- Only the watchers have approved, and they have. -/
theorem of_mem_approved {count : Nat} {rounds : List (Round K S)} {showing : Showing K S}
    (member : showing ∈ approved count rounds) :
    showing.watcher < count ∧ showing.agreed = true := by
  obtain ⟨round, -, shown⟩ := List.mem_flatMap.1 member
  have answer := (mem_ofAnswers shown).2
  rw [List.getElem?_replicate] at answer
  split at answer
  · exact ⟨‹_›, (Option.some.inj answer).symm⟩
  · exact nomatch answer

theorem refusedAhead_approved (count : Nat) (rounds : List (Round K S)) :
    refusedAhead watcher (approved count rounds) = false := by
  rw [refusedAhead, List.any_eq_false]
  intro showing member
  simp [(of_mem_approved member).2]

/-- Someone ahead has refused exactly if there is no answer of a watcher. -/
theorem Polled.refusedAhead {count : Nat} {answers : List Bool} (polled : Polled count answers)
    (known : watcher < count) :
    refusedAhead watcher (ofAnswers round answers) = !decide (watcher < answers.length) := by
  -- The answers ahead of a refusal are those of watchers that approve.
  have agreeing (before : Nat) :
      Showing.refusedAhead watcher (ofAnswers round (List.replicate before true)) = false := by
    simpa [approved] using @refusedAhead_approved S K watcher before [round]
  cases polled with
  | agreed => simp [agreeing, known]
  | @refused before _ within =>
    rw [ofAnswers_concat, refusedAhead_append, agreeing]
    simp only [Showing.refusedAhead, List.any_cons, List.any_nil, List.length_append,
      List.length_replicate, List.length_singleton, Bool.not_false, Bool.and_true, Bool.or_false,
      Bool.false_or, ← decide_not, not_lt, decide_eq_decide]
    exact Nat.lt_iff_add_one_le

end Showing

open Showing (Polled approved)

namespace Report

variable {report : Report K S} {count : Nat} {showings : List (Showing K S)}

/-- All that a run with a report has shown: only the last iteration may have met a refusal. -/
def Displayed (report : Report K S) (count : Nat) (showings : List (Showing K S)) : Prop :=
  ∃ earlier last answers, report.rounds = earlier ++ [last] ∧ Polled count answers ∧
    showings = approved count earlier ++ Showing.ofAnswers last answers

/-- Who among some watchers has seen what of the iterations of a report. -/
structure Seen (report : Report K S) (count : Nat) (showings : List (Showing K S)) : Prop where
  known : ∀ showing ∈ showings, showing.watcher < count
  /-- Only the last iteration meets a refusal. -/
  last : ∀ showing ∈ showings, showing.agreed = false →
    report.rounds.getLast? = some showing.round
  /-- Each iteration is seen once and in order, but the last one not behind a refusal. -/
  rounds : ∀ watcher < count, Showing.seenBy watcher showings =
    if Showing.refusedAhead watcher showings then report.rounds.dropLast else report.rounds

/-- Who has seen what, and when everyone has seen everything. -/
structure Attended (report : Report K S) (count : Nat) (showings : List (Showing K S)) : Prop
    extends report.Seen count showings where
  /-- All watchers see all iterations exactly if nobody but the last watcher refuses. -/
  all : (∀ watcher < count, Showing.seenBy watcher showings = report.rounds) ↔
    ∀ showing ∈ showings, showing.agreed = false → showing.watcher + 1 = count

/-- The watchers see all there is exactly if nobody stands behind one that refuses. -/
theorem Seen.all_iff (seen : report.Seen count showings) :
    (∀ watcher < count, Showing.seenBy watcher showings = report.rounds) ↔
      ∀ showing ∈ showings, showing.agreed = false → showing.watcher + 1 = count := by
  constructor
  · intro all showing member refused
    by_contra other
    have within : showing.watcher + 1 < count := by
      have := seen.known showing member
      omega
    -- The next watcher misses the last iteration, and there is one.
    have ahead : Showing.refusedAhead (showing.watcher + 1) showings = true :=
      List.any_eq_true.2 ⟨showing, member, by simp [refused]⟩
    have short := seen.rounds _ within
    rw [if_pos ahead, all _ within] at short
    have positive : 0 < report.rounds.length := by
      refine List.length_pos_iff.2 fun none => ?_
      simpa [none] using seen.last showing member refused
    have fewer := congrArg List.length short
    rw [List.length_dropLast] at fewer
    omega
  · intro only watcher within
    rw [seen.rounds watcher within, if_neg]
    intro ahead
    obtain ⟨showing, member, before⟩ := List.any_eq_true.1 ahead
    simp only [Bool.and_eq_true, decide_eq_true_eq, Bool.not_eq_true'] at before
    have := only showing member before.2
    omega

theorem Displayed.seen (displayed : report.Displayed count showings) :
    report.Seen count showings := by
  obtain ⟨earlier, final, answers, rounds, polled, rfl⟩ := displayed
  refine ⟨fun showing member => ?_, fun showing member refused => ?_, fun watcher within => ?_⟩
  · rcases List.mem_append.1 member with before | shown
    · exact (Showing.of_mem_approved before).1
    · -- There are no more answers than watchers.
      have answered := (List.getElem?_eq_some_iff.1 (Showing.mem_ofAnswers shown).2).1
      exact answered.trans_le polled.length_le
  · rcases List.mem_append.1 member with before | shown
    · exact absurd (Showing.of_mem_approved before).2 (by simp [refused])
    · rw [rounds, List.getLast?_concat, (Showing.mem_ofAnswers shown).1]
  · rw [Showing.seenBy_append, Showing.seenBy_approved within, Showing.seenBy_ofAnswers,
      Showing.refusedAhead_append, Showing.refusedAhead_approved, Bool.false_or,
      polled.refusedAhead within, rounds, List.dropLast_concat]
    by_cases heard : watcher < answers.length <;> simp [heard]

end Report

/-- A computation that leaves alone what is noted beside a state. -/
def Action.LeavesNotes {α : Type} (action : Action (κ × τ × σ) α) : Prop :=
  ∀ state, action.Meets state (fun _ after => after.2.1 = state.2.1) fun _ _ => True

namespace Action.LeavesNotes

variable {α β : Type} {notes : τ}

/-- A computation that leaves the notes alone is followed by another one with the same notes. -/
theorem meets_bind {action : Action (κ × τ × σ) α} (leaves : LeavesNotes action)
    {next : α → Action (κ × τ × σ) β} {given : β → κ × τ × σ → Prop} {state : κ × τ × σ}
    (same : state.2.1 = notes)
    (follows : ∀ value after, after.2.1 = notes → (next value).Meets after given fun _ _ => True) :
    (action >>= next).Meets state given fun _ _ => True :=
  Action.meets_bind.2 ((leaves state).mono fun value after kept =>
    follows value after (kept.trans same))

theorem bind {action : Action (κ × τ × σ) α} {next : α → Action (κ × τ × σ) β}
    (leaves : LeavesNotes action) (later : ∀ value, LeavesNotes (next value)) :
    LeavesNotes (action >>= next) :=
  fun _ => leaves.meets_bind rfl fun value after same =>
    (later value after).mono fun _ _ kept => kept.trans same

theorem onSecond (action : Action σ α) :
    LeavesNotes (action.onSecond.onSecond : Action (κ × τ × σ) α) :=
  fun _ => meets_onSecond.2 (meets_onSecond.2
    (meets_of_forall (fun _ _ => rfl) fun _ _ => trivial))

theorem ofExcept (made : Except Fault α) :
    LeavesNotes (Action.ofExcept made : Action (κ × τ × σ) α) := by
  intro state
  cases made with
  | ok value => rfl
  | error fault => trivial

theorem report (entry : LogEntry) :
    LeavesNotes (Action.report entry : Action (κ × τ × σ) Unit) :=
  fun _ => meets_report.2 rfl

theorem readClock (clock : Clock κ K) :
    LeavesNotes (Supervisor.readClock clock : Action (κ × τ × σ) K) :=
  fun _ => rfl

theorem sinceReading [Scalar K] (clock : Clock κ K) (earlier : K) :
    LeavesNotes (Supervisor.sinceReading clock earlier : Action (κ × τ × σ) K) :=
  (readClock clock).bind fun _ => ofExcept _

theorem reportWritten (supervisor : Supervisor (τ × σ) R S A K) (message : Except Fault String) :
    LeavesNotes (supervisor.reportWritten message : Action (κ × τ × σ) Unit) := by
  cases message with
  | ok line => exact report _
  | error fault =>
    intro state
    rw [Supervisor.reportWritten]
    -- What nobody reads is not written, and otherwise the run fails.
    split
    · trivial
    · rfl

end Action.LeavesNotes

open CuttingPlanes.Action (LeavesNotes)

namespace Supervisor

variable [Answer A]

/-- A watcher at a position that notes what it is shown and what it answers. -/
def displayed (position : Nat) (watcher : Watcher σ K S A) :
    Watcher (List (Showing K S) × σ) K S A :=
  fun isSolved round => (watcher isSolved round).noting fun answer showings =>
    showings ++ [⟨position, round, Answer.yes answer⟩]

/-- A supervisor that notes which iterations its watchers are shown. -/
def displaying (supervisor : Supervisor σ R S A K) :
    Supervisor (List (Showing K S) × σ) R S A K where
  task := supervisor.task.onSecond
  limits := supervisor.limits
  watchers := supervisor.watchers.mapIdx displayed
  last := supervisor.last

/-- Noting what is shown changes nothing else. -/
theorem shows_displaying (supervisor : Supervisor σ R S A K) :
    supervisor.displaying.Shows Prod.snd supervisor where
  task := supervisor.task.shows_onSecond
  limits := rfl
  watchers := by
    rw [List.forall₂_iff_get]
    refine ⟨List.length_mapIdx, fun position within _ isSolved round => ?_⟩
    simp only [displaying, List.get_eq_getElem, List.getElem_mapIdx]
    exact Action.shows_noting _ _
  last := rfl

variable {clock : Clock κ K} {start : K}

/-- The watchers are asked in turn, up to the first that refuses, and each of them is noted. -/
theorem askWatchers_displays (isSolved : Bool) (round : Round K S)
    (watchers : List (Watcher σ K S A)) (ahead : Nat) {showings : List (Showing K S)}
    {state : κ × List (Showing K S) × σ} (same : state.2.1 = showings) :
    (askWatchers isSolved round
      (watchers.mapIdx fun position => displayed (ahead + position))).Meets state
      (fun agreed after => ∃ answers, Polled watchers.length answers ∧ answers.all id = agreed ∧
        after.2.1 = showings ++
          answers.mapIdx fun position agreed => ⟨ahead + position, round, agreed⟩)
      fun _ _ => True := by
  induction watchers generalizing ahead showings state with
  | nil =>
    rw [List.mapIdx_nil, askWatchers]
    exact Action.meets_pure.2 ⟨[], .agreed 0, rfl, by simpa using same⟩
  | cons watcher rest ih =>
    obtain ⟨moment, shown, state⟩ := state
    obtain rfl : shown = showings := same
    simp only [List.mapIdx_cons, askWatchers, Action.meets_bind, Action.meets_onSecond, displayed,
      Action.meets_noting]
    refine Action.meets_of_forall (fun answer after => ?_) fun _ _ => trivial
    cases yes : Answer.yes answer with
    | false => exact ⟨[false], @Polled.refused 0 _ (Nat.succ_pos _), rfl, rfl⟩
    | true =>
      -- The others stand one position further on than counted from here.
      have later := @ih (ahead + 1) _ (moment, shown ++ [⟨ahead + 0, round, true⟩], after) rfl
      simp only [Nat.add_assoc, Nat.add_comm 1] at later
      refine Action.Meets.mono later ?_
      rintro agreed last ⟨answers, polled, all, noted⟩
      refine ⟨true :: answers, polled.cons, by simpa using all, ?_⟩
      rw [noted, List.mapIdx_cons, List.append_assoc]
      rfl

/-- What has been shown when an iteration is over: it goes on where all the watchers agree. -/
def Displays (count : Nat) (showings : List (Showing K S)) (earlier : List (Round K S)) :
    Turn K S → List (Showing K S) → Prop
  | .goOn later, after => ∃ round, later.rounds = earlier ++ [round] ∧
      after = showings ++ Showing.ofAnswers round (List.replicate count true)
  | .stop _ last later, after => later.rounds = earlier ++ [last] ∧
      ∃ answers, Polled count answers ∧ after = showings ++ Showing.ofAnswers last answers

variable [Status S] [HasStatus R S] [HasObjective R K] [Scalar K] {supervisor : Supervisor σ R S A K}
  {shown : List (Showing K S)} {state : κ × List (Showing K S) × σ} {progress : Progress K S}

omit [Status S] [HasStatus R S] [HasObjective R K] [Scalar K] in
theorem askWatchers_displaying (round : Round K S) (same : state.2.1 = shown) :
    (askWatchers supervisor.displaying.isSolved round supervisor.displaying.watchers).Meets state
      (fun agreed after => ∃ answers, Polled supervisor.watchers.length answers ∧
        answers.all id = agreed ∧ after.2.1 = shown ++ Showing.ofAnswers round answers)
      fun _ _ => True := by
  have asked := askWatchers_displays supervisor.displaying.isSolved round supervisor.watchers 0 same
  simpa only [Nat.zero_add, displaying, Showing.ofAnswers] using asked

omit [Status S] [HasStatus R S] [HasObjective R K] in
/-- An iteration that has added a row is over when the limits have been looked at. -/
theorem afterRow_displays {round : Round K S} {earlier : List (Round K S)}
    (recorded : progress.rounds = earlier ++ [round]) (same : state.2.1 = shown) :
    (supervisor.displaying.afterRow clock start round progress).Meets state
      (fun turn after => Displays supervisor.watchers.length shown earlier turn after.2.1)
      fun _ _ => True := by
  rw [afterRow, Action.meets_bind]
  refine (askWatchers_displaying round same).mono ?_
  rintro agreed after ⟨answers, polled, all, noted⟩
  cases polled with
  | refused within =>
    -- A refusal stops the run.
    obtain rfl : false = agreed := by simpa using all
    exact ⟨recorded, _, .refused within, noted⟩
  | agreed =>
    obtain rfl : true = agreed := by simpa using all
    simp only [if_true]
    refine (LeavesNotes.ofExcept _).meets_bind noted fun spent after noted => ?_
    cases spent with
    | true =>
      exact (LeavesNotes.report _).meets_bind noted fun _ _ noted => ⟨recorded, _, .agreed _, noted⟩
    | false =>
      simp only [Bool.false_eq_true, if_false]
      refine (LeavesNotes.sinceReading clock start).meets_bind noted fun elapsed after noted => ?_
      refine (LeavesNotes.ofExcept _).meets_bind noted fun spent after noted => ?_
      cases spent with
      | true =>
        exact (LeavesNotes.reportWritten _ _).meets_bind noted fun _ _ noted =>
          ⟨recorded, _, .agreed _, noted⟩
      | false => exact ⟨round, recorded, noted⟩

/-- One iteration is shown to all the watchers if the run goes on, and else up to a refusal. -/
theorem turn_displays (same : state.2.1 = shown) :
    (supervisor.displaying.turn clock start progress).Meets state
      (fun turn after =>
        Displays supervisor.watchers.length shown progress.rounds turn after.2.1)
      fun _ _ => True := by
  rw [turn]
  refine (LeavesNotes.readClock clock).meets_bind same fun asked after same => ?_
  refine (LeavesNotes.onSecond _).meets_bind same fun result after same => ?_
  refine (LeavesNotes.sinceReading clock asked).meets_bind same fun taken after same => ?_
  refine (LeavesNotes.ofExcept _).meets_bind same fun spent after same => ?_
  -- Whether a search follows depends on the status.
  dsimp only
  split
  · rw [afterOptimal]
    refine (LeavesNotes.readClock clock).meets_bind same fun asked after same => ?_
    refine (LeavesNotes.onSecond _).meets_bind same fun answer after same => ?_
    refine (LeavesNotes.sinceReading clock asked).meets_bind same fun lasted after same => ?_
    refine (LeavesNotes.ofExcept _).meets_bind same fun spent after same => ?_
    dsimp only
    split
    · refine (LeavesNotes.report _).meets_bind same fun _ after same => ?_
      exact afterRow_displays rfl same
    · refine (LeavesNotes.report _).meets_bind same fun _ after same => ?_
      -- The run stops here, whatever the watchers say.
      refine Action.meets_bind.2 ((askWatchers_displaying _ same).mono fun _ _ said => ?_)
      obtain ⟨answers, polled, -, noted⟩ := said
      exact ⟨rfl, answers, polled, noted⟩
  · refine (LeavesNotes.report _).meets_bind same fun _ after same => ?_
    refine Action.meets_bind.2 ((askWatchers_displaying _ same).mono fun _ _ said => ?_)
    obtain ⟨answers, polled, -, noted⟩ := said
    exact ⟨rfl, answers, polled, noted⟩

/-- From iterations that all have approved on, a run shows one after another up to its end. -/
theorem proceed_displays (turns : Nat)
    (same : state.2.1 = approved supervisor.watchers.length progress.rounds) :
    (supervisor.displaying.proceed clock start turns progress).Meets state
      (fun report after => report.Displayed supervisor.watchers.length after.2.1)
      fun _ _ => True := by
  induction turns generalizing progress state with
  | zero => trivial
  | succ turns ih =>
    rw [proceed, Action.meets_bind]
    refine (turn_displays same).mono fun turn after displays => ?_
    cases turn with
    | goOn later =>
      obtain ⟨round, rounds, noted⟩ := displays
      exact ih (by rw [noted, rounds, Showing.approved_concat])
    | stop ending last later =>
      obtain ⟨rounds, answers, polled, noted⟩ := displays
      -- The report holds the record as it is, and making it shows nothing more.
      simp only [conclude]
      refine (LeavesNotes.sinceReading clock start).meets_bind noted fun total after noted => ?_
      split
      · refine (LeavesNotes.reportWritten _ _).meets_bind noted fun _ after noted => ?_
        exact ⟨_, last, answers, rounds, polled, noted⟩
      · exact ⟨_, last, answers, rounds, polled, noted⟩

/-- What the watchers of a run are shown within some turns, in order. -/
def showings (supervisor : Supervisor σ R S A K) (clock : Clock κ K) (turns : Nat) (moment : κ)
    (state : σ) : List (Showing K S) :=
  ((supervisor.displaying.solve clock turns).run (moment, [], state)).state.2.1

theorem displayed_of_solve {turns : Nat} {moment : κ} {state : σ} {report : Report K S}
    (given : ((supervisor.solve clock turns).run (moment, state)).result = .ok report) :
    report.Displayed supervisor.watchers.length
      (supervisor.showings clock turns moment state) := by
  have same : ((supervisor.displaying.solve clock turns).run (moment, [], state)).result =
      ((supervisor.solve clock turns).run (moment, state)).result :=
    (supervisor.shows_displaying.solve clock turns).result_eq (moment, [], state)
  have met : (supervisor.displaying.solve clock turns).Meets (moment, [], state)
      (fun report after => report.Displayed supervisor.watchers.length after.2.1)
      fun _ _ => True :=
    (LeavesNotes.readClock clock).meets_bind rfl fun _ _ same => proceed_displays turns same
  exact met.of_ok (same.trans given)

/--
Who has seen what in a run with a report.

This holds for all callables, limits, watchers and clocks, whatever the watchers answer.
-/
theorem attended_of_solve {turns : Nat} {moment : κ} {state : σ} {report : Report K S}
    (given : ((supervisor.solve clock turns).run (moment, state)).result = .ok report) :
    report.Attended supervisor.watchers.length (supervisor.showings clock turns moment state) :=
  have seen := (displayed_of_solve given).seen
  ⟨seen, seen.all_iff⟩

/-- Two watchers, of which the first one refuses the second iteration. -/
def divided : Supervisor Nat (LpAnswer ℚ) LpStatus Bool ℚ where
  task := .countdown ⟨.optimal, some 1, [], [], 0, 0, 0⟩ .optimal
  limits := ⟨0, 0, false, false⟩
  watchers := [fun _ round => pure (decide (round.iteration < 2)), fun _ _ => pure true]
  last := none

/-- The second watcher misses the iteration that the first one refuses. -/
theorem attended_divided :
    ∃ report, ((divided.solve ticking 3).run (0, 3)).result = .ok report ∧
      report.ending = .stopped ∧ report.rounds.length = 2 ∧
      report.Attended divided.watchers.length (divided.showings ticking 3 0 3) ∧
      Showing.seenBy 1 (divided.showings ticking 3 0 3) = report.rounds.dropLast := by
  obtain ⟨report, given, ending, rounds⟩ :
      ∃ report, ((divided.solve ticking 3).run (0, 3)).result = .ok report ∧
        report.ending = .stopped ∧ report.rounds.length = 2 := by
    refine ⟨_, rfl, ?_, ?_⟩
    · rfl
    · rfl
  have attended := attended_of_solve given
  refine ⟨report, given, ending, rounds, attended, ?_⟩
  -- The first watcher is ahead of it, and has refused.
  rw [attended.rounds 1 (by decide), if_pos]
  rfl

/-- Not every watcher of a run with a report sees all of its iterations. -/
theorem last_round_is_missed :
    ¬∀ report, ((divided.solve ticking 3).run (0, 3)).result = .ok report →
      ∀ watcher < divided.watchers.length,
        Showing.seenBy watcher (divided.showings ticking 3 0 3) = report.rounds := by
  intro all
  obtain ⟨report, given, rounds⟩ :
      ∃ report, ((divided.solve ticking 3).run (0, 3)).result = .ok report ∧
        report.rounds.length = 2 := ⟨_, rfl, rfl⟩
  have seen := congrArg List.length (all report given 1 (by decide))
  rw [rounds] at seen
  -- The second watcher sees the first iteration only.
  have few : (Showing.seenBy 1 (divided.showings ticking 3 0 3)).length = 1 := rfl
  omega

end Supervisor

end CuttingPlanes
