import CuttingPlanes.Proofs.Separator.Contact

/-! How a call of a separator goes, whatever it calls may do, and what its counters make of it. -/

namespace CuttingPlanes

variable {σ ρ γ μ α β : Type}

open Contact

/-- The counters behind some calls that were made while looking for a candidate. -/
def Tally.behind (contacts : List (Contact γ)) (tally : Tally) : Tally :=
  tally.lookedAt (measures contacts)

theorem Tally.behind_append (contacts later : List (Contact γ)) (tally : Tally) :
    tally.behind (contacts ++ later) = (tally.behind contacts).behind later := by
  simp [behind, lookedAt, Nat.add_assoc]

/-- A computation that makes some calls and tries no commit, whatever was counted or noted. -/
def Action.Consults (action : Action (Tally × List (Contact γ) × σ) α) : Prop :=
  ∀ state, ∃ result contacts after log, Closes contacts result ∧ attempts contacts = 0 ∧
    ∀ (tally : Tally) before, action.run (tally, before, state) =
      ⟨result, (tally.behind contacts, before ++ contacts, after), log⟩

namespace Action

theorem consults_pure (value : α) :
    Consults (pure value : Action (Tally × List (Contact γ) × σ) α) :=
  fun state => ⟨.ok value, [], state, [], .value unbroken_nil value, rfl,
    fun _ _ => by rw [List.append_nil]; rfl⟩

theorem consults_unfinished :
    Consults (unfinished : Action (Tally × List (Contact γ) × σ) α) :=
  fun state => ⟨.error .unfinished, [], state, [], .spent unbroken_nil, rfl,
    fun _ _ => by rw [List.append_nil]; rfl⟩

/-- What is made in two steps consults with both of them. -/
theorem Consults.bind {first : Action (Tally × List (Contact γ) × σ) α}
    {next : α → Action (Tally × List (Contact γ) × σ) β} (begins : Consults first)
    (goesOn : ∀ value, Consults (next value)) : Consults (first >>= next) := by
  intro state
  obtain ⟨result, contacts, after, log, closes, untried, ran⟩ := begins state
  cases result with
  | error cause =>
    -- The second step is not made.
    refine ⟨.error cause, contacts, after, log, closes.of_error, untried, fun tally before => ?_⟩
    rw [run_bind_error (ran tally before)]
  | ok value =>
    obtain ⟨last, later, final, more, ends, unattempted, runs⟩ := goesOn value after
    refine ⟨last, contacts ++ later, final, log ++ more, ends.append closes.unbroken, ?_,
      fun tally before => ?_⟩
    · rw [attempts_append, untried, unattempted]
    · rw [run_bind_ok (ran tally before), runs, Tally.behind_append, List.append_assoc]

/-- A call that is neither a measure nor a commit is noted and not counted. -/
theorem consults_audited {callee : Callee γ} (action : Action σ α)
    (uncounted : callee.isMeasure = false) (untried : callee.isCommit = false) :
    Consults (action.audited callee).onSecond := by
  intro state
  refine ⟨(action.run state).result, [⟨callee, Interrupt.of? (action.run state).result⟩],
    (action.run state).state, (action.run state).log, closes_singleton callee _, ?_,
    fun tally before => ?_⟩
  · rw [attempts, List.countP_singleton, untried]
    rfl
  · rw [Tally.behind, measures, List.countP_singleton, uncounted]
    rfl

end Action

namespace Separator

/-- A measure is counted before it is asked for, so that one that is refused is counted as well. -/
theorem consults_evaluate (separator : Separator σ γ μ) (candidate : γ) :
    Action.Consults (separator.audited.evaluate candidate) := by
  intro state
  let outcome := (separator.family.measure candidate).run state
  exact ⟨outcome.result, [⟨.measure candidate, Interrupt.of? outcome.result⟩], outcome.state,
    outcome.log, closes_singleton _ outcome.result, rfl, fun tally before => rfl⟩

variable [Measure μ]

theorem consults_scanFirst (separator : Separator σ γ μ) (source : Source σ γ)
    (fuel position : Nat) :
    Action.Consults (separator.audited.scanFirst source.audited fuel position) := by
  induction fuel generalizing position with
  | zero => exact Action.consults_unfinished
  | succ fuel ih =>
    refine (Action.consults_audited (source.next position) rfl rfl).bind fun found => ?_
    cases found with
    | none => exact Action.consults_pure none
    | some candidate =>
      refine (separator.consults_evaluate candidate).bind fun measure => ?_
      -- The scan ends at the candidate or goes on behind it.
      split
      · exact Action.consults_pure (some candidate)
      · exact ih (position + 1)

theorem consults_scanDeepest (separator : Separator σ γ μ) (exceeds : μ → μ → Action σ Bool)
    (source : Source σ γ) (fuel position : Nat) (best : Option (γ × μ)) :
    Action.Consults (separator.audited.scanDeepest
      (fun held measure => (exceeds held measure).audited .comparison) source.audited fuel position
        best) := by
  induction fuel generalizing position best with
  | zero => exact Action.consults_unfinished
  | succ fuel ih =>
    refine (Action.consults_audited (source.next position) rfl rfl).bind fun found => ?_
    cases found with
    | none => exact Action.consults_pure (best.map Prod.fst)
    | some candidate =>
      refine (separator.consults_evaluate candidate).bind fun measure => ?_
      have replaces : Action.Consults (Action.onSecond (replaces (fun held measure =>
          (exceeds held measure).audited (.comparison : Callee γ)) best measure)) := by
        -- Without a best candidate nothing is compared.
        cases best with
        | none => exact Action.consults_pure true
        | some held => exact Action.consults_audited (exceeds held.2 measure) rfl rfl
      split
      · refine replaces.bind fun verdict => ?_
        split
        · exact ih (position + 1) (some (candidate, measure))
        · exact ih (position + 1) best
      · exact ih (position + 1) best

/-- Nothing is committed while a separator looks for a candidate. -/
theorem consults_select (separator : Separator σ γ μ) (fuel : Nat) :
    Action.Consults (separator.audited.select fuel) := by
  have lists : (separator.audited.family.enumerate.onSecond : Action (Tally × _) _) =
      Source.audited <$> (separator.family.enumerate.audited .listing).onSecond :=
    Action.onSecond_map _ _
  rw [select, lists, bind_map_left]
  refine (Action.consults_audited separator.family.enumerate rfl rfl).bind fun source => ?_
  -- The two kinds of search differ in whether measures are compared.
  cases search : separator.search with
  | deepest exceeds =>
    have searches : separator.audited.search =
        .deepest fun held measure => (exceeds held measure).audited .comparison := by
      simp only [audited, search]
    rw [searches]
    exact separator.consults_scanDeepest exceeds source fuel 0 none
  | first =>
    have searches : separator.audited.search = .first := by
      simp only [audited, search]
    rw [searches]
    exact separator.consults_scanFirst source fuel 0

/--
How a call goes: what it calls, and how it ends.

A commit is the last thing that is called, and it is called once at most.
-/
inductive Conduct : List (Contact γ) → Except Interrupt Bool → Prop
  | rests {contacts : List (Contact γ)} (unbroken : Unbroken contacts)
      (untried : attempts contacts = 0) : Conduct contacts (.ok false)
  | breaks {contacts : List (Contact γ)} {cause : Interrupt}
      (closes : Closes contacts (.error cause : Except Interrupt Bool))
      (untried : attempts contacts = 0) : Conduct contacts (.error cause)
  | adds {contacts : List (Contact γ)} (unbroken : Unbroken contacts)
      (untried : attempts contacts = 0) (candidate : γ) :
      Conduct (contacts ++ [⟨.commit candidate, none⟩]) (.ok true)
  | refuses {contacts : List (Contact γ)} (unbroken : Unbroken contacts)
      (untried : attempts contacts = 0) (candidate : γ) (cause : Interrupt) :
      Conduct (contacts ++ [⟨.commit candidate, some cause⟩]) (.error cause)

/-- The counters behind a call that has made some calls. -/
def counted (contacts : List (Contact γ)) (tally : Tally) : Tally where
  calls := tally.calls + 1
  evaluated := tally.evaluated + measures contacts
  rowsAdded := tally.rowsAdded + commits contacts

/-- A commit that fails is not counted. -/
theorem counted_append_refused (contacts : List (Contact γ)) (candidate : γ) (cause : Interrupt)
    (tally : Tally) :
    counted (contacts ++ [⟨.commit candidate, some cause⟩]) tally = counted contacts tally := by
  simp [counted, measures, Contact.commits, Callee.isMeasure]

/-- A commit that does not fail is a row more. -/
theorem counted_append_committed (contacts : List (Contact γ)) (candidate : γ) (tally : Tally) :
    counted (contacts ++ [⟨.commit candidate, none⟩]) tally = (counted contacts tally).added := by
  simp [counted, measures, Contact.commits, Callee.isMeasure, Callee.isCommit, Tally.added,
    Nat.add_assoc]

/-- What a call does is the same whatever has been counted or noted before it. -/
theorem audited_call_run (separator : Separator σ γ μ) (fuel : Nat) (state : σ) :
    ∃ result contacts after log, Conduct contacts result ∧ ∀ tally before,
      (separator.audited.call fuel).run (tally, before, state) =
        ⟨result, (counted contacts tally, before ++ contacts, after), log⟩ := by
  obtain ⟨result, contacts, after, log, closes, untried, ran⟩ :=
    separator.consults_select fuel state
  have uncommitted : commits contacts = 0 :=
    Nat.le_zero.1 (untried ▸ commits_le_attempts contacts)
  -- By the time it has looked, the call is counted with its measures, and no row is.
  have looked (tally : Tally) : tally.called.behind contacts = counted contacts tally := by
    rw [counted, uncommitted]
    rfl
  cases result with
  | error cause =>
    refine ⟨.error cause, contacts, after, log, .breaks closes.of_error untried,
      fun tally before => ?_⟩
    simp only [call, Tally.count, Action.run_bind, Action.run_modify, ran, looked]
    rfl
  | ok found =>
    cases found with
    | none =>
      refine ⟨.ok false, contacts, after, log ++ [separator.note "no violated candidate"],
        .rests closes.unbroken untried, fun tally before => ?_⟩
      simp only [call, Tally.count, Action.run_bind, Action.run_modify, ran, looked]
      rfl
    | some candidate =>
      let report := separator.note ("adding candidate " ++ separator.family.describe candidate)
      have commits (before : List (Contact γ)) :
          (separator.audited.family.commit candidate).run (before, after) =
            ((separator.family.commit candidate).audited (.commit candidate)).run (before, after) :=
        rfl
      -- The row is counted behind the commit, and only if that has not failed.
      rcases ended : (separator.family.commit candidate).run after with ⟨cause | done, final, more⟩
      · refine ⟨.error cause, contacts ++ [⟨.commit candidate, some cause⟩], final,
          log ++ [report] ++ more, .refuses closes.unbroken untried candidate cause,
          fun tally before => ?_⟩
        simp only [call, Tally.count, Action.run_bind, Action.run_modify, Action.run_report, ran,
          Action.run_onSecond, commits, Action.run_audited, ended, looked, counted_append_refused,
          ← List.append_assoc]
        rfl
      · refine ⟨.ok true, contacts ++ [⟨.commit candidate, none⟩], final,
          log ++ [report] ++ more, .adds closes.unbroken untried candidate,
          fun tally before => ?_⟩
        simp only [call, Tally.count, Action.run_bind, Action.run_modify, Action.run_report, ran,
          Action.run_onSecond, commits, Action.run_audited, ended, looked, counted_append_committed,
          Action.run_pure, List.append_nil, ← List.append_assoc]
        rfl

/-- What is called in one call. -/
def contactsOf (separator : Separator σ γ μ) (fuel : Nat) (state : Tally × σ) : List (Contact γ) :=
  ((separator.audited.call fuel).run (state.1, [], state.2)).state.2.1

/-- A call counts what it calls, and does the same whatever has been counted before. -/
theorem call_run (separator : Separator σ γ μ) (fuel : Nat) (state : σ) :
    ∃ result contacts after log, Conduct contacts result ∧ ∀ tally,
      separator.contactsOf fuel (tally, state) = contacts ∧
        (separator.call fuel).run (tally, state) =
          ⟨result, (counted contacts tally, after), log⟩ := by
  obtain ⟨result, contacts, after, log, conduct, ran⟩ := separator.audited_call_run fuel state
  refine ⟨result, contacts, after, log, conduct, fun tally => ⟨?_, ?_⟩⟩
  · rw [contactsOf, ran]
    rfl
  · -- What is noted is out of view.
    have shown := (separator.shows_audited.call fuel).run_eq (tally, [], state)
    rw [ran] at shown
    exact shown

end Separator

/-- One call of a separator: what was called in it, and how it has ended. -/
structure Invocation (γ : Type) where
  contacts : List (Contact γ)
  result : Except Interrupt Bool

namespace Invocation

/-- Whether a call has said that it has added a candidate. -/
def added (invocation : Invocation γ) : Bool :=
  match invocation.result with
  | .ok answer => answer
  | .error _ => false

/--
A call that has gone as it should, whatever the parts that it has called have done.

What has failed in it is the last thing that it has called, and its own failure. A commit is tried
once at most, and only if nothing else has failed.
-/
structure Orderly (invocation : Invocation γ) : Prop where
  closes : Closes invocation.contacts invocation.result
  attempts_le_one : attempts invocation.contacts ≤ 1
  others_succeed : attempts invocation.contacts = 1 → ∀ contact ∈ invocation.contacts,
    contact.callee.isCommit = false → contact.failure = none
  commits_eq : commits invocation.contacts = if invocation.added then 1 else 0

end Invocation

variable {contacts : List (Contact γ)} {result : Except Interrupt Bool}

/-- Every way in which a call may go is in order. -/
theorem Separator.Conduct.orderly (conduct : Conduct contacts result) :
    Invocation.Orderly ⟨contacts, result⟩ := by
  have uncommitted {looked : List (Contact γ)} (untried : attempts looked = 0) :
      commits looked = 0 := Nat.le_zero.1 (untried ▸ commits_le_attempts looked)
  cases conduct with
  | rests unbroken untried =>
    exact ⟨.value unbroken false, by simp [untried], by simp [untried], uncommitted untried⟩
  | breaks closes untried =>
    exact ⟨closes, by simp [untried], by simp [untried], uncommitted untried⟩
  | @adds looked unbroken untried candidate =>
    have all : Unbroken (looked ++ [⟨.commit candidate, none⟩]) :=
      unbroken.append (fun contact member => by rw [List.mem_singleton.1 member])
    refine ⟨.value all true, ?_, fun _ contact member _ => all contact member, ?_⟩
    · rw [attempts_append, untried]
      exact Nat.le_refl 1
    · rw [commits_append, uncommitted untried]
      rfl
  | @refuses looked unbroken untried candidate cause =>
    refine ⟨.failure unbroken _ cause, ?_, fun _ contact member other => ?_, ?_⟩
    · rw [attempts_append, untried]
      exact Nat.le_refl 1
    · -- The commit itself is the only call that has failed.
      rcases List.mem_append.1 member with before | last
      · exact unbroken contact before
      · rw [List.mem_singleton.1 last] at other
        cases other
    · rw [commits_append, uncommitted untried]
      rfl

/-- What the counters have to say of the calls that were made since they were zero. -/
structure Tally.Accounts (tally : Tally) (since : List (Invocation γ)) : Prop where
  calls : tally.calls = since.length
  evaluated : tally.evaluated = (since.map fun invocation => measures invocation.contacts).sum
  rowsAdded : tally.rowsAdded = (since.map fun invocation => commits invocation.contacts).sum
  added : tally.rowsAdded = since.countP Invocation.added

theorem Tally.accounts_zero : Tally.zero.Accounts ([] : List (Invocation γ)) := ⟨rfl, rfl, rfl, rfl⟩

/-- One call more is accounted for by what is counted in it. -/
theorem Tally.Accounts.append {tally : Tally} {since : List (Invocation γ)}
    (accounts : tally.Accounts since) (orderly : Invocation.Orderly ⟨contacts, result⟩) :
    (Separator.counted contacts tally).Accounts (since ++ [⟨contacts, result⟩]) where
  calls := by
    rw [List.length_append, ← accounts.calls]
    rfl
  evaluated := by
    rw [List.map_append, List.sum_append_nat, ← accounts.evaluated]
    rfl
  rowsAdded := by
    rw [List.map_append, List.sum_append_nat, ← accounts.rowsAdded]
    rfl
  added := by
    rw [List.countP_append, ← accounts.added, List.countP_singleton, ← orderly.commits_eq]
    rfl

/-- What happens to a separator and to the state that it works on. -/
inductive Visit (σ : Type) where
  | call
  /-- The counters start again from zero. -/
  | reset
  /-- The state changes while no call is being made. -/
  | change (step : σ → σ)

namespace Visit

variable [Measure μ] (separator : Separator σ γ μ) (fuel : Nat)

/-- What is done; a call gives its answer. -/
def perform : Visit σ → Action (Tally × σ) (Option Bool)
  | call => some <$> separator.call fuel
  | reset => do
      Tally.count fun _ => Tally.zero
      return none
  | change step => do
      Action.modify fun state => (state.1, step state.2)
      return none

/-- The calls since the last reset, with those of before and the one that may be made now. -/
def record (since : List (Invocation γ)) (state : Tally × σ) : Visit σ → List (Invocation γ)
  | call => since ++
      [⟨separator.contactsOf fuel state, ((separator.call fuel).run state).result⟩]
  | reset => []
  | change _ => since

/-- The calls since the last reset, when some visits are made one after another. -/
def since : List (Visit σ) → List (Invocation γ) → Tally × σ → List (Invocation γ)
  | [], before, _ => before
  | visit :: rest, before, state =>
      since rest (visit.record separator fuel before state)
        ((visit.perform separator fuel).run state).state

/-- What some visits leave behind, whether their calls fail or not. -/
def leave (visits : List (Visit σ)) : Tally × σ → Tally × σ :=
  Action.leave (visits.map (perform separator fuel))

variable {separator fuel} {before : List (Invocation γ)} {tally : Tally}

/-- A visit keeps the counters in step with the calls since the last reset. -/
theorem accounts_record (accounts : tally.Accounts before) (state : σ) (visit : Visit σ) :
    Tally.Accounts ((visit.perform separator fuel).run (tally, state)).state.1
      (visit.record separator fuel before (tally, state)) := by
  cases visit with
  | call =>
    obtain ⟨result, contacts, after, log, conduct, ran⟩ := separator.call_run fuel state
    obtain ⟨called, made⟩ := ran tally
    have left : ((call.perform separator fuel).run (tally, state)).state =
        (Separator.counted contacts tally, after) := by
      show ((separator.call fuel >>= fun answer => pure (some answer)).run _).state = _
      rw [Action.run_bind, made]
      cases result <;> rfl
    rw [left, record, called, made]
    exact accounts.append conduct.orderly
  | reset => exact Tally.accounts_zero
  | change step => exact accounts

/-- So do any number of visits. -/
theorem accounts_since (accounts : tally.Accounts before) (visits : List (Visit σ)) (state : σ) :
    Tally.Accounts (leave separator fuel visits (tally, state)).1
      (since separator fuel visits before (tally, state)) := by
  induction visits generalizing before tally state with
  | nil => exact accounts
  | cons visit rest ih => exact ih (accounts_record accounts state visit) _

end Visit

namespace Separator

/--
The counters of a separator say what it has called since they were zero, whatever fails.

Every call is in order, and one that has failed leaves a separator that does what any other does in
the state that was reached.
-/
theorem counters_account_for_calls [Measure μ] (policy : Policy) (family : Family σ γ μ)
    (exceeds : μ → μ → Action σ Bool) (reorder : Source σ γ → Action σ (Source σ γ))
    (draw : Random.Draw ρ) (turns fuel : Nat) :
    let separator := ofPolicy policy family exceeds reorder draw turns
    (∀ (visits : List (Visit (Rotation ρ × σ))) state,
      Tally.Accounts (Visit.leave separator fuel visits (.zero, state)).1
        (Visit.since separator fuel visits [] (.zero, state))) ∧
    (∀ state, Invocation.Orderly
      ⟨separator.contactsOf fuel state, ((separator.call fuel).run state).result⟩) ∧
    ∀ tally other state,
      separator.contactsOf fuel (tally, state) = separator.contactsOf fuel (other, state) ∧
        ((separator.call fuel).run (tally, state)).result =
          ((separator.call fuel).run (other, state)).result ∧
        ((separator.call fuel).run (tally, state)).state.2 =
          ((separator.call fuel).run (other, state)).state.2 ∧
        ((separator.call fuel).run (tally, state)).log =
          ((separator.call fuel).run (other, state)).log := by
  intro separator
  refine ⟨fun visits state => Visit.accounts_since Tally.accounts_zero visits state, ?_, ?_⟩
  · rintro ⟨tally, state⟩
    obtain ⟨result, contacts, after, log, conduct, ran⟩ := separator.call_run fuel state
    obtain ⟨called, made⟩ := ran tally
    rw [called, made]
    exact conduct.orderly
  · intro tally other state
    obtain ⟨result, contacts, after, log, conduct, ran⟩ := separator.call_run fuel state
    -- Only the counters themselves depend on what was counted before.
    rw [(ran tally).1, (ran other).1, (ran tally).2, (ran other).2]
    exact ⟨rfl, rfl, rfl, rfl⟩

/-- A measure that is refused in the first call is counted, and the second call adds a candidate. -/
example :
    let family : Family Nat Nat Datum :=
      ⟨pure (Source.ofList [0, 1]),
        fun candidate => do
          if (← Action.get) = 0 then Action.raise .badSeed
          return .int candidate,
        fun _ => pure (), toString⟩
    let separator := ofPolicy .first family (fun _ _ => pure true) pure
      (fun _ => pure (.int 0) : Random.Draw Unit) 0
    (Visit.leave separator 3 [.call, .change (Prod.map id (· + 1)), .call]
      (.zero, .ofGenerator (), 0)).1 = ⟨2, 3, 1⟩ := by
  rfl

end Separator

end CuttingPlanes
