import CuttingPlanes.Event
import CuttingPlanes.Proofs.Loop.View

/-! The calls that a loop makes of its task, in the order in which it makes them. -/

namespace CuttingPlanes

variable {σ τ ω κ R S A K : Type} {view : τ → σ}

/-- What holds of every member of a trace, with the members before it. -/
def Throughout {ε : Type} (holds : List ε → ε → Prop) (trace : List ε) : Prop :=
  ∀ before member after, trace = before ++ member :: after → holds before member

theorem throughout_nil {ε : Type} (holds : List ε → ε → Prop) : Throughout holds [] := by
  intro before member after split
  simp at split

/-- What holds of a trace and of one member more behind it holds of both. -/
theorem Throughout.append {ε : Type} {holds : List ε → ε → Prop} {trace : List ε}
    (throughout : Throughout holds trace) {last : ε} (right : holds trace last) :
    Throughout holds (trace ++ [last]) := by
  intro before member after split
  -- The member is the last one, or one of those before it.
  rcases List.eq_nil_or_concat after with rfl | ⟨rest, end', rfl⟩
  · obtain ⟨rfl, same⟩ := List.append_inj' split rfl
    obtain rfl := List.singleton_inj.1 same
    exact right
  · rw [List.concat_eq_append, ← List.cons_append, ← List.append_assoc] at split
    exact throughout _ _ _ (List.append_inj' split rfl).1

namespace Task

/-- A task on the second part of a state. -/
def onSecond (task : Task σ R S A) : Task (τ × σ) R S A :=
  ⟨task.solve.onSecond, task.separate.onSecond, task.optimal⟩

theorem shows_onSecond (task : Task σ R S A) :
    (task.onSecond : Task (τ × σ) R S A).Shows Prod.snd task :=
  ⟨Action.shows_snd _, Action.shows_snd _, rfl⟩

/-- Notes a call behind the ones before it. -/
def note (event : Event) : Action (List Event × σ) Unit :=
  Action.modify fun state => (state.1 ++ [event], state.2)

theorem shows_note (event : Event) :
    Action.Shows (Prod.map id view) Eq (note event) (note event) :=
  Action.shows_modify fun _ => rfl

/-- A task that notes each of its calls before it makes it. -/
def traced (task : Task σ R S A) : Task (List Event × σ) R S A where
  solve := do
    note .solve
    task.solve.onSecond
  separate := do
    note .separate
    task.separate.onSecond
  optimal := task.optimal

/-- Noting the calls of a task changes nothing else. -/
theorem shows_traced (task : Task σ R S A) : task.traced.Shows Prod.snd task where
  -- The note is out of view, and what follows it is the call.
  solve state := Action.shows_snd task.solve (state.1 ++ [.solve], state.2)
  separate state := Action.shows_snd task.separate (state.1 ++ [.separate], state.2)
  optimal := rfl

/-- A task that shows another one is called in the same way. -/
theorem Shows.traced {shown : Task τ R S A} {task : Task σ R S A} (shows : shown.Shows view task) :
    shown.traced.Shows (Prod.map id view) task.traced where
  -- Both note the same, and then the one shows what the other does.
  solve := (shows_note .solve).andThen fun _ => shows.solve.onSecond
  separate := (shows_note .separate).andThen fun _ => shows.separate.onSecond
  optimal := shows.optimal

/-- The calls of the bare loop within some turns. -/
def callsOf [HasStatus R S] [Status S] [Answer A] (task : Task σ R S A) (turns : Nat) (state : σ) :
    List Event :=
  ((task.traced.alternate turns).run ([], state)).state.1

end Task

namespace Supervisor

/-- A supervisor of a task that notes its calls. -/
def traced (supervisor : Supervisor σ R S A K) : Supervisor (List Event × σ) R S A K where
  task := supervisor.task.traced
  limits := supervisor.limits
  watchers :=
    supervisor.watchers.map fun watcher isSolved round => (watcher isSolved round).onSecond
  last := supervisor.last

/-- The calls of a supervised run within some turns. -/
def callsOf [HasStatus R S] [HasObjective R K] [Status S] [Answer A] [Scalar K]
    (supervisor : Supervisor σ R S A K) (clock : Clock κ K) (turns : Nat) (moment : κ) (state : σ) :
    List Event :=
  ((supervisor.traced.solve clock turns).run (moment, [], state)).state.2.1

end Supervisor

end CuttingPlanes
