import CuttingPlanes.Proofs.Rotation
import CuttingPlanes.Proofs.Separator.Conduct
import CuttingPlanes.Proofs.Separator.Count

/-! The shuffled policy is the first one over turned candidates, by one stream of offsets. -/

namespace CuttingPlanes

variable {σ τ ρ γ μ : Type}

/-- All candidates of a family, one after another. -/
def Family.listing (family : Family σ γ μ) (turns : Nat) : Action σ (List γ) := do
  (← family.enumerate).collect turns

/-- How many candidates can be listed in a state, if they can. -/
def Family.count? (family : Family σ γ μ) (turns : Nat) (state : σ) : Option Nat :=
  match ((family.listing turns).ends state).1 with
  | .ok items => some items.length
  | .error _ => none

/-- Collecting on a part of a state leaves alone what is beside it. -/
theorem Source.collectFrom_onSecond (source : Source σ γ) (fuel position : Nat) :
    (source.onSecond : Source (τ × σ) γ).collectFrom fuel position =
      (source.collectFrom fuel position).onSecond := by
  induction fuel generalizing position with
  | zero => rfl
  | succ fuel ih =>
    simp only [collectFrom, Action.onSecond_bind]
    refine congrArg _ (funext fun found => ?_)
    cases found with
    | none => rfl
    | some member => simp only [ih, Action.onSecond_bind, Action.onSecond_pure]

/-- A listed source is the same one beside another state. -/
theorem Source.onSecond_ofList (items : List γ) :
    (ofList items : Source σ γ).onSecond = (ofList items : Source (τ × σ) γ) := rfl

namespace Rotation

variable {draw : Random.Draw ρ} {count : Nat} {rotation : Rotation ρ} {generator : ρ}

/-- An offset that is drawn is kept with the generator that the draw has left. -/
theorem drawOffset_ends_ok {offset : Datum}
    (drawn : (draw count).ends rotation.generator = (.ok offset, generator)) :
    (drawOffset draw count).ends rotation = (.ok offset, ⟨generator, some offset⟩) := by
  obtain ⟨given, left⟩ := Prod.mk.inj drawn
  simp only [Action.ends, Action.run, drawOffset] at given left ⊢
  rw [given, left]

/-- A draw that fails leaves its generator behind and no offset. -/
theorem drawOffset_ends_error {cause : Interrupt}
    (failed : (draw count).ends rotation.generator = (.error cause, generator)) :
    (drawOffset draw count).ends rotation = (.error cause, { rotation with generator }) := by
  obtain ⟨given, left⟩ := Prod.mk.inj failed
  simp only [Action.ends, Action.run, drawOffset] at given left ⊢
  rw [given, left]

/-- The rotation behind a draw for a number of candidates, and behind none without a number. -/
def advanced (draw : Random.Draw ρ) (rotation : Rotation ρ) : Option Nat → Rotation ρ
  | none => rotation
  | some count => ((drawOffset draw count).ends rotation).2

/-- The rotations behind some draws, one after another. -/
def follow (draw : Random.Draw ρ) : List (Option Nat) → Rotation ρ → List (Rotation ρ)
  | [], _ => []
  | count? :: rest, rotation =>
      rotation.advanced draw count? :: follow draw rest (rotation.advanced draw count?)

end Rotation

namespace Separator

/-- The first policy over the candidates of a family, turned by a given offset. -/
def turned (family : Family σ γ μ) (offset : Datum) (turns : Nat) : Separator σ γ μ :=
  first family ((Reordering.rotated offset).apply turns)

section Listing

variable (family : Family σ γ μ) (draw : Random.Draw ρ) (offset : Datum) (turns : Nat)

/-- All candidates are produced before the offset is drawn. -/
theorem shuffled_enumerate :
    (shuffled family draw turns).family.enumerate =
      (family.listing turns).onSecond >>= fun items =>
        Source.ofList <$> (Rotation.apply draw items).onFirst := by
  simp only [shuffled, Family.reordered, Family.onSecond, Family.listing, Rotation.reorder,
    Source.collect, Action.onSecond_bind, bind_map_left, bind_assoc, Source.collectFrom_onSecond]
  rfl

theorem turned_enumerate :
    (turned family offset turns).family.enumerate =
      family.listing turns >>= fun items =>
        Source.ofList <$> Action.ofExcept (rotateBy items offset) := by
  simp only [turned, first, Family.reordered, Family.listing, bind_assoc]
  rfl

end Listing

section Alike

variable [Measure μ] {left right : Separator σ γ μ}

/-- Scans for a first violation that measure alike are the same. -/
theorem scanFirst_congr (measures : left.family.measure = right.family.measure)
    (source : Source σ γ) (fuel position : Nat) :
    left.scanFirst source fuel position = right.scanFirst source fuel position := by
  have evaluates : left.evaluate = right.evaluate := by
    funext candidate
    rw [evaluate, evaluate, measures]
  induction fuel generalizing position with
  | zero => rfl
  | succ fuel ih => simp only [scanFirst, evaluates, ih]

/-- What two separators for a first violation have in common that only enumerate differently. -/
structure Alike (left right : Separator σ γ μ) : Prop where
  search : left.search = .first
  searches : right.search = .first
  measures : left.family.measure = right.family.measure
  commits : left.family.commit = right.family.commit

/-- Calls end alike where the same candidates are listed. -/
theorem Alike.call_ends (alike : left.Alike right) {state state' : σ}
    (lists : left.family.enumerate.ends state = right.family.enumerate.ends state') (fuel : Nat)
    (tally : Tally) :
    (left.call fuel).ends (tally, state) = (right.call fuel).ends (tally, state') := by
  have selects : (left.select fuel).ends (tally.called, state) =
      (right.select fuel).ends (tally.called, state') := by
    simp only [select, alike.search, alike.searches, Action.ends_bind, Action.ends_onSecond, lists,
      scanFirst_congr alike.measures]
  simp only [call, Tally.count, Action.ends_bind, Action.ends_modify, selects]
  -- Whatever has been found, it is committed in the same way, and only the reports may differ.
  rcases (right.select fuel).ends (tally.called, state') with ⟨cause | _ | candidate, after⟩
  · rfl
  · rfl
  · simp only [Action.ends_bind, Action.ends_report, alike.commits]

omit [Measure μ] in
/-- Separators that are alike are alike when they note what they call. -/
theorem Alike.audited (alike : left.Alike right) : left.audited.Alike right.audited where
  search := by simp only [Separator.audited, alike.search]
  searches := by simp only [Separator.audited, alike.searches]
  measures := by simp only [Separator.audited, alike.measures]
  commits := by simp only [Separator.audited, alike.commits]

omit [Measure μ] in
/-- What is listed alike is listed alike when that is noted. -/
theorem audited_enumerate_ends {state state' : σ}
    (lists : left.family.enumerate.ends state = right.family.enumerate.ends state')
    (contacts : List (Contact γ)) :
    left.audited.family.enumerate.ends (contacts, state) =
      right.audited.family.enumerate.ends (contacts, state') := by
  simp only [Separator.audited, Action.ends_map, Action.ends_audited, lists]

/-- Calls make the same contacts where the same candidates are listed. -/
theorem Alike.contactsOf_eq (alike : left.Alike right) {state state' : σ}
    (lists : left.family.enumerate.ends state = right.family.enumerate.ends state') (fuel : Nat)
    (tally : Tally) :
    left.contactsOf fuel (tally, state) = right.contactsOf fuel (tally, state') :=
  congrArg (fun ended : Except Interrupt Bool × Tally × List (Contact γ) × σ => ended.2.2.1)
    (alike.audited.call_ends (audited_enumerate_ends lists []) fuel tally)

end Alike

section Beside

variable [Measure μ]

/-- A call of a separator on a part of the state leaves alone what is beside it. -/
theorem call_onSecond (separator : Separator σ γ μ) (fuel : Nat) :
    (separator.onSecond : Separator (τ × σ) γ μ).call fuel = (separator.call fuel).past := by
  refine Action.ext fun ⟨tally, first, state⟩ => ?_
  have kept : (separator.onSecond.call fuel).Meets (tally, first, state)
      (fun _ after => after.2.1 = first) fun _ after => after.2.1 = first :=
    separator.looks_onSecond.call_meets (fun _ looked => looked.part)
      (fun _ looked _ => Action.meets_onSecond.2
        (Action.meets_of_forall (fun _ _ => looked.part) fun _ _ => looked.part))
      fun _ _ looked => looked.part
  have still : ((separator.onSecond.call fuel).run (tally, first, state)).state.2.1 = first := by
    rcases Action.meets_iff.1 kept with ⟨_, -, same⟩ | ⟨_, -, same⟩
    · exact same
    · exact same
  -- What is beside the part is out of view, and it has stayed as it was.
  have shown := (separator.shows_snd.call fuel).run_eq (tally, first, state)
  rw [Prod.map_apply, id] at shown
  rw [Action.run_past, shown]
  generalize (separator.onSecond.call fuel).run (tally, first, state) = outcome at still
  obtain ⟨result, ⟨after, other, last⟩, log⟩ := outcome
  obtain rfl : other = first := still
  rfl

theorem contactsOf_onSecond (separator : Separator σ γ μ) (fuel : Nat) (tally : Tally) (first : τ)
    (state : σ) :
    (separator.onSecond : Separator (τ × σ) γ μ).contactsOf fuel (tally, first, state) =
      separator.contactsOf fuel (tally, state) := by
  have shown := (separator.shows_snd.audited.call fuel).run_eq (tally, [], first, state)
  exact (congrArg (fun outcome => outcome.state.2.1) shown).symm

end Beside

section Turning

variable {family : Family σ γ μ} {draw : Random.Draw ρ} {turns : Nat} {items : List γ}
  {rotation : Rotation ρ} {generator : ρ} {state after : σ} {offset : Datum} {cause : Interrupt}

/-- With an offset that is drawn, the candidates are listed that are turned by it. -/
theorem shuffled_enumerate_ends
    (listed : (family.listing turns).ends state = (.ok items, after))
    (drawn : (draw items.length).ends rotation.generator = (.ok offset, generator)) :
    (shuffled family draw turns).family.enumerate.ends (rotation, state) =
      (turned family offset turns).onSecond.family.enumerate.ends
        (⟨generator, some offset⟩, state) := by
  rw [shuffled_enumerate]
  simp only [onSecond, Family.onSecond, turned_enumerate, Action.ends_bind, Action.ends_map,
    Action.ends_onSecond, listed, Action.ends_onFirst, Rotation.apply,
    Rotation.drawOffset_ends_ok drawn]
  -- The list is turned, or the offset refused, in the same way on both sides.
  cases rotateBy items offset <;> rfl

/-- Where the candidates cannot be listed, nothing is drawn. -/
theorem shuffled_enumerate_ends_of_unlisted
    (unlisted : (family.listing turns).ends state = (.error cause, after)) :
    (shuffled family draw turns).family.enumerate.ends (rotation, state) =
      (.error cause, rotation, after) := by
  rw [shuffled_enumerate]
  simp only [Action.ends_bind, Action.ends_onSecond, unlisted]

/-- Where no offset can be drawn, the candidates have been listed in vain. -/
theorem shuffled_enumerate_ends_of_undrawn
    (listed : (family.listing turns).ends state = (.ok items, after))
    (undrawn : (draw items.length).ends rotation.generator = (.error cause, generator)) :
    (shuffled family draw turns).family.enumerate.ends (rotation, state) =
      (.error cause, { rotation with generator }, after) := by
  rw [shuffled_enumerate]
  simp only [Action.ends_bind, Action.ends_map, Action.ends_onSecond, listed, Action.ends_onFirst,
    Rotation.apply, Rotation.drawOffset_ends_error undrawn]
  rfl

/-- Turned by a whole number, the candidates are listed from another place on. -/
theorem turned_enumerate_ends (listed : (family.listing turns).ends state = (.ok items, after))
    (offset : Int) :
    (turned family (.int offset) turns).family.enumerate.ends state =
      (.ok (Source.ofList (rotate items offset)), after) := by
  simp only [turned_enumerate, Action.ends_bind, Action.ends_map, listed, rotateBy_int,
    Action.ofExcept_ok, Action.ends_pure]
  rfl

variable [Measure μ]

/-- A call fails where its candidates cannot be listed, having called nothing else. -/
theorem call_ends_of_unlisted {separator : Separator σ γ μ}
    (unlisted : separator.family.enumerate.ends state = (.error cause, after)) (fuel : Nat)
    (tally : Tally) :
    (separator.call fuel).ends (tally, state) = (.error cause, tally.called, after) := by
  simp only [call, Tally.count, select, Action.ends_bind, Action.ends_modify, Action.ends_onSecond,
    unlisted]

/-- The only thing that is called then is the list. -/
theorem contactsOf_of_unlisted {separator : Separator σ γ μ}
    (unlisted : separator.family.enumerate.ends state = (.error cause, after)) (fuel : Nat)
    (tally : Tally) :
    separator.contactsOf fuel (tally, state) = [⟨.listing, some cause⟩] := by
  have noted : separator.audited.family.enumerate.ends ([], state) =
      (.error cause, [⟨.listing, some cause⟩], after) := by
    simp only [audited, Action.ends_map, Action.ends_audited, unlisted]
    rfl
  exact congrArg (fun ended : Except Interrupt Bool × Tally × List (Contact γ) × σ => ended.2.2.1)
    (call_ends_of_unlisted noted fuel tally)

/--
What a call of the shuffled policy does once all candidates are listed.

It draws one offset, and is from there on the call of the first policy over the turned candidates.
-/
structure TurnsBy (family : Family σ γ μ) (draw : Random.Draw ρ) (turns fuel : Nat) (tally : Tally)
    (rotation : Rotation ρ) (state : σ) (items : List γ) (after : σ) : Prop where
  ends : ∀ offset generator, (draw items.length).ends rotation.generator = (.ok offset, generator) →
    let ended := ((turned family offset turns).call fuel).ends (tally, state)
    ((shuffled family draw turns).call fuel).ends (tally, rotation, state) =
      (ended.1, ended.2.1, ⟨generator, some offset⟩, ended.2.2)
  contactsOf : ∀ offset generator,
    (draw items.length).ends rotation.generator = (.ok offset, generator) →
      (shuffled family draw turns).contactsOf fuel (tally, rotation, state) =
        (turned family offset turns).contactsOf fuel (tally, state)
  lists : ∀ offset, (turned family (.int offset) turns).family.enumerate.ends state =
    (.ok (Source.ofList (rotate items offset)), after)
  undrawn : ∀ cause generator,
    (draw items.length).ends rotation.generator = (.error cause, generator) →
      ((shuffled family draw turns).call fuel).ends (tally, rotation, state) =
        (.error cause, tally.called, { rotation with generator }, after)

theorem turnsBy (listed : (family.listing turns).ends state = (.ok items, after)) (draw)
    (fuel : Nat) (tally : Tally) (rotation : Rotation ρ) :
    TurnsBy family draw turns fuel tally rotation state items after where
  ends offset generator drawn := by
    have same : (shuffled family draw turns).Alike (turned family offset turns).onSecond :=
      ⟨rfl, rfl, rfl, rfl⟩
    rw [same.call_ends (shuffled_enumerate_ends listed drawn), call_onSecond, Action.ends_past]
  contactsOf offset generator drawn := by
    have same : (shuffled family draw turns).Alike (turned family offset turns).onSecond :=
      ⟨rfl, rfl, rfl, rfl⟩
    rw [same.contactsOf_eq (shuffled_enumerate_ends listed drawn), contactsOf_onSecond]
  lists := turned_enumerate_ends listed
  undrawn cause generator failed :=
    call_ends_of_unlisted (shuffled_enumerate_ends_of_undrawn listed failed) fuel tally

end Turning

section Sequence

variable [Measure μ]

variable (family : Family σ γ μ) (draw : Random.Draw ρ) (turns fuel : Nat)

/-- How a call of the shuffled policy ends behind a change of what it works on. -/
def outing (change : σ → σ) (state : Tally × Rotation ρ × σ) :
    Except Interrupt Bool × Tally × Rotation ρ × σ :=
  ((shuffled family draw turns).call fuel).ends (state.1, state.2.1, change state.2.2)

/-- The rotations that calls leave, one after another, each behind a change. -/
def rotations : List (σ → σ) → Tally × Rotation ρ × σ → List (Rotation ρ)
  | [], _ => []
  | change :: rest, state =>
      let after := (outing family draw turns fuel change state).2
      after.2.1 :: rotations rest after

/-- The numbers of candidates that these calls can list, where they can. -/
def counts : List (σ → σ) → Tally × Rotation ρ × σ → List (Option Nat)
  | [], _ => []
  | change :: rest, state =>
      family.count? turns (change state.2.2) ::
        counts rest (outing family draw turns fuel change state).2

/-- A call leaves the rotation behind one draw, or as it was where nothing could be listed. -/
theorem rotation_of_call (tally : Tally) (rotation : Rotation ρ) (state : σ) :
    (((shuffled family draw turns).call fuel).ends (tally, rotation, state)).2.2.1 =
      rotation.advanced draw (family.count? turns state) := by
  rcases listed : (family.listing turns).ends state with ⟨cause | items, after⟩
  · rw [call_ends_of_unlisted (shuffled_enumerate_ends_of_unlisted listed), Family.count?, listed]
    rfl
  · rw [Family.count?, listed]
    have met := turnsBy listed draw fuel tally rotation
    -- A draw that fails leaves its generator behind as well.
    rcases drawn : (draw items.length).ends rotation.generator with ⟨cause | offset, generator⟩
    · rw [met.undrawn cause generator drawn, Rotation.advanced,
        Rotation.drawOffset_ends_error drawn]
    · rw [met.ends offset generator drawn, Rotation.advanced, Rotation.drawOffset_ends_ok drawn]

/-- Only how many candidates there are decides about the draws, one after another. -/
theorem rotations_eq_follow (changes : List (σ → σ)) (state : Tally × Rotation ρ × σ) :
    rotations family draw turns fuel changes state =
      Rotation.follow draw (counts family draw turns fuel changes state) state.2.1 := by
  induction changes generalizing state with
  | nil => rfl
  | cons change rest ih =>
    have moved : (outing family draw turns fuel change state).2.2.1 =
        state.2.1.advanced draw (family.count? turns (change state.2.2)) :=
      rotation_of_call family draw turns fuel state.1 state.2.1 (change state.2.2)
    rw [rotations, counts, Rotation.follow, ih, moved]

/--
The shuffled policy is the first one over turned candidates, with one draw wherever all are listed.

What is drawn in any number of calls, whatever happens in them and in between, is decided by the
generator and by how many candidates could be listed.
-/
theorem shuffled_simulates_first :
    (∀ tally (rotation : Rotation ρ) state items after,
      (family.listing turns).ends state = (.ok items, after) →
        TurnsBy family draw turns fuel tally rotation state items after) ∧
    (∀ tally (rotation : Rotation ρ) state cause after,
      (family.listing turns).ends state = (.error cause, after) →
        ((shuffled family draw turns).call fuel).ends (tally, rotation, state) =
            (.error cause, tally.called, rotation, after) ∧
          (shuffled family draw turns).contactsOf fuel (tally, rotation, state) =
            [⟨.listing, some cause⟩]) ∧
    ∀ changes tally rotation state,
      rotations family draw turns fuel changes (tally, rotation, state) =
        Rotation.follow draw (counts family draw turns fuel changes (tally, rotation, state))
          rotation := by
  refine ⟨fun tally rotation state items after listed => ?_,
    fun tally rotation state cause after unlisted => ?_, fun changes tally rotation state => ?_⟩
  · exact turnsBy listed draw fuel tally rotation
  · have failed : (shuffled family draw turns).family.enumerate.ends (rotation, state) =
        (.error cause, rotation, after) := shuffled_enumerate_ends_of_unlisted unlisted
    exact ⟨call_ends_of_unlisted failed fuel tally, contactsOf_of_unlisted failed fuel tally⟩
  · exact rotations_eq_follow family draw turns fuel changes (tally, rotation, state)

end Sequence

end Separator

/-- Offsets that are given beforehand. -/
def Random.listed : Draw (List Datum) := fun _ => do
  match ← Action.get with
  | [] => Action.raise .badSeed
  | offset :: rest =>
      Action.set rest
      return offset

/-- The numbers of a list that may be missing; nine has no measure, and zero does not count. -/
def Family.posted : Family (Option (List Nat)) Nat Datum where
  enumerate := do
    match ← Action.get with
    | none => Action.raise .nullGraph
    | some numbers => return Source.ofList numbers
  measure number := if number = 9 then Action.raise .badSeed else pure (.int number)
  commit number := Action.modify (Option.map fun numbers => numbers.erase number)
  describe := toString

namespace Separator

/-- Of four calls the one without a list draws nothing; an empty list and a refusal cost a draw. -/
theorem shuffled_simulates_first_posted :
    let shuffle := shuffled Family.posted Random.listed 5
    let offsets : List Datum := [.int 1, .int 0, .int 2]
    let begun : Tally × Rotation (List Datum) × Option (List Nat) :=
      (.zero, .ofGenerator offsets, some [0, 5, 9])
    (shuffle.call 5).ends begun =
        (.ok true, ⟨1, 1, 1⟩, ⟨[.int 0, .int 2], some (.int 1)⟩, some [0, 9]) ∧
      shuffle.contactsOf 5 begun =
        (turned Family.posted (.int 1) 5).contactsOf 5 (.zero, begun.2.2) ∧
      (shuffle.call 5).ends (.zero, .ofGenerator offsets, none) =
        (.error (.raised .nullGraph), ⟨1, 0, 0⟩, .ofGenerator offsets, none) ∧
      rotations Family.posted Random.listed 5 5
          [id, fun _ => none, fun _ => some [], fun _ => some [9]] begun =
        [⟨[.int 0, .int 2], some (.int 1)⟩, ⟨[.int 0, .int 2], some (.int 1)⟩,
          ⟨[.int 2], some (.int 0)⟩, ⟨[], some (.int 2)⟩] := by
  intro shuffle offsets begun
  obtain ⟨turns, fails, follows⟩ := shuffled_simulates_first Family.posted Random.listed 5 5
  have listed := turns .zero (.ofGenerator offsets) (some [0, 5, 9]) [0, 5, 9] (some [0, 5, 9]) rfl
  have failed := fails .zero (.ofGenerator offsets) none (.raised .nullGraph) none rfl
  refine ⟨?_, ?_, ?_, ?_⟩
  · exact listed.ends (.int 1) [.int 0, .int 2] rfl
  · exact listed.contactsOf (.int 1) [.int 0, .int 2] rfl
  · exact failed.1
  · rw [follows]
    rfl

end Separator

end CuttingPlanes
