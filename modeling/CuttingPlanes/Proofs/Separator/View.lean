import CuttingPlanes.Proofs.View
import CuttingPlanes.Separator.Basic

/-! Separators that do, seen through a view of their state, what others do. -/

namespace CuttingPlanes

variable {σ τ υ ρ γ μ : Type} {view : τ → σ}

/-- A family shows another one when its steps do, and both name their candidates alike. -/
structure Family.Shows (view : τ → σ) (shown : Family τ γ μ) (family : Family σ γ μ) : Prop where
  enumerate : Action.Shows view (Source.Shows view) shown.enumerate family.enumerate
  measure candidate : Action.Shows view Eq (shown.measure candidate) (family.measure candidate)
  commit candidate : Action.Shows view Eq (shown.commit candidate) (family.commit candidate)
  describe : shown.describe = family.describe

/-- A search shows another one when it looks as far and compares in the same way. -/
inductive Search.Shows (view : τ → σ) : Search τ μ → Search σ μ → Prop
  | deepest {shown : μ → μ → Action τ Bool} {exceeds : μ → μ → Action σ Bool}
      (compares : ∀ best measure,
        Action.Shows view Eq (shown best measure) (exceeds best measure)) :
      Shows view (.deepest shown) (.deepest exceeds)
  | first : Shows view .first .first

namespace Family

variable {shown : Family τ γ μ} {family : Family σ γ μ}

theorem Shows.onSecond (shows : Shows view shown family) :
    Shows (Prod.map (id : υ → υ) view) shown.onSecond family.onSecond where
  enumerate := shows.enumerate.onSecond.bind fun _ _ same => Action.shows_pure same.onSecond
  measure candidate := (shows.measure candidate).onSecond
  commit candidate := (shows.commit candidate).onSecond
  describe := shows.describe

theorem Shows.reordered (shows : Shows view shown family)
    {turned : Source τ γ → Action τ (Source τ γ)} {reorder : Source σ γ → Action σ (Source σ γ)}
    (reorders : ∀ left right, Source.Shows view left right →
      Action.Shows view (Source.Shows view) (turned left) (reorder right)) :
    Shows view (shown.reordered turned) (family.reordered reorder) where
  enumerate := shows.enumerate.bind reorders
  measure := shows.measure
  commit := shows.commit
  describe := shows.describe

end Family

namespace Separator

variable {shown : Separator τ γ μ} {separator : Separator σ γ μ}

/-- A separator shows another one of the same policy when its parts do. -/
structure Shows (view : τ → σ) (shown : Separator τ γ μ) (separator : Separator σ γ μ) :
    Prop where
  policy : shown.policy = separator.policy
  family : shown.family.Shows view separator.family
  search : shown.search.Shows view separator.search

/-- A separator on the second part of a state shows what the separator does there. -/
theorem shows_snd (separator : Separator σ γ μ) :
    (separator.onSecond : Separator (υ × σ) γ μ).Shows Prod.snd separator where
  policy := rfl
  family :=
    { enumerate := by
        rw [← bind_pure separator.family.enumerate]
        refine (Action.shows_snd separator.family.enumerate).bind fun left right same => ?_
        subst same
        exact Action.shows_pure fun position => Action.shows_snd _
      measure := fun candidate => Action.shows_snd _
      commit := fun candidate => Action.shows_snd _
      describe := rfl }
  search := by
    show Search.Shows Prod.snd separator.onSecond.search separator.search
    unfold onSecond
    -- Only one of the two searches compares anything.
    cases separator.search with
    | deepest exceeds => exact .deepest fun best measure => Action.shows_snd _
    | first => exact .first

/-- The separator of a policy shows as its family does. -/
theorem shows_ofPolicy (policy : Policy) {shown : Family τ γ μ} {family : Family σ γ μ}
    (shows : shown.Shows view family) {larger : μ → μ → Action τ Bool}
    {exceeds : μ → μ → Action σ Bool}
    (compares : ∀ best measure,
      Action.Shows view Eq (larger best measure) (exceeds best measure))
    {turned : Source τ γ → Action τ (Source τ γ)} {reorder : Source σ γ → Action σ (Source σ γ)}
    (reorders : ∀ left right, Source.Shows view left right →
      Action.Shows view (Source.Shows view) (turned left) (reorder right))
    (draw : Random.Draw ρ) (fuel : Nat) :
    Shows (Prod.map id view) (ofPolicy policy shown larger turned draw fuel)
      (ofPolicy policy family exceeds reorder draw fuel) := by
  cases policy with
  | deepest => exact ⟨rfl, shows.onSecond, .deepest fun best measure =>
      (compares best measure).onSecond⟩
  | first => exact ⟨rfl, (shows.reordered reorders).onSecond, .first⟩
  | shuffled =>
    -- The draws change a part that the view leaves alone.
    exact ⟨rfl, shows.onSecond.reordered fun left right same =>
      Rotation.shows_reorder draw fuel same, .first⟩

theorem shows_count (change : Tally → Tally) :
    Action.Shows (Prod.map id view) Eq (Tally.count change) (Tally.count change) :=
  Action.shows_modify fun _ => rfl

theorem Shows.evaluate (shows : shown.Shows view separator) (candidate : γ) :
    Action.Shows (Prod.map id view) Eq (shown.evaluate candidate) (separator.evaluate candidate) :=
  (shows_count _).andThen fun _ => (shows.family.measure candidate).onSecond

theorem shows_replaces {larger : μ → μ → Action τ Bool} {exceeds : μ → μ → Action σ Bool}
    (compares : ∀ best measure,
      Action.Shows view Eq (larger best measure) (exceeds best measure))
    (best : Option (γ × μ)) (measure : μ) :
    Action.Shows view Eq (replaces larger best measure) (replaces exceeds best measure) := by
  -- Without a best candidate nothing is compared.
  cases best with
  | none => exact Action.shows_pure rfl
  | some best => exact compares best.2 measure

variable [Measure μ]

/-- Both scans for a first violation look at the same candidates. -/
theorem Shows.scanFirst (shows : shown.Shows view separator) {left : Source τ γ}
    {right : Source σ γ} (same : left.Shows view right) (fuel position : Nat) :
    Action.Shows (Prod.map id view) Eq (shown.scanFirst left fuel position)
      (separator.scanFirst right fuel position) := by
  induction fuel generalizing position with
  | zero => exact Action.shows_unfinished
  | succ fuel ih =>
    refine (same position).onSecond.andThen fun found => ?_
    cases found with
    | none => exact Action.shows_pure rfl
    | some candidate =>
      refine (shows.evaluate candidate).andThen fun measure => ?_
      -- The measure says to both whether to go on.
      by_cases violated : Measure.countsTrue measure = true
      · simpa [violated] using Action.shows_pure rfl
      · simpa [violated] using ih (position + 1)

/-- Both scans for the greatest measure keep the same best candidate. -/
theorem Shows.scanDeepest (shows : shown.Shows view separator) {larger : μ → μ → Action τ Bool}
    {exceeds : μ → μ → Action σ Bool}
    (compares : ∀ best measure,
      Action.Shows view Eq (larger best measure) (exceeds best measure))
    {left : Source τ γ} {right : Source σ γ} (same : left.Shows view right) (fuel position : Nat)
    (best : Option (γ × μ)) :
    Action.Shows (Prod.map id view) Eq (shown.scanDeepest larger left fuel position best)
      (separator.scanDeepest exceeds right fuel position best) := by
  induction fuel generalizing position best with
  | zero => exact Action.shows_unfinished
  | succ fuel ih =>
    refine (same position).onSecond.andThen fun found => ?_
    cases found with
    | none => exact Action.shows_pure rfl
    | some candidate =>
      refine (shows.evaluate candidate).andThen fun measure => ?_
      -- Only a measure that is there is compared, with the same best one on both sides.
      by_cases present : Measure.present measure = true
      · simp only [present, if_true]
        refine (shows_replaces compares best measure).onSecond.andThen fun replaced => ?_
        cases replaced with
        | true => exact ih (position + 1) (some (candidate, measure))
        | false => exact ih (position + 1) best
      · simpa [present] using ih (position + 1) best

theorem Shows.select (shows : shown.Shows view separator) (fuel : Nat) :
    Action.Shows (Prod.map id view) Eq (shown.select fuel) (separator.select fuel) := by
  -- Both enumerate members that are alike, and then search them in the same way.
  refine shows.family.enumerate.onSecond.bind fun left right same => ?_
  have looks := shows.search
  generalize shown.search = searched, separator.search = search at looks ⊢
  cases looks with
  | deepest compares => exact shows.scanDeepest compares same fuel 0 none
  | first => exact shows.scanFirst same fuel 0

/-- A call shows the call of the other separator. -/
theorem Shows.call (shows : shown.Shows view separator) (fuel : Nat) :
    Action.Shows (Prod.map id view) Eq (shown.call fuel) (separator.call fuel) := by
  -- Both report under the same name and in the same words.
  have noted : shown.note = separator.note := funext fun message => by
    simp only [note, shows.policy]
  rw [Separator.call, Separator.call, noted, shows.family.describe]
  refine (shows_count _).andThen fun _ => (shows.select fuel).andThen fun found => ?_
  cases found with
  | none => exact (Action.shows_report _).andThen fun _ => Action.shows_pure rfl
  | some candidate =>
    refine (Action.shows_report _).andThen fun _ => ?_
    refine (shows.family.commit candidate).onSecond.andThen fun _ => ?_
    exact (shows_count _).andThen fun _ => Action.shows_pure rfl

end Separator

end CuttingPlanes
