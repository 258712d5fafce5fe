import CuttingPlanes.Proofs.Separator.Orderly

/-! Separators whose candidates are among some, and the histories that their calls leave. -/

namespace CuttingPlanes

variable {σ τ ρ γ μ : Type} {kept : σ → Prop} {among : γ → Prop} {bound : ℕ∞} {fuel : Nat}

/-- A computation that is never out of turns, and keeps what holds. -/
def Action.Steady {α : Type} (action : Action σ α) (kept : σ → Prop) : Prop :=
  ∀ state, kept state → Action.Ensures action state (· ≠ .unfinished) fun _ after => kept after

/-- A computation beside another state keeps what holds of that state as well. -/
theorem Action.Steady.beside {α : Type} {action : Action σ α} (steady : action.Steady kept)
    (other : τ → Prop) : action.onSecond.Steady fun pair : τ × σ => other pair.1 ∧ kept pair.2 := by
  rintro ⟨first, state⟩ ⟨left, right⟩
  exact Action.ensures_onSecond.2 ((steady state right).mono fun _ after held => ⟨left, held⟩)

/-- How a history has grown in a call: orderly, by some additions, and without a solve. -/
structure Happening.Grows (regards : μ → Bool) (among : γ → Prop)
    (before after : List (Happening γ μ)) (more : Nat) : Prop where
  orderly : Orderly regards among after
  added : (additions after).length = (additions before).length + more
  solved : solves after = solves before

namespace Separator

/-- A separator whose candidates are among some, with a bound on how many it looks at in a call. -/
structure Explores (separator : Separator σ γ μ) (kept : σ → Prop) (among : γ → Prop)
    (bound : ℕ∞) (fuel : Nat) : Prop where
  enumerates : ∀ state, kept state →
    Action.Ensures separator.family.enumerate state (·.Warranted fuel bound) fun source after =>
      source.Offers kept among bound ∧ kept after
  measures : ∀ candidate, among candidate → (separator.family.measure candidate).Steady kept
  commits : ∀ candidate, among candidate → (separator.family.commit candidate).Steady kept
  compares : ∀ exceeds, separator.search = .deepest exceeds →
    ∀ best measure, (exceeds best measure).Steady kept

/-- A candidate that may be chosen is among some, and has been called for. -/
def Eligible (regards : μ → Bool) (among : γ → Prop) (history : List (Happening γ μ))
    (found : Option γ) : Prop :=
  ∀ candidate ∈ found, among candidate ∧ Happening.CalledFor regards candidate history

/-- What is known at the stages of a scan within a bound. -/
def Stage.Bounded (regards : μ → Bool) (among : γ → Prop) (bound : ℕ∞)
    (history : List (Happening γ μ)) : Stage γ μ → Prop
  | .looking position best =>
      position ≤ bound ∧ Eligible regards among history (best.map Prod.fst)
  | .offered position best candidate =>
      ((position + 1 : Nat) ≤ bound ∧ among candidate) ∧
        Eligible regards among history (best.map Prod.fst)
  | .measured position best candidate measure =>
      ((position + 1 : Nat) ≤ bound ∧ among candidate) ∧
        Eligible regards among history (best.map Prod.fst) ∧
          (regards measure = true → Happening.CalledFor regards candidate history)
  | .chosen found => Eligible regards among history found

variable [Measure μ] {separator : Separator σ γ μ}

/-- A call that has failed has added at most one candidate. -/
def Strands (separator : Separator σ γ μ) (among : γ → Prop) (bound : ℕ∞) (fuel : Nat)
    (before : List (Happening γ μ)) (cause : Interrupt) (after : List (Happening γ μ)) : Prop :=
  cause.Warranted fuel bound ∧
    ∃ more ≤ 1, Happening.Grows separator.search.regards among before after more

namespace Explores

variable (explores : separator.Explores kept among bound fuel)

include explores

/-- A scan chooses only what it has called for. -/
theorem sweep {source : Source σ γ} (offers : source.Offers kept among bound)
    (before : List (Happening γ μ)) :
    separator.noted.Sweep source.onSecond fuel
      (fun stage state => (kept state.2 ∧
        Happening.Grows separator.search.regards among before state.1 0) ∧
          stage.Bounded separator.search.regards among bound state.1)
      fun cause state => separator.Strands among bound fuel before cause state.1 where
  produces := by
    rintro position best ⟨history, state⟩ - ⟨⟨held, grown⟩, within, eligible⟩
    refine Action.meets_onSecond.2 (((offers position state held).warranted fuel bound).meets ?_ ?_)
    · rintro found after ⟨offered, held⟩
      -- Nothing new is eligible before it has been measured.
      cases found with
      | none => exact ⟨⟨held, grown⟩, eligible⟩
      | some candidate =>
        obtain ⟨member, next⟩ := offered candidate rfl
        exact ⟨⟨held, grown⟩, ⟨next, member⟩, eligible⟩
    · exact fun cause _ warranted => ⟨warranted, 0, Nat.zero_le _, grown⟩
  measures := by
    rintro position best candidate ⟨history, state⟩ ⟨⟨held, grown⟩, ⟨next, member⟩, eligible⟩
    have steady := (explores.measures candidate member state held).warranted fuel bound
    refine meets_noted_measure.2 (steady.meets ?_ ?_)
    · intro measure after held
      -- The new measure calls for its candidate, and leaves the calls of before in place.
      refine ⟨⟨held, grown.orderly, by simp [grown.added], by simp [grown.solved]⟩,
        ⟨next, member⟩, fun other found => ?_, fun regarded => .inl ⟨rfl, regarded⟩⟩
      exact ⟨(eligible other found).1, .inr (eligible other found).2⟩
    · exact fun cause _ warranted => ⟨warranted, 0, Nat.zero_le _, grown⟩
  passes := by
    rintro position best candidate measure state ⟨still, ⟨next, -⟩, eligible, -⟩ -
    exact ⟨still, next, eligible⟩
  takes := by
    rintro first position best candidate measure state ⟨still, ⟨-, member⟩, -, called⟩ counts
    refine ⟨still, ?_⟩
    -- The measure that counts is the latest one, and it belongs to the candidate.
    rintro _ ⟨⟩
    exact ⟨member, called (by simpa [noted_search_eq_first first, Search.regards] using counts)⟩
  compares := by
    rintro exceeds deepest position best candidate measure ⟨history, state⟩
      ⟨⟨held, grown⟩, ⟨next, member⟩, eligible, called⟩ present
    obtain ⟨plain, search, replaces⟩ := exists_of_noted_search deepest
    have called := called (by simpa [search, Search.regards] using present)
    rw [replaces, Action.meets_onSecond]
    -- Whichever of the two is better has been called for.
    have steady : (Separator.replaces plain best measure).Steady kept := by
      cases best with
      | none => exact fun _ held => held
      | some best => exact explores.compares plain search best.2 measure
    refine ((steady state held).warranted fuel bound).meets (fun verdict after held => ?_) ?_
    · refine ⟨⟨held, grown⟩, next, ?_⟩
      cases verdict with
      | true =>
        rintro _ ⟨⟩
        exact ⟨member, called⟩
      | false => exact eligible
    · exact fun cause _ warranted => ⟨warranted, 0, Nat.zero_le _, grown⟩
  spent := by
    rintro best state ⟨⟨-, grown⟩, within, -⟩
    -- As many candidates as there were turns have been looked at.
    exact ⟨fun _ => within, 0, Nat.zero_le _, grown⟩

/-- A call adds one candidate that it has called for, or none. -/
theorem call_meets {state : σ} (held : kept state) (tally : Tally)
    {history : List (Happening γ μ)}
    (orderly : Happening.Orderly separator.search.regards among history) :
    Action.Meets (separator.noted.call fuel) (tally, history, state)
      (fun added after => kept after.2.2 ∧ Happening.Grows separator.search.regards among history
        after.2.1 (if added then 1 else 0))
      fun cause after => separator.Strands among bound fuel history cause after.2.1 := by
  refine separator.noted.call_meets
    (fun added after => kept after.2 ∧ Happening.Grows separator.search.regards among history
      after.1 (if added then 1 else 0))
    (fun found after => (kept after.2 ∧
      Happening.Grows separator.search.regards among history after.1 0) ∧
        Eligible separator.search.regards among after.1 found)
    (fun cause after => separator.Strands among bound fuel history cause after.1) ?_ ?_ ?_ tally
  · refine meets_noted_enumerate.2 ((explores.enumerates state held).meets ?_ ?_)
    · rintro source after ⟨offers, held⟩
      -- The scan begins with a history that nothing has been added to, and with nothing chosen.
      exact ⟨_, explores.sweep offers history, ⟨⟨held, orderly, rfl, rfl⟩,
        Nat.cast_zero.trans_le zero_le, nofun⟩, fun _ _ => id⟩
    · exact fun cause _ warranted => ⟨warranted, 0, Nat.zero_le _, orderly, rfl, rfl⟩
  · exact fun state rested => rested.1
  · rintro candidate ⟨past, state⟩ ⟨⟨held, grown⟩, eligible⟩
    obtain ⟨member, called⟩ := eligible candidate rfl
    -- The addition is noted behind the call for it, and counts even if the commit fails.
    have one : Happening.Grows separator.search.regards among history
        (.added candidate :: past) 1 :=
      ⟨⟨⟨member, called⟩, grown.orderly⟩, by simp [grown.added], by simp [grown.solved]⟩
    have steady := (explores.commits candidate member state held).warranted fuel bound
    refine meets_noted_commit.2 (steady.meets ?_ ?_)
    · exact fun _ after held => ⟨held, one⟩
    · exact fun cause _ warranted => ⟨warranted, 1, le_rfl, one⟩

end Explores

end Separator

/--
A policy over finitely many candidates, whose steps come to an end.

Any step may fail, the measures may change in any way, and a candidate may be produced repeatedly.
-/
structure Exploration (ρ σ γ μ : Type) where
  policy : Policy
  family : Family σ γ μ
  exceeds : μ → μ → Action σ Bool
  reorder : Source σ γ → Action σ (Source σ γ)
  draw : Random.Draw ρ
  fuel : Nat
  /-- What holds of the state all along. -/
  kept : σ → Prop
  /-- What holds of the generator all along. -/
  inUse : ρ → Prop
  candidates : Finset γ
  /-- How many candidates an enumeration produces at most. -/
  produced : ℕ∞
  /-- How many candidates a call looks at, and produces, at most. -/
  bound : ℕ∞
  produced_le : produced ≤ bound
  enumerates : ∀ state, kept state →
    Action.Ensures family.enumerate state (· ≠ .unfinished) fun source after =>
      source.Offers kept (· ∈ candidates) produced ∧ kept after
  measures : ∀ candidate ∈ candidates, (family.measure candidate).Steady kept
  commits : ∀ candidate ∈ candidates, (family.commit candidate).Steady kept
  compares : policy = .deepest → ∀ best measure, (exceeds best measure).Steady kept
  reorders : policy = .first → ∀ source, source.Offers kept (· ∈ candidates) produced →
    ∀ state, kept state → Action.Ensures (reorder source) state (· ≠ .unfinished)
      fun turned after => turned.Offers kept (· ∈ candidates) bound ∧ kept after
  serves : policy = .shuffled → draw.Serves (· ≠ .unfinished) inUse

namespace Exploration

variable (exploration : Exploration ρ σ γ μ)

/-- The separator that explores. -/
def separator : Separator (Rotation ρ × σ) γ μ :=
  .ofPolicy exploration.policy exploration.family exploration.exceeds exploration.reorder
    exploration.draw exploration.fuel

/-- What holds of the rotation all along. -/
def Ready (rotation : Rotation ρ) : Prop := exploration.inUse rotation.generator

/-- What holds of the rotation and the state all along. -/
def Stays (pair : Rotation ρ × σ) : Prop := exploration.Ready pair.1 ∧ exploration.kept pair.2

/-- Every policy takes its steps beside the rotation. -/
theorem explores :
    exploration.separator.Explores exploration.Stays (· ∈ exploration.candidates)
      exploration.bound exploration.fuel := by
  refine ⟨?_, fun candidate member => ?_, fun candidate member => ?_, ?_⟩
  · rintro ⟨rotation, state⟩ ⟨ready, held⟩
    have produced :=
      (exploration.enumerates state held).warranted exploration.fuel exploration.bound
    unfold separator
    cases policy : exploration.policy with
    | deepest =>
      simp only [Separator.ofPolicy, Separator.deepest, Separator.onSecond, Family.onSecond,
        Action.ensures_map, Action.ensures_onSecond]
      -- The candidates come as they are enumerated.
      refine produced.mono fun source after given => ⟨?_, ready, given.2⟩
      exact (given.1.mono exploration.produced_le).beside exploration.Ready
    | first =>
      simp only [Separator.ofPolicy, Separator.first, Separator.onSecond, Family.onSecond,
        Family.reordered, Action.ensures_map, Action.ensures_onSecond, Action.ensures_bind]
      -- Whatever the order makes of the candidates, it offers no others.
      refine produced.mono fun source after given => ?_
      have reordered := exploration.reorders policy source given.1 after given.2
      refine (reordered.warranted _ _).mono fun turned last kept => ?_
      exact ⟨kept.1.beside exploration.Ready, ready, kept.2⟩
    | shuffled =>
      simp only [Separator.ofPolicy, Separator.shuffled, Family.onSecond, Family.reordered,
        Action.ensures_bind, Action.ensures_map, Action.ensures_onSecond]
      refine produced.mono fun source after given => ?_
      -- All candidates are produced before the draw, and none is left to produce after it.
      have reordered := Rotation.reorder_ensures_of_offers exploration.fuel
        (exploration.serves policy) ready given.2 (given.1.beside (· = rotation)) exploration.Stays
      refine (reordered.weaken fun cause warranted spent => ?_).mono fun turned last kept => ?_
      · exact (warranted spent).trans exploration.produced_le
      · exact ⟨kept.1.mono exploration.produced_le, kept.2⟩
  · rw [separator, Separator.ofPolicy_measure]
    exact (exploration.measures candidate member).beside exploration.Ready
  · rw [separator, Separator.ofPolicy_commit]
    exact (exploration.commits candidate member).beside exploration.Ready
  · intro compared deepest
    obtain ⟨policy, rfl⟩ := Separator.deepest_of_ofPolicy _ _ deepest
    exact fun best measure => (exploration.compares policy best measure).beside exploration.Ready

/-- The search of a policy regards what the policy regards. -/
theorem regards_separator [Measure μ] :
    exploration.separator.search.regards = exploration.policy.regards :=
  Separator.regards_ofPolicy _ _

end Exploration

end CuttingPlanes
