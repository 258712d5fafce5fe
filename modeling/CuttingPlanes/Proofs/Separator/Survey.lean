import CuttingPlanes.Proofs.Separator.History

/-! What a scan learns of candidates whose measures stay as they are. -/

namespace CuttingPlanes.Separator

variable {σ ν γ μ : Type} {view : σ → ν} {kept : ν}

/-- What is known of a scan that has come to a position, with the best candidate so far. -/
structure Scanned (regards : μ → Bool) (worth : γ → μ) (order : List γ) (position : Nat)
    (best : Option (γ × μ)) : Prop where
  within : position ≤ order.length
  passed : best = none → ∀ candidate ∈ order.take position, regards (worth candidate) = false
  held : ∀ pair ∈ best, pair.1 ∈ order ∧ pair.2 = worth pair.1 ∧ regards (worth pair.1) = true

namespace Scanned

variable {regards : μ → Bool} {worth : γ → μ} {order : List γ} {position : Nat}
  {best : Option (γ × μ)} {candidate : γ}

theorem begin (regards : μ → Bool) (worth : γ → μ) (order : List γ) :
    Scanned regards worth order 0 none :=
  ⟨Nat.zero_le _, by simp, nofun⟩

/-- A position that has a candidate lies before the next one. -/
theorem succ_le (offered : order[position]? = some candidate) : position + 1 ≤ order.length :=
  (List.getElem?_eq_some_iff.1 offered).1

/-- A candidate that is not regarded is passed over. -/
theorem pass (scanned : Scanned regards worth order position best)
    (offered : order[position]? = some candidate) (unregarded : regards (worth candidate) = false) :
    Scanned regards worth order (position + 1) best := by
  refine ⟨succ_le offered, fun none other member => ?_, scanned.held⟩
  -- The candidates that have been passed are those of before and this one.
  rw [List.take_add_one, offered] at member
  rcases List.mem_append.1 member with before | this
  · exact scanned.passed none other before
  · rwa [List.mem_singleton.1 this]

/-- A candidate that is regarded takes the place of the best one, or leaves it there. -/
theorem compare (scanned : Scanned regards worth order position best)
    (offered : order[position]? = some candidate) (regarded : regards (worth candidate) = true)
    {verdict : Bool} (decided : best = none → verdict = true) :
    Scanned regards worth order (position + 1)
      (if verdict then some (candidate, worth candidate) else best) := by
  cases verdict with
  | true =>
    -- The new best one is the candidate with the measure that it has.
    refine ⟨succ_le offered, nofun, ?_⟩
    rintro _ ⟨⟩
    exact ⟨List.mem_of_getElem? offered, rfl, regarded⟩
  | false =>
    -- There is a best candidate already, since nothing else keeps its place.
    exact ⟨succ_le offered, fun none => (Bool.false_ne_true (decided none)).elim, scanned.held⟩

end Scanned

/-- What is known at the stages of a scan through some candidates. -/
def Stage.Known (regards : μ → Bool) (worth : γ → μ) (order : List γ) : Stage γ μ → Prop
  | .looking position best => Scanned regards worth order position best
  | .offered position best candidate =>
      Scanned regards worth order position best ∧ order[position]? = some candidate
  | .measured position best candidate measure =>
      Scanned regards worth order position best ∧ order[position]? = some candidate ∧
        measure = worth candidate
  | .chosen none => ∀ candidate ∈ order, regards (worth candidate) = false
  | .chosen (some candidate) => candidate ∈ order ∧ regards (worth candidate) = true

/-- A scan that has come to the end has chosen the best candidate. -/
theorem Scanned.known {regards : μ → Bool} {worth : γ → μ} {order : List γ} {position : Nat}
    {best : Option (γ × μ)} (scanned : Scanned regards worth order position best) :
    (Stage.afterNext position best order[position]?).Known regards worth order := by
  cases offered : order[position]? with
  | some candidate => exact ⟨scanned, offered⟩
  | none =>
    -- The end has been reached, so that all candidates have been passed.
    have all : order.take position = order :=
      List.take_of_length_le (List.getElem?_eq_none_iff.1 offered)
    cases best with
    | none => exact all ▸ scanned.passed rfl
    | some pair => exact ⟨(scanned.held pair rfl).1, (scanned.held pair rfl).2.2⟩

/-- What a separator does wherever a view of its state is as it was. -/
structure Surveys [Measure μ] (separator : Separator σ γ μ) (view : σ → ν) (kept : ν)
    (items : List γ) (worth : γ → μ) : Prop where
  measures : ∀ candidate ∈ items, ∀ state, view state = kept →
    Action.Ensures (separator.family.measure candidate) state (fun _ => False)
      fun measure after => measure = worth candidate ∧ view after = kept
  compares : ∀ exceeds, separator.search = .deepest exceeds → ∀ best ∈ items, ∀ candidate ∈ items,
    Measure.present (worth best) → Measure.present (worth candidate) →
      ∀ state, view state = kept →
        Action.Ensures (exceeds (worth best) (worth candidate)) state (fun _ => False)
          fun _ after => view after = kept

/-- A candidate has been committed in a state that was in view as it is known, with a result. -/
def Committed (family : Family σ γ μ) (view : σ → ν) (kept : ν) (candidate : γ)
    (result : Except Interrupt Unit) (after : σ) : Prop :=
  ∃ begun, view begun = kept ∧ (family.commit candidate).ends begun = (result, after)

/-- What an answer says: one regarded candidate has been added, or no candidate is regarded. -/
def Answered (regards : μ → Bool) (worth : γ → μ) (items before : List γ) (view : σ → ν)
    (kept : ν) : Bool → List (Happening γ μ) × σ → Prop
  | true, after => ∃ candidate ∈ items, regards (worth candidate) = true ∧
      Happening.additions after.1 = candidate :: before
  | false, after => view after.2 = kept ∧ ∀ candidate ∈ items, regards (worth candidate) = false

namespace Surveys

variable [Measure μ] {separator : Separator σ γ μ} {items : List γ} {worth : γ → μ}
  (surveys : separator.Surveys view kept items worth)

include surveys

/-- A scan learns of all candidates that it passes that none of them is regarded. -/
theorem sweep {order : List γ} (perm : order.Perm items) {source : Source σ γ}
    (yields : source.Yields view kept order) {turns : Nat}
    {failed : Interrupt → List (Happening γ μ) × σ → Prop}
    (short : turns ≤ items.length → ∀ state, failed .unfinished state) (before : List γ) :
    separator.noted.Sweep source.onSecond turns
      (fun stage state => (view state.2 = kept ∧ Happening.additions state.1 = before) ∧
        stage.Known separator.search.regards worth order)
      failed where
  produces := by
    rintro position best ⟨history, state⟩ - ⟨⟨same, added⟩, scanned⟩
    refine Action.meets_onSecond.2 ((yields position state same).meets ?_ fun _ _ => False.elim)
    rintro _ after ⟨rfl, kept⟩
    exact ⟨⟨kept, added⟩, scanned.known⟩
  measures := by
    rintro position best candidate ⟨history, state⟩ ⟨⟨same, added⟩, scanned, offered⟩
    have member := perm.mem_iff.1 (List.mem_of_getElem? offered)
    -- The measure is the one that is known, and asking for it cannot fail.
    refine meets_noted_measure.2
      ((surveys.measures candidate member state same).meets ?_ fun _ _ => False.elim)
    rintro _ after ⟨rfl, kept⟩
    exact ⟨⟨kept, added⟩, scanned, offered, rfl⟩
  passes := by
    rintro position best candidate _ state ⟨still, scanned, offered, rfl⟩ unregarded
    exact ⟨still, scanned.pass offered (regards_noted separator _ ▸ unregarded)⟩
  takes := by
    rintro first position best candidate _ state ⟨still, scanned, offered, rfl⟩ counts
    refine ⟨still, List.mem_of_getElem? offered, ?_⟩
    simpa [noted_search_eq_first first, Search.regards] using counts
  compares := by
    rintro exceeds deepest position best candidate _ ⟨history, state⟩
      ⟨⟨same, added⟩, scanned, offered, rfl⟩ present
    obtain ⟨plain, search, replaces⟩ := exists_of_noted_search deepest
    have regarded : separator.search.regards (worth candidate) = true := by
      simpa [search, Search.regards] using present
    rw [replaces, Action.meets_onSecond]
    -- Without a best candidate there is nothing to compare with.
    cases best with
    | none => exact ⟨⟨same, added⟩, scanned.compare offered regarded fun _ => rfl⟩
    | some best =>
      obtain ⟨held, known, violated⟩ := scanned.held best rfl
      have measured : Measure.present (worth best.1) := by
        simpa [search, Search.regards] using violated
      have compared := surveys.compares plain search best.1 (perm.mem_iff.1 held) candidate
        (perm.mem_iff.1 (List.mem_of_getElem? offered)) measured present state same
      rw [← known] at compared
      refine compared.meets (fun verdict after kept => ?_) fun _ _ => False.elim
      exact ⟨⟨kept, added⟩, scanned.compare offered regarded (by simp)⟩
  spent := by
    rintro best state ⟨-, scanned⟩
    -- The scan is out of turns only where there are at least as many candidates.
    exact short (perm.length_eq ▸ scanned.within) state

/-- One call commits one candidate that is regarded, or finds that there is none. -/
theorem call_commits {fuel : Nat} {state : σ} {allowed : Interrupt → Prop}
    (enumerates : Action.Ensures separator.family.enumerate state allowed fun source after =>
      (∃ order, source.Yields view kept order ∧ order.Perm items) ∧ view after = kept)
    (short : fuel ≤ items.length → allowed .unfinished) (tally : Tally)
    (history : List (Happening γ μ)) :
    Action.Meets (separator.noted.call fuel) (tally, history, state)
      (fun added after =>
        if added then ∃ candidate ∈ items, separator.search.regards (worth candidate) = true ∧
          Happening.additions after.2.1 = candidate :: Happening.additions history ∧
            Committed separator.family view kept candidate (.ok ()) after.2.2
        else view after.2.2 = kept ∧
          ∀ candidate ∈ items, separator.search.regards (worth candidate) = false)
      fun cause after => allowed cause ∨
        ∃ candidate ∈ items, separator.search.regards (worth candidate) = true ∧
          Committed separator.family view kept candidate (.error cause) after.2.2 := by
  refine separator.noted.call_meets
    (fun added after =>
      if added then ∃ candidate ∈ items, separator.search.regards (worth candidate) = true ∧
        Happening.additions after.1 = candidate :: Happening.additions history ∧
          Committed separator.family view kept candidate (.ok ()) after.2
      else view after.2 = kept ∧
        ∀ candidate ∈ items, separator.search.regards (worth candidate) = false)
    (fun found after => (view after.2 = kept ∧
      Happening.additions after.1 = Happening.additions history) ∧
        (Stage.chosen found).Known separator.search.regards worth items)
    (fun cause after => allowed cause ∨
      ∃ candidate ∈ items, separator.search.regards (worth candidate) = true ∧
        Committed separator.family view kept candidate (.error cause) after.2) ?_ ?_ ?_ tally
  · refine meets_noted_enumerate.2 (enumerates.meets ?_ fun cause _ => .inl)
    rintro source after ⟨⟨order, yields, perm⟩, same⟩
    refine ⟨_, surveys.sweep perm yields (fun long _ => .inl (short long)) _,
      ⟨⟨same, rfl⟩, Scanned.begin _ _ _⟩, ?_⟩
    -- What is known of the order is known of the candidates.
    rintro found last ⟨still, known⟩
    refine ⟨still, ?_⟩
    cases found with
    | none => exact fun candidate member => known candidate (perm.mem_iff.2 member)
    | some candidate => exact ⟨perm.mem_iff.1 known.1, known.2⟩
  · rintro state ⟨⟨same, -⟩, none⟩
    exact ⟨same, none⟩
  · rintro candidate ⟨past, state⟩ ⟨⟨same, added⟩, member, regarded⟩
    -- The commit is made in a state that is in view as it was, and it may fail.
    refine meets_noted_commit.2 ((Action.meets_ends _ _).imp ?_ ?_)
    · intro _ after ended
      exact ⟨candidate, member, regarded, congrArg _ added, state, same, ended⟩
    · intro cause after ended
      exact .inr ⟨candidate, member, regarded, state, same, ended⟩

/-- One call adds one candidate that is regarded, or says that there is none. -/
theorem call_meets {fuel : Nat} {state : σ} {allowed : Interrupt → Prop}
    (enumerates : Action.Ensures separator.family.enumerate state allowed fun source after =>
      (∃ order, source.Yields view kept order ∧ order.Perm items) ∧ view after = kept)
    (short : fuel ≤ items.length → allowed .unfinished) (tally : Tally)
    (history : List (Happening γ μ)) :
    Action.Meets (separator.noted.call fuel) (tally, history, state)
      (fun added after => Answered separator.search.regards worth items
        (Happening.additions history) view kept added after.2)
      fun cause _ => allowed cause ∨
        ∃ candidate ∈ items, separator.search.regards (worth candidate) = true := by
  refine (surveys.call_commits enumerates short tally history).imp ?_ ?_
  · rintro (_ | _) after called
    · exact called
    · obtain ⟨candidate, member, regarded, added, -⟩ := called
      exact ⟨candidate, member, regarded, added⟩
  · rintro cause after (refused | ⟨candidate, member, regarded, -⟩)
    · exact .inl refused
    · exact .inr ⟨candidate, member, regarded⟩

end Surveys

end CuttingPlanes.Separator
