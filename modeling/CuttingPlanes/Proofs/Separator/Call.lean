import CuttingPlanes.Proofs.Enumeration
import CuttingPlanes.Separator.Basic

/-! What a separator picks out of a list of candidates whose measures are known. -/

namespace CuttingPlanes

variable {σ τ ρ γ μ : Type} {allowed : Interrupt → Prop}

/-- The measures of some candidates are known and asking for them changes nothing. -/
def Family.Measures (family : Family σ γ μ) (state : σ) (allowed : Interrupt → Prop)
    (items : List γ) (worth : γ → μ) : Prop :=
  ∀ candidate ∈ items, Action.Ensures (family.measure candidate) state allowed
    fun measure after => measure = worth candidate ∧ after = state

/-- A comparison is known and making it changes nothing. -/
def Compares [Measure μ] (exceeds : μ → μ → Action σ Bool) (state : σ) (allowed : Interrupt → Prop)
    (beaten : μ → μ → Bool) : Prop :=
  ∀ best measure, Measure.present best → Measure.present measure →
    Action.Ensures (exceeds best measure) state allowed
      fun verdict after => verdict = beaten best measure ∧ after = state

/-- The better one of the best candidate so far and another one. -/
def better [Measure μ] (beaten : μ → μ → Bool) (worth : γ → μ) (best : Option (γ × μ))
    (candidate : γ) : Option (γ × μ) :=
  let measure := worth candidate
  if Measure.present measure then
    match best with
    | none => some (candidate, measure)
    | some (_, held) => if beaten held measure then some (candidate, measure) else best
  else best

section Better

variable [Measure μ] {beaten : μ → μ → Bool} {worth : γ → μ}

/-- There is a best candidate as soon as one has a measure. -/
theorem foldl_better_eq_none (items : List γ) (best : Option (γ × μ)) :
    items.foldl (better beaten worth) best = none ↔
      best = none ∧ ∀ candidate ∈ items, Measure.present (worth candidate) = false := by
  induction items generalizing best with
  | nil => simp
  | cons item rest ih =>
    -- One candidate with a measure is enough, since a best one is never given up.
    rw [List.foldl_cons, ih]
    cases present : Measure.present (worth item) with
    | false => simp [better, present]
    | true =>
      cases best with
      | none => simp [better, present]
      | some pair =>
        simp only [better, present, if_true]
        split <;> simp

/-- The best candidate is among those that have a measure. -/
theorem foldl_better_eq_some {items : List γ} {best : Option (γ × μ)} {candidate : γ} {held : μ}
    (found : items.foldl (better beaten worth) best = some (candidate, held)) :
    best = some (candidate, held) ∨
      candidate ∈ items ∧ held = worth candidate ∧ Measure.present (worth candidate) := by
  induction items generalizing best with
  | nil => exact .inl found
  | cons item rest ih =>
    rcases ih found with kept | ⟨member, rest⟩
    · -- Whoever is best after the first comparison was so before, or is the one compared.
      simp only [better] at kept
      split at kept
      · rename_i present
        have replaced : (item, worth item) = (candidate, held) ∨ best = some (candidate, held) := by
          cases best with
          | none => exact .inl (by simpa using kept)
          | some pair =>
            simp only at kept
            split at kept
            · exact .inl (by simpa using kept)
            · exact .inr kept
        rcases replaced with same | same
        · obtain ⟨rfl, rfl⟩ := Prod.mk.inj same
          exact .inr ⟨List.mem_cons_self, rfl, present⟩
        · exact .inl same
      · exact .inl kept
    · exact .inr ⟨List.mem_cons_of_mem item member, rest⟩

end Better

/-- Whether a search takes a measure for a violation. -/
def Search.regards [Measure μ] (search : Search σ μ) (measure : μ) : Bool :=
  match search with
  | .deepest _ => Measure.present measure
  | .first => Measure.countsTrue measure

namespace Separator

variable {separator : Separator σ γ μ} {candidates : Source σ γ} {items : List γ} {state : σ}
  {worth : γ → μ}

/-- Asking for a known measure counts the question. -/
theorem evaluate_ensures (measures : separator.family.Measures state allowed items worth)
    {candidate : γ} (member : candidate ∈ items) (tally : Tally) :
    Action.Ensures (separator.evaluate candidate) (tally, state) allowed fun measure after =>
      measure = worth candidate ∧ after = (tally.looked, state) := by
  simp only [evaluate, Tally.count, Action.ensures_bind, Action.ensures_modify,
    Action.ensures_onSecond]
  -- The question is counted before the family is asked.
  refine (measures candidate member).mono fun measure after known => ?_
  exact ⟨known.1, by rw [known.2]⟩

variable [Measure μ]

/-- The scan for the first violation stops at the first candidate whose measure counts as one. -/
theorem scanFirst_ensures (lists : candidates.Lists items)
    (measures : separator.family.Measures state allowed items worth) {fuel position : Nat}
    (within : position ≤ items.length)
    (enough : allowed .unfinished ∨ items.length < fuel + position) (tally : Tally) :
    Action.Ensures (separator.scanFirst candidates fuel position) (tally, state) allowed
      fun found after => after.2 = state ∧
        found = (items.drop position).find? fun candidate =>
          Measure.countsTrue (worth candidate) := by
  induction fuel generalizing position tally with
  | zero =>
    -- No turn is left, though a position at most at the end always asks for one.
    have spent : allowed .unfinished := enough.resolve_right (by omega)
    simpa [scanFirst] using spent
  | succ fuel ih =>
    simp only [scanFirst, lists position, Action.onSecond_pure, Action.ensures_bind,
      Action.ensures_pure]
    rcases Nat.lt_or_ge position items.length with inside | behind
    · have rest := ih inside (enough.imp_right (by omega)) tally.looked
      simp only [List.getElem?_eq_getElem inside, Action.ensures_bind]
      rw [List.drop_eq_getElem_cons inside]
      refine (evaluate_ensures measures (List.getElem_mem inside) tally).mono ?_
      rintro measure after ⟨rfl, rfl⟩
      -- The scan stops here, or passes on to the rest with one more look counted.
      cases counts : Measure.countsTrue (worth items[position]) with
      | true => exact ⟨rfl, by simp only [List.find?_cons, counts]⟩
      | false =>
        simpa only [List.find?_cons, counts, Bool.false_eq_true, if_false] using rest
    · simp [List.getElem?_eq_none behind, List.drop_eq_nil_of_le behind]

/-- What takes the place of the best candidate so far is the better one of both. -/
theorem replaces_ensures {exceeds : μ → μ → Action σ Bool} {beaten : μ → μ → Bool}
    (compares : Compares exceeds state allowed beaten) {best : Option (γ × μ)}
    (known : ∀ pair ∈ best, Measure.present pair.2) {candidate : γ}
    (present : Measure.present (worth candidate)) :
    Action.Ensures (replaces exceeds best (worth candidate)) state allowed fun verdict after =>
      after = state ∧ better beaten worth best candidate =
        if verdict then some (candidate, worth candidate) else best := by
  -- Without a best candidate any measure takes its place.
  cases best with
  | none => simp [replaces, better, present]
  | some pair =>
    refine (compares pair.2 (worth candidate) (known pair rfl) present).mono ?_
    rintro verdict after ⟨rfl, rfl⟩
    exact ⟨rfl, by simp [better, present]⟩

/-- The better one of candidates with measures has a measure. -/
theorem present_of_better {beaten : μ → μ → Bool} {best : Option (γ × μ)}
    (known : ∀ pair ∈ best, Measure.present pair.2) (candidate : γ) :
    ∀ pair ∈ better beaten worth best candidate, Measure.present pair.2 := by
  -- One comparison is a comparison of a list with one member.
  rintro ⟨other, held⟩ found
  have picked : [candidate].foldl (better beaten worth) best = some (other, held) := found
  rcases foldl_better_eq_some picked with kept | ⟨-, rfl, present⟩
  · exact known _ kept
  · exact present

/-- The scan for the greatest violation keeps the best candidate met so far. -/
theorem scanDeepest_ensures {exceeds : μ → μ → Action σ Bool} {beaten : μ → μ → Bool}
    (lists : candidates.Lists items)
    (measures : separator.family.Measures state allowed items worth)
    (compares : Compares exceeds state allowed beaten) {fuel position : Nat}
    (within : position ≤ items.length)
    (enough : allowed .unfinished ∨ items.length < fuel + position) (tally : Tally)
    {best : Option (γ × μ)} (known : ∀ pair ∈ best, Measure.present pair.2) :
    Action.Ensures (separator.scanDeepest exceeds candidates fuel position best) (tally, state)
      allowed fun found after => after.2 = state ∧
        found = ((items.drop position).foldl (better beaten worth) best).map Prod.fst := by
  induction fuel generalizing position tally best with
  | zero =>
    have spent : allowed .unfinished := enough.resolve_right (by omega)
    simpa [scanDeepest] using spent
  | succ fuel ih =>
    simp only [scanDeepest, lists position, Action.onSecond_pure, Action.ensures_bind,
      Action.ensures_pure]
    rcases Nat.lt_or_ge position items.length with inside | behind
    · -- Whoever is best after this candidate has a measure again.
      have next : ∀ pair ∈ better beaten worth best items[position], Measure.present pair.2 :=
        present_of_better known items[position]
      have goOn := ih inside (enough.imp_right (by omega)) tally.looked next
      simp only [List.getElem?_eq_getElem inside, Action.ensures_bind]
      rw [List.drop_eq_getElem_cons inside, List.foldl_cons]
      refine (evaluate_ensures measures (List.getElem_mem inside) tally).mono ?_
      rintro measure after ⟨rfl, rfl⟩
      -- A candidate without a measure is passed over without a comparison.
      cases present : Measure.present (worth items[position]) with
      | false => simpa [better, present] using goOn
      | true =>
        simp only [if_true, Action.ensures_bind, Action.ensures_onSecond]
        refine (replaces_ensures compares known present).mono ?_
        rintro verdict after ⟨rfl, same⟩
        rw [same] at goOn ⊢
        cases verdict <;> simpa using goOn
    · simp [List.getElem?_eq_none behind, List.drop_eq_nil_of_le behind]

/-- What is known of a separator in the states that it keeps while it looks for a candidate. -/
structure Reads (separator : Separator σ γ μ) (kept : σ → Prop) (allowed : Interrupt → Prop)
    (items : List γ) (worth : γ → μ) (beaten : μ → μ → Bool) : Prop where
  enumerates : ∀ state, kept state → Action.Ensures separator.family.enumerate state allowed
    fun source after => (∃ order, source.Lists order ∧ order.Perm items) ∧ kept after
  measures : ∀ state, kept state → separator.family.Measures state allowed items worth
  compares : ∀ exceeds, separator.search = .deepest exceeds → ∀ state, kept state →
    Compares exceeds state allowed beaten

variable {kept : σ → Prop} {beaten : μ → μ → Bool}

/-- A search finds a violated candidate if there is one. -/
theorem Reads.select_ensures (reads : separator.Reads kept allowed items worth beaten)
    (holds : kept state) {fuel : Nat} (enough : allowed .unfinished ∨ items.length < fuel)
    (tally : Tally) :
    Action.Ensures (separator.select fuel) (tally, state) allowed fun found after =>
      kept after.2 ∧
        match found with
        | some candidate => candidate ∈ items ∧ separator.search.regards (worth candidate)
        | none => ∀ candidate ∈ items, separator.search.regards (worth candidate) = false := by
  simp only [select, Action.ensures_bind, Action.ensures_onSecond]
  refine (reads.enumerates state holds).mono ?_
  rintro source after ⟨⟨order, lists, perm⟩, holds⟩
  -- The order of the candidates does not matter for what is known of each.
  have measures : separator.family.Measures after allowed order worth := fun candidate member =>
    reads.measures after holds candidate (perm.mem_iff.1 member)
  -- A turned list is as long as the list.
  have enough : allowed .unfinished ∨ order.length < fuel + 0 := by
    rwa [perm.length_eq]
  cases search : separator.search with
  | deepest exceeds =>
    have compares := reads.compares exceeds search after holds
    refine (scanDeepest_ensures lists measures compares (Nat.zero_le _) enough tally
      (by simp)).mono ?_
    rintro found last ⟨rfl, rfl⟩
    refine ⟨holds, ?_⟩
    rw [List.drop_zero]
    -- The best of all is none only if none has a measure.
    cases best : order.foldl (better beaten worth) none with
    | none =>
      intro candidate member
      exact ((foldl_better_eq_none order none).1 best).2 candidate (perm.mem_iff.2 member)
    | some pair =>
      rcases foldl_better_eq_some best with old | ⟨member, -, present⟩
      · cases old
      · exact ⟨perm.mem_iff.1 member, present⟩
  | first =>
    refine (scanFirst_ensures lists measures (Nat.zero_le _) enough tally).mono ?_
    rintro found last ⟨rfl, rfl⟩
    refine ⟨holds, ?_⟩
    rw [List.drop_zero]
    -- The first that counts is none only if none counts.
    cases first : order.find? fun candidate => Measure.countsTrue (worth candidate) with
    | none =>
      intro candidate member
      simpa [Search.regards] using List.find?_eq_none.1 first candidate (perm.mem_iff.2 member)
    | some candidate =>
      have counts := List.find?_some first
      exact ⟨perm.mem_iff.1 (List.mem_of_find?_eq_some first), by simpa [Search.regards]⟩

/-- One call commits a violated candidate and says so, or finds that there is none. -/
theorem Reads.call_ensures (reads : separator.Reads kept allowed items worth beaten)
    (holds : kept state) {fuel : Nat} (enough : allowed .unfinished ∨ items.length < fuel)
    {committed : γ → σ → Prop}
    (commits : ∀ candidate ∈ items, separator.search.regards (worth candidate) →
      ∀ state, kept state → Action.Ensures (separator.family.commit candidate) state allowed
        fun _ after => committed candidate after)
    (tally : Tally) :
    Action.Ensures (separator.call fuel) (tally, state) allowed fun added after =>
      if added then
        ∃ candidate ∈ items, separator.search.regards (worth candidate) ∧
          committed candidate after.2
      else kept after.2 ∧
        ∀ candidate ∈ items, separator.search.regards (worth candidate) = false := by
  -- The call counts itself, looks, and commits what it has found.
  simp only [call, Tally.count, Action.ensures_bind, Action.ensures_modify]
  refine (reads.select_ensures holds enough tally.called).mono ?_
  rintro found ⟨counted, after⟩ ⟨holds, picked⟩
  cases found with
  | none => exact ⟨holds, picked⟩
  | some candidate =>
    simp only [Action.ensures_bind, Action.ensures_report, Action.ensures_onSecond,
      Action.ensures_modify, Action.ensures_pure, if_true]
    refine (commits candidate picked.1 picked.2 after holds).mono fun _ last done => ?_
    exact ⟨candidate, picked.1, picked.2, done⟩

end Separator

/-- Whether a policy takes a measure for a violation. -/
def Policy.regards [Measure μ] (policy : Policy) (measure : μ) : Bool :=
  match policy with
  | .deepest => Measure.present measure
  | _ => Measure.countsTrue measure

namespace Separator

variable [Measure μ] {family : Family σ γ μ} {exceeds : μ → μ → Action σ Bool}
  {draw : Random.Draw ρ} {inUse : ρ → Prop} {items : List γ} {worth : γ → μ}
  {beaten : μ → μ → Bool} {state : σ}

section OfPolicy

variable (policy : Policy) (reorder : Source σ γ → Action σ (Source σ γ)) {fuel : Nat}

/-- The search of a policy regards what the policy regards. -/
theorem regards_ofPolicy :
    (ofPolicy policy family exceeds reorder draw fuel).search.regards = policy.regards := by
  cases policy <;> rfl

omit [Measure μ] in
/-- Every policy measures beside the rotation. -/
theorem ofPolicy_measure (candidate : γ) :
    (ofPolicy policy family exceeds reorder draw fuel).family.measure candidate =
      (family.measure candidate).onSecond := by
  cases policy <;> rfl

omit [Measure μ] in
/-- Every policy commits beside the rotation. -/
theorem ofPolicy_commit (candidate : γ) :
    (ofPolicy policy family exceeds reorder draw fuel).family.commit candidate =
      (family.commit candidate).onSecond := by
  cases policy <;> rfl

omit [Measure μ] in
/-- Only the deepest policy compares at all, and it does so beside the rotation. -/
theorem deepest_of_ofPolicy {compared : μ → μ → Action (Rotation ρ × σ) Bool}
    (search : (ofPolicy policy family exceeds reorder draw fuel).search = .deepest compared) :
    policy = .deepest ∧ compared = fun best measure => (exceeds best measure).onSecond := by
  cases policy with
  | deepest => exact ⟨rfl, (Search.deepest.inj search).symm⟩
  | first => cases search
  | shuffled => cases search

end OfPolicy

/-- The states in which a separator of a policy looks for a candidate. -/
def Ready (policy : Policy) (inUse : ρ → Prop) (state : σ) (current : Rotation ρ × σ) : Prop :=
  current.2 = state ∧ (policy = .shuffled → inUse current.1.generator)

/-- Every policy looks through the whole family and measures it where it is. -/
theorem reads_ofPolicy (policy : Policy)
    (enumerates : Action.Ensures family.enumerate state allowed fun source after =>
      source.Lists items ∧ after = state)
    (measures : family.Measures state allowed items worth)
    (compares : Compares exceeds state allowed beaten)
    (serves : policy = .shuffled → draw.Serves allowed inUse) {fuel : Nat}
    (enough : allowed .unfinished ∨ items.length < fuel) :
    (ofPolicy policy family exceeds pure draw fuel).Reads (Ready policy inUse state) allowed items
      worth beaten := by
  -- A family on a part of the state is enumerated and measured there.
  have produced : ∀ rotation : Rotation ρ, Action.Ensures
      (family.onSecond : Family (Rotation ρ × σ) γ μ).enumerate (rotation, state) allowed
      fun source after => source.Lists items ∧ after = (rotation, state) := by
    intro rotation
    simp only [Family.onSecond, Action.ensures_map, Action.ensures_onSecond]
    exact enumerates.mono fun source after made => ⟨made.1.onSecond, by rw [made.2]⟩
  have measured : ∀ rotation : Rotation ρ,
      (family.onSecond : Family (Rotation ρ × σ) γ μ).Measures (rotation, state) allowed items
        worth := by
    intro rotation candidate member
    simp only [Family.onSecond, Action.ensures_onSecond]
    exact (measures candidate member).mono fun measure after known => ⟨known.1, by rw [known.2]⟩
  -- The deepest and the first look where the family is, a shuffled one at a list made of it.
  cases policy with
  | deepest =>
    refine ⟨?_, ?_, ?_⟩
    · rintro ⟨rotation, _⟩ ⟨rfl, ready⟩
      refine (produced rotation).mono ?_
      rintro source after ⟨lists, rfl⟩
      exact ⟨⟨items, lists, .refl _⟩, rfl, ready⟩
    · rintro ⟨rotation, _⟩ ⟨rfl, -⟩
      exact measured rotation
    · rintro exceeds' same ⟨rotation, _⟩ ⟨rfl, -⟩
      cases same
      -- A comparison leaves the rotation beside it alone.
      intro best measure known present
      rw [Action.ensures_onSecond]
      exact (compares best measure known present).mono fun verdict after made =>
        ⟨made.1, by rw [made.2]⟩
  | first =>
    -- Handing a source on unchanged is no reordering.
    have same : (ofPolicy .first family exceeds pure draw fuel).family = family.onSecond := by
      simp [ofPolicy, first, onSecond, Family.reordered]
    refine ⟨?_, ?_, ?_⟩
    · rintro ⟨rotation, _⟩ ⟨rfl, ready⟩
      rw [same]
      refine (produced rotation).mono ?_
      rintro source after ⟨lists, rfl⟩
      exact ⟨⟨items, lists, .refl _⟩, rfl, ready⟩
    · rintro ⟨rotation, _⟩ ⟨rfl, -⟩
      rw [same]
      exact measured rotation
    · rintro exceeds' search
      cases search
  | shuffled =>
    refine ⟨?_, ?_, ?_⟩
    · rintro ⟨rotation, _⟩ ⟨rfl, ready⟩
      simp only [ofPolicy, shuffled, Family.reordered, Action.ensures_bind]
      refine (produced rotation).mono ?_
      rintro source after ⟨lists, rfl⟩
      -- The list is turned by a draw, which is why the draws have to serve.
      refine (Rotation.reorder_ensures (serves rfl) (ready rfl) lists enough).mono ?_
      rintro turned last ⟨order, used, same⟩
      exact ⟨order, same, fun _ => used⟩
    · rintro ⟨rotation, _⟩ ⟨rfl, -⟩
      exact measured rotation
    · rintro exceeds' search
      cases search

/-- One call of a policy commits a violated candidate and says so, or finds that there is none. -/
theorem ofPolicy_call_ensures (policy : Policy)
    (enumerates : Action.Ensures family.enumerate state allowed fun source after =>
      source.Lists items ∧ after = state)
    (measures : family.Measures state allowed items worth)
    (compares : Compares exceeds state allowed beaten)
    (serves : policy = .shuffled → draw.Serves allowed inUse) {committed : γ → σ → Prop}
    (commits : ∀ candidate ∈ items, policy.regards (worth candidate) →
      Action.Ensures (family.commit candidate) state allowed fun _ after =>
        committed candidate after) {fuel : Nat}
    (enough : allowed .unfinished ∨ items.length < fuel) (tally : Tally) {rotation : Rotation ρ}
    (ready : policy = .shuffled → inUse rotation.generator) :
    Action.Ensures ((ofPolicy policy family exceeds pure draw fuel).call fuel)
      (tally, rotation, state) allowed fun added after =>
        (policy = .shuffled → inUse after.2.1.generator) ∧
          if added then
            ∃ candidate ∈ items, policy.regards (worth candidate) ∧ committed candidate after.2.2
          else after.2.2 = state ∧
            ∀ candidate ∈ items, policy.regards (worth candidate) = false := by
  have reads := reads_ofPolicy policy enumerates measures compares serves enough
  have holds : Ready policy inUse state (rotation, state) := ⟨rfl, ready⟩
  -- A commit changes the part of the state behind the rotation.
  have committing : ∀ candidate ∈ items,
      (ofPolicy policy family exceeds pure draw fuel).search.regards (worth candidate) →
      ∀ current, Ready policy inUse state current →
        Action.Ensures ((ofPolicy policy family exceeds pure draw fuel).family.commit candidate)
          current allowed fun _ after =>
            (policy = .shuffled → inUse after.1.generator) ∧ committed candidate after.2 := by
    rintro candidate member violated ⟨current, _⟩ ⟨rfl, used⟩
    rw [ofPolicy_commit, Action.ensures_onSecond]
    rw [regards_ofPolicy] at violated
    exact (commits candidate member violated).mono fun _ after done => ⟨used, done⟩
  refine (reads.call_ensures holds enough committing tally).mono fun added after called => ?_
  simp only [regards_ofPolicy] at called
  cases added with
  | true =>
    obtain ⟨candidate, member, violated, used, done⟩ := called
    exact ⟨used, candidate, member, violated, done⟩
  | false =>
    obtain ⟨⟨same, used⟩, none⟩ := called
    exact ⟨used, same, none⟩

end Separator

end CuttingPlanes
