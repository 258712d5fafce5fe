import CuttingPlanes.Proofs.Separator.History
import CuttingPlanes.Proofs.Separator.Ranking

/-! Scans through candidates that are produced and measured in a known order, step for step. -/

namespace CuttingPlanes

variable {σ ν γ μ : Type}

/-- As many measures more asked for. -/
def Tally.lookedAt (count : Nat) (tally : Tally) : Tally :=
  { tally with evaluated := tally.evaluated + count }

@[simp] theorem Tally.lookedAt_zero (tally : Tally) : tally.lookedAt 0 = tally := rfl

theorem Tally.lookedAt_looked (count : Nat) (tally : Tally) :
    tally.looked.lookedAt count = tally.lookedAt (count + 1) := by
  simp [lookedAt, looked, Nat.add_assoc, Nat.add_comm 1]

/-- The measures of some entries, noted one after another; the latest comes first. -/
def Happening.looks (entries : List (γ × μ)) : List (Happening γ μ) :=
  (entries.map fun entry => .measured entry.1 entry.2).reverse

@[simp] theorem Happening.looks_append_singleton (entries : List (γ × μ)) (entry : γ × μ) :
    looks (entries ++ [entry]) = .measured entry.1 entry.2 :: looks entries := by
  simp [looks]

/-- Nothing is added where measures are asked for. -/
@[simp] theorem Happening.additions_looks_append (entries : List (γ × μ))
    (history : List (Happening γ μ)) :
    additions (looks entries ++ history) = additions history := by
  have none : (looks entries).filterMap addition? = [] := by
    simp [looks, addition?, List.filterMap_eq_nil_iff]
  rw [additions, List.filterMap_append, none, List.nil_append, additions]

/--
Candidates are produced and given measures one after another, while a view of the state moves on.

Each candidate is measured before the next one is asked for.
-/
def Family.Encounters (family : Family σ γ μ) (source : Source σ γ) (view : σ → ν)
    (kept : Nat → ν) (entries : List (γ × μ)) : Prop :=
  ∀ position entry, entries[position]? = some entry → ∀ state, view state = kept position →
    Action.Ensures (source.next position) state (fun _ => False) fun found produced =>
      found = some entry.1 ∧
        Action.Ensures (family.measure entry.1) produced (fun _ => False) fun measure after =>
          measure = entry.2 ∧ view after = kept (position + 1)

/-- What is encountered begins with what comes first of it. -/
theorem Family.Encounters.of_append {family : Family σ γ μ} {source : Source σ γ} {view : σ → ν}
    {kept : Nat → ν} {entries more : List (γ × μ)}
    (encounters : family.Encounters source view kept (entries ++ more)) :
    family.Encounters source view kept entries := by
  intro position entry listed
  obtain ⟨inside, -⟩ := List.getElem?_eq_some_iff.1 listed
  exact encounters position entry (by rwa [List.getElem?_append_left inside])

/-- Asking a source at a position has a known result, which may be a failure. -/
def Source.GivesAt (source : Source σ γ) (view : σ → ν) (kept : Nat → ν) (position : Nat)
    (result : Except Interrupt (Option γ)) : Prop :=
  ∀ state, view state = kept position → Action.Meets (source.next position) state
    (fun found after => result = .ok found ∧ view after = kept (position + 1))
    fun cause after => result = .error cause ∧ view after = kept (position + 1)

/-- From a state on, a family comes upon some entries, by a source of which more may be known. -/
def Family.Faces (family : Family σ γ μ) (view : σ → ν) (kept : Nat → ν) (state : σ)
    (entries : List (γ × μ)) (behind : Source σ γ → Prop) : Prop :=
  Action.Ensures family.enumerate state (fun _ => False) fun source after =>
    family.Encounters source view kept entries ∧ behind source ∧ view after = kept 0

/-- What a family comes upon begins with what comes first of it. -/
theorem Family.Faces.of_append {family : Family σ γ μ} {view : σ → ν} {kept : Nat → ν} {state : σ}
    {entries more : List (γ × μ)} {behind : Source σ γ → Prop}
    (faces : family.Faces view kept state (entries ++ more) behind) :
    family.Faces view kept state entries fun _ => True := by
  refine faces.mono ?_
  rintro source after ⟨encounters, -, begun⟩
  exact ⟨encounters.of_append, trivial, begun⟩

/-- Comparing two measures leaves a view of the state as it is. -/
def ComparesInView (exceeds : μ → μ → Action σ Bool) (view : σ → ν) (kept : Nat → ν)
    (among : μ → Prop) (beaten : μ → μ → Bool) : Prop :=
  ∀ best measure, among best → among measure → ∀ position state, view state = kept position →
    Action.Ensures (exceeds best measure) state (fun _ => False) fun verdict after =>
      verdict = beaten best measure ∧ view after = kept position

/-- Comparing on a part of a state leaves alone what is beside it. -/
theorem ComparesInView.beside {τ : Type} {exceeds : μ → μ → Action σ Bool} {view : σ → ν}
    {kept : Nat → ν} {among : μ → Prop} {beaten : μ → μ → Bool}
    (compares : ComparesInView exceeds view kept among beaten) (first : Nat → τ) :
    ComparesInView (fun best measure => (exceeds best measure).onSecond)
      (Prod.map (id : τ → τ) view) (fun position => (first position, kept position)) among
      beaten := by
  rintro best measure one other position ⟨past, state⟩ same
  obtain ⟨rfl, seen⟩ := Prod.mk.inj same
  refine Action.ensures_onSecond.2 ((compares best measure one other position state seen).mono
    fun verdict after decided => ?_)
  exact ⟨decided.1, Prod.ext rfl decided.2⟩

/-- What a call leaves that has looked at some entries and committed nothing. -/
structure Rests (view : σ → ν) (kept : ν) (entries : List (γ × μ)) (tally : Tally)
    (history : List (Happening γ μ)) (after : Tally × List (Happening γ μ) × σ) : Prop where
  tally : after.1 = tally.called.lookedAt entries.length
  history : after.2.1 = Happening.looks entries ++ history
  still : view after.2.2 = kept

/--
What a call leaves that has looked at some entries and then committed a candidate, with a result.

The row is counted unless the commit has failed.
-/
structure Family.Commits (family : Family σ γ μ) (view : σ → ν) (kept : ν)
    (entries : List (γ × μ)) (tally : Tally) (history : List (Happening γ μ)) (candidate : γ)
    (result : Except Interrupt Unit) (after : Tally × List (Happening γ μ) × σ) : Prop where
  tally : after.1 = match result with
    | .ok _ => (tally.called.lookedAt entries.length).added
    | .error _ => tally.called.lookedAt entries.length
  history : after.2.1 = .added candidate :: (Happening.looks entries ++ history)
  committed : ∃ begun log, view begun = kept ∧
    (family.commit candidate).run begun = ⟨result, after.2.2, log⟩

section Steady

variable {family : Family σ γ μ} {source : Source σ γ} {view : σ → ν} {kept : ν} {items : List γ}

/-- Candidates whose measures are known are encountered where nothing in view ever changes. -/
theorem Source.Yields.encounters (yields : source.Yields view kept items) {worth : γ → μ}
    (measures : ∀ candidate ∈ items, ∀ state, view state = kept →
      Action.Ensures (family.measure candidate) state (fun _ => False) fun measure after =>
        measure = worth candidate ∧ view after = kept) :
    family.Encounters source view (fun _ => kept)
      (items.map fun candidate => (candidate, worth candidate)) := by
  intro position entry listed state same
  obtain ⟨candidate, found, rfl⟩ : ∃ candidate, items[position]? = some candidate ∧
      (candidate, worth candidate) = entry := by simpa using listed
  refine (yields position state same).mono ?_
  rintro _ produced ⟨rfl, kept⟩
  exact ⟨found, measures candidate (List.mem_of_getElem? found) produced kept⟩

/-- A source gives nothing behind its last member. -/
theorem Source.Yields.givesAt (yields : source.Yields view kept items) {position : Nat}
    (behind : items.length ≤ position) :
    source.GivesAt view (fun _ => kept) position (.ok none) := by
  intro state same
  refine (yields position state same).meets (fun found after produced => ?_) fun _ _ => False.elim
  rw [List.getElem?_eq_none behind] at produced
  exact ⟨congrArg _ produced.1.symm, produced.2⟩

end Steady

namespace Separator

variable {separator : Separator σ γ μ} {source : Source σ γ} {view : σ → ν} {kept : Nat → ν}
  {entries : List (γ × μ)}

section Noted

variable (history : List (Happening γ μ))

/-- The history grows by one measure with each entry. -/
def noting (entries : List (γ × μ)) (kept : Nat → ν) (position : Nat) :
    List (Happening γ μ) × ν :=
  (Happening.looks (entries.take position) ++ history, kept position)

/-- Nothing is noted behind the last entry. -/
@[simp] theorem noting_of_length_le {position : Nat} (behind : entries.length ≤ position) :
    noting history entries kept position = (Happening.looks entries ++ history, kept position) := by
  rw [noting, List.take_of_length_le behind]

/-- What is encountered is noted in the order in which it is encountered. -/
theorem encounters_noted (encounters : separator.family.Encounters source view kept entries) :
    separator.noted.family.Encounters source.onSecond (Prod.map id view)
      (noting history entries kept) entries := by
  rintro position entry listed ⟨past, state⟩ same
  obtain ⟨rfl, seen⟩ := Prod.mk.inj same
  refine Action.ensures_onSecond.2 ((encounters position entry listed state seen).mono ?_)
  rintro found produced ⟨rfl, measured⟩
  refine ⟨rfl, Action.ensures_iff_meets.2 (meets_noted_measure.2 ?_)⟩
  refine measured.meets ?_ fun _ _ => id
  rintro _ after ⟨rfl, moved⟩
  refine ⟨rfl, Prod.ext ?_ moved⟩
  -- One entry more has been taken, and it is the latest.
  simp [noting, List.take_add_one, listed]

/-- Nothing is noted of what a source gives behind the last entry. -/
theorem givesAt_noted {result : Except Interrupt (Option γ)}
    (gives : source.GivesAt view kept entries.length result) :
    (source.onSecond : Source (List (Happening γ μ) × σ) γ).GivesAt (Prod.map id view)
      (noting history entries kept) entries.length result := by
  rintro ⟨past, state⟩ same
  rw [noting_of_length_le history le_rfl] at same
  obtain ⟨rfl, seen⟩ := Prod.mk.inj same
  refine Action.meets_onSecond.2 ((gives state seen).imp ?_ ?_)
  · intro found after given
    exact ⟨given.1, by simpa using given.2⟩
  · intro cause after failed
    exact ⟨failed.1, by simpa using failed.2⟩

/-- What a family comes upon is noted beside its state. -/
theorem faces_noted {state : σ} {behind : Source σ γ → Prop}
    (faces : separator.family.Faces view kept state entries behind)
    {beside : Source (List (Happening γ μ) × σ) γ → Prop}
    (lifts : ∀ source, behind source → beside source.onSecond) :
    separator.noted.family.Faces (Prod.map id view) (noting history entries kept) (history, state)
      entries beside := by
  refine Action.ensures_iff_meets.2 (meets_noted_enumerate.2 (faces.meets ?_ fun _ _ => id))
  rintro source after ⟨encounters, known, begun⟩
  exact ⟨encounters_noted history encounters, lifts source known, Prod.ext rfl begun⟩

end Noted

variable [Measure μ] {tally : Tally} {state : σ}

section Scan

variable {given : Option γ → Tally × σ → Prop} {failed : Interrupt → Tally × σ → Prop}

/-- A scan for the first violation passes over entries that do not count, with one turn for each. -/
theorem scanFirst_passes (encounters : separator.family.Encounters source view kept entries)
    (passed : ∀ entry ∈ entries, Measure.countsTrue entry.2 = false) {position count fuel : Nat}
    (left : position + count = entries.length) (same : view state = kept position)
    (goesOn : ∀ after, view after = kept entries.length →
      Action.Meets (separator.scanFirst source fuel entries.length) (tally.lookedAt count, after)
        given failed) :
    Action.Meets (separator.scanFirst source (count + fuel) position) (tally, state) given
      failed := by
  induction count generalizing position tally state with
  | zero =>
    obtain rfl : position = entries.length := left
    simpa using goesOn state same
  | succ count ih =>
    have inside : position < entries.length := by omega
    have later : position + 1 + count = entries.length := by omega
    rw [Nat.add_right_comm]
    simp only [scanFirst, evaluate, Tally.count, Action.meets_bind, Action.meets_onSecond]
    -- The next candidate is produced and measured, and its measure does not count.
    refine (encounters position _ (List.getElem?_eq_getElem inside) state same).meets ?_
      fun _ _ => False.elim
    rintro _ produced ⟨rfl, measured⟩
    simp only [Action.meets_bind, Action.meets_onSecond, Action.meets_modify]
    refine measured.meets ?_ fun _ _ => False.elim
    rintro _ after ⟨rfl, moved⟩
    simp only [passed _ (List.getElem_mem inside), Bool.false_eq_true, if_false]
    refine ih later moved fun last still => ?_
    rw [Tally.lookedAt_looked]
    exact goesOn last still

/-- What takes the place of the best one so far is the best one with the next. -/
theorem replaces_meets {exceeds : μ → μ → Action σ Bool} {among : μ → Prop}
    {beaten : μ → μ → Bool} (compares : ComparesInView exceeds view kept among beaten)
    (ranks : Ranks beaten among) {seen : List (γ × μ)} {entry : γ × μ} {held : Option (γ × μ)}
    (best : Best beaten seen held)
    (known : ∀ other ∈ seen ++ [entry], Measure.present other.2 = true → among other.2)
    (present : Measure.present entry.2 = true) {position : Nat} (same : view state = kept position) :
    Action.Meets (replaces exceeds held entry.2) state
      (fun verdict after => Best beaten (seen ++ [entry]) (if verdict then some entry else held) ∧
        view after = kept position) fun _ _ => False := by
  have last := known entry (by simp) present
  -- Only a best one so far is compared with.
  cases held with
  | none => exact ⟨best.first ranks present last, same⟩
  | some held =>
    have first := known held (List.mem_append_left _ best.mem) best.present
    refine (compares held.2 _ first last position state same).meets ?_ fun _ _ => False.elim
    rintro verdict after ⟨decided, still⟩
    refine ⟨?_, still⟩
    cases verdict with
    | true => exact best.replace ranks known present decided.symm
    | false => exact best.keep fun _ => decided.symm

/-- A scan for the greatest violation keeps the first of the greatest, with one turn for each. -/
theorem scanDeepest_passes {exceeds : μ → μ → Action σ Bool} {among : μ → Prop}
    {beaten : μ → μ → Bool}
    (encounters : separator.family.Encounters source view kept entries)
    (compares : ComparesInView exceeds view kept among beaten) (ranks : Ranks beaten among)
    (known : ∀ entry ∈ entries, Measure.present entry.2 = true → among entry.2)
    {position count fuel : Nat} (left : position + count = entries.length)
    {held : Option (γ × μ)} (best : Best beaten (entries.take position) held)
    (same : view state = kept position)
    (goesOn : ∀ held after, Best beaten entries held → view after = kept entries.length →
      Action.Meets (separator.scanDeepest exceeds source fuel entries.length held)
        (tally.lookedAt count, after) given failed) :
    Action.Meets (separator.scanDeepest exceeds source (count + fuel) position held) (tally, state)
      given failed := by
  induction count generalizing position tally state held with
  | zero =>
    obtain rfl : position = entries.length := left
    rw [List.take_length] at best
    simpa using goesOn held state best same
  | succ count ih =>
    have inside : position < entries.length := by omega
    have later : position + 1 + count = entries.length := by omega
    have listed : entries[position]? = some entries[position] := List.getElem?_eq_getElem inside
    have seen : entries.take (position + 1) = entries.take position ++ [entries[position]] := by
      rw [List.take_add_one, listed, Option.toList_some]
    rw [Nat.add_right_comm]
    simp only [scanDeepest, evaluate, Tally.count, Action.meets_bind, Action.meets_onSecond]
    refine (encounters position _ listed state same).meets ?_ fun _ _ => False.elim
    rintro _ produced ⟨rfl, measured⟩
    simp only [Action.meets_bind, Action.meets_onSecond, Action.meets_modify]
    refine measured.meets ?_ fun _ _ => False.elim
    rintro _ after ⟨rfl, moved⟩
    -- Whoever is the best behind this candidate, the scan goes on with one question more.
    have onward : ∀ held' after, Best beaten (entries.take (position + 1)) held' →
        view after = kept (position + 1) →
        Action.Meets (separator.scanDeepest exceeds source (count + fuel) (position + 1) held')
          (tally.looked, after) given failed := by
      intro held' after best moved
      refine ih later best moved fun last final best still => ?_
      rw [Tally.lookedAt_looked]
      exact goesOn last final best still
    rw [seen] at onward
    cases present : Measure.present entries[position].2 with
    | false => simpa using onward held after (best.pass present) moved
    | true =>
      simp only [if_true, Action.meets_bind, Action.meets_onSecond]
      have among : ∀ other ∈ entries.take position ++ [entries[position]],
          Measure.present other.2 = true → among other.2 := by
        intro other member
        rw [← seen] at member
        exact known other (List.mem_of_mem_take member)
      refine (replaces_meets compares ranks best among present moved).imp ?_ fun _ _ => False.elim
      rintro verdict final ⟨best, still⟩
      cases verdict with
      | true => exact onward _ final best still
      | false => exact onward _ final best still

end Scan

/-- A call commits what it has selected and says so, or says that nothing was selected. -/
theorem call_meets_of_select {fuel : Nat} {given : Bool → Tally × σ → Prop}
    {failed : Interrupt → Tally × σ → Prop}
    (selects : Action.Meets (separator.select fuel) (tally.called, state)
      (fun found after => match found with
        | none => given false after
        | some candidate => Action.Meets (separator.family.commit candidate) after.2
            (fun _ last => given true (after.1.added, last)) fun cause last =>
              failed cause (after.1, last)) failed) :
    Action.Meets (separator.call fuel) (tally, state) given failed := by
  simp only [call, Tally.count, Action.meets_bind, Action.meets_modify]
  refine selects.mono fun found after selected => ?_
  cases found with
  | none => exact selected
  | some candidate =>
    -- The row is counted behind the commit, and only if that has not failed.
    simpa only [Action.meets_bind, Action.meets_report, Action.meets_onSecond, Action.meets_modify,
      Action.meets_pure] using selected

/-- A call fails where nothing can be enumerated. -/
theorem noted_call_meets_of_error {fuel : Nat} {history : List (Happening γ μ)}
    {cause : Interrupt} (fails : (separator.family.enumerate.run state).result = .error cause) :
    Action.Meets (separator.noted.call fuel) (tally, history, state) (fun _ _ => False)
      fun failure _ => failure = cause := by
  simp only [call, Tally.count, select, Action.meets_bind, Action.meets_modify,
    Action.meets_onSecond]
  refine meets_noted_enumerate.2 ?_
  unfold Action.Meets
  rw [fails]

/-- A call whose search has looked at some entries rests behind them or commits what it has found. -/
theorem noted_call_meets {fuel : Nat} {last : ν} {history : List (Happening γ μ)}
    {chosen : Option γ → Prop} {failed : Interrupt → Tally × List (Happening γ μ) × σ → Prop}
    (selects : Action.Meets (separator.noted.select fuel) (tally.called, history, state)
      (fun found after => chosen found ∧ after.1 = tally.called.lookedAt entries.length ∧
        Prod.map id view after.2 = (Happening.looks entries ++ history, last)) failed) :
    Action.Meets (separator.noted.call fuel) (tally, history, state)
      (fun added after =>
        if added then ∃ candidate, chosen (some candidate) ∧
          separator.family.Commits view last entries tally history candidate (.ok ()) after
        else chosen none ∧ Rests view last entries tally history after)
      fun cause after => failed cause after ∨ ∃ candidate, chosen (some candidate) ∧
        separator.family.Commits view last entries tally history candidate (.error cause) after := by
  refine call_meets_of_select (selects.imp ?_ fun _ _ => .inl)
  rintro found ⟨_, past, after⟩ ⟨picked, rfl, same⟩
  obtain ⟨rfl, still⟩ := Prod.mk.inj same
  cases found with
  | none => exact ⟨picked, rfl, rfl, still⟩
  | some candidate =>
    -- The addition is noted ahead of the commit, which may still fail.
    refine meets_noted_commit.2 ((Action.meets_run _ _).imp ?_ ?_)
    · rintro _ final ⟨log, ran⟩
      exact ⟨candidate, picked, rfl, rfl, after, log, still, ran⟩
    · rintro cause final ⟨log, ran⟩
      exact .inr ⟨candidate, picked, rfl, rfl, after, log, still, ran⟩

end Separator

end CuttingPlanes
