import CuttingPlanes.Proofs.Separator.Encounter

/-! The first policy looks no further than the first violation, whatever comes behind it. -/

namespace CuttingPlanes

variable {σ ν γ μ : Type}

namespace Source

/-- A source that notes the positions at which it is asked; the latest comes first. -/
def watched (source : Source σ γ) : Source (List Nat × σ) γ where
  next position := do
    Action.modify fun state => (position :: state.1, state.2)
    (source.next position).onSecond

/-- Watching a source changes nothing else. -/
theorem shows_watched (source : Source σ γ) : source.watched.Shows Prod.snd source :=
  fun position state => Action.shows_snd (source.next position) (position :: state.1, state.2)

end Source

namespace Separator

/-- A separator whose candidates come from a source that is watched. -/
def watched (separator : Separator σ γ μ) : Separator (List Nat × σ) γ μ :=
  { separator.onSecond with
    family :=
      { separator.family.onSecond with
        enumerate := Source.watched <$> separator.family.enumerate.onSecond } }

/-- Watching the source of a separator changes nothing else. -/
theorem shows_watched (separator : Separator σ γ μ) :
    separator.watched.Shows Prod.snd separator where
  policy := rfl
  family :=
    { separator.shows_snd.family with
      enumerate := by
        rw [← bind_pure separator.family.enumerate]
        refine (Action.shows_snd separator.family.enumerate).bind fun left right same => ?_
        subst same
        exact Action.shows_pure left.shows_watched }
  search := separator.shows_snd.search

section Watched

variable {separator : Separator σ γ μ} {source : Source σ γ} {view : σ → ν} {kept : Nat → ν}
  {entries : List (γ × μ)}

/-- The positions that have been asked for grow by one at a time. -/
def asking (kept : Nat → ν) (position : Nat) : List Nat × ν :=
  ((List.range position).reverse, kept position)

theorem asking_succ (kept : Nat → ν) (position : Nat) :
    asking kept (position + 1) = (position :: (asking kept position).1, kept (position + 1)) := by
  simp [asking, List.range_succ]

theorem givesAt_watched {position : Nat} {result : Except Interrupt (Option γ)}
    (gives : source.GivesAt view kept position result) :
    source.watched.GivesAt (Prod.map id view) (asking kept) position result := by
  rintro ⟨asked, state⟩ same
  obtain ⟨rfl, seen⟩ := Prod.mk.inj same
  simp only [Source.watched, Action.meets_bind, Action.meets_modify, Action.meets_onSecond,
    asking_succ]
  -- The position is noted before the source is asked, whether or not that fails.
  refine (gives state seen).imp ?_ ?_
  · intro found after given
    exact ⟨given.1, Prod.ext rfl given.2⟩
  · intro cause after failed
    exact ⟨failed.1, Prod.ext rfl failed.2⟩

/-- What is encountered is asked for one position after another. -/
theorem encounters_watched (encounters : separator.family.Encounters source view kept entries) :
    separator.watched.family.Encounters source.watched (Prod.map id view) (asking kept)
      entries := by
  rintro position entry listed ⟨asked, state⟩ same
  obtain ⟨rfl, seen⟩ := Prod.mk.inj same
  simp only [Source.watched, Action.ensures_bind, Action.ensures_modify, Action.ensures_onSecond]
  refine (encounters position entry listed state seen).mono ?_
  rintro found produced ⟨rfl, measured⟩
  refine ⟨rfl, Action.ensures_onSecond.2 (measured.mono ?_)⟩
  rintro measure last ⟨rfl, moved⟩
  exact ⟨rfl, Prod.ext (congrArg Prod.fst (asking_succ kept position)).symm moved⟩

/-- What a family comes upon is watched beside its state. -/
theorem faces_watched {state : σ} {behind : Source σ γ → Prop}
    (faces : separator.family.Faces view kept state entries behind)
    {beside : Source (List Nat × σ) γ → Prop}
    (lifts : ∀ source, behind source → beside source.watched) :
    separator.watched.family.Faces (Prod.map id view) (asking kept) ([], state) entries beside := by
  simp only [Family.Faces, watched, Action.ensures_map, Action.ensures_onSecond]
  refine faces.mono ?_
  rintro source after ⟨encounters, known, begun⟩
  exact ⟨encounters_watched encounters, lifts source known, Prod.ext rfl begun⟩

end Watched

section Looks

variable [Measure μ] {separator : Separator σ γ μ} {view : σ → ν} {kept : Nat → ν} {state : σ}
  {passed : List (γ × μ)} {found : γ × μ} {behind : Source σ γ → Prop} {fuel : Nat}

/-- A search for the first violation selects the first entry that counts, and looks no further. -/
theorem select_meets_found (first : separator.search = .first)
    (faces : separator.family.Faces view kept state (passed ++ [found]) behind)
    (unviolated : ∀ entry ∈ passed, Measure.countsTrue entry.2 = false)
    (violated : Measure.countsTrue found.2 = true) (enough : passed.length < fuel) (tally : Tally) :
    Action.Meets (separator.select fuel) (tally, state)
      (fun chosen after => chosen = some found.1 ∧
        after.1 = tally.lookedAt (passed ++ [found]).length ∧
        view after.2 = kept (passed ++ [found]).length) fun _ _ => False := by
  obtain ⟨spare, rfl⟩ : ∃ spare, fuel = passed.length + (spare + 1) :=
    ⟨fuel - passed.length - 1, by omega⟩
  simp only [select, first, Action.meets_bind, Action.meets_onSecond]
  refine faces.meets ?_ fun _ _ => id
  rintro source after ⟨encounters, -, begun⟩
  refine scanFirst_passes encounters.of_append unviolated (Nat.zero_add _) begun
    fun last same => ?_
  -- The next candidate is the one that counts, and it is the last that is asked for.
  simp only [scanFirst, evaluate, Tally.count, Action.meets_bind, Action.meets_onSecond]
  refine (encounters passed.length found (by simp) last same).meets ?_ fun _ _ => id
  rintro _ produced ⟨rfl, measured⟩
  simp only [Action.meets_bind, Action.meets_onSecond, Action.meets_modify]
  refine measured.meets ?_ fun _ _ => id
  rintro _ final ⟨rfl, moved⟩
  simp only [violated, if_true, Action.meets_pure]
  exact ⟨trivial, by simp [Tally.lookedAt, Tally.looked, Nat.add_assoc], by simpa using moved⟩

/-- A search for the first violation that passes everything ends as its source does. -/
theorem select_meets_passed (first : separator.search = .first) {closing : Except Interrupt Unit}
    (faces : separator.family.Faces view kept state passed fun source =>
      source.GivesAt view kept passed.length (closing.map fun _ => none))
    (unviolated : ∀ entry ∈ passed, Measure.countsTrue entry.2 = false)
    (enough : passed.length < fuel) (tally : Tally) :
    Action.Meets (separator.select fuel) (tally, state)
      (fun chosen after => (closing = .ok () ∧ chosen = none) ∧
        after.1 = tally.lookedAt passed.length ∧ view after.2 = kept (passed.length + 1))
      fun cause after => closing = .error cause ∧ after.1 = tally.lookedAt passed.length ∧
        view after.2 = kept (passed.length + 1) := by
  obtain ⟨spare, rfl⟩ : ∃ spare, fuel = passed.length + (spare + 1) :=
    ⟨fuel - passed.length - 1, by omega⟩
  simp only [select, first, Action.meets_bind, Action.meets_onSecond]
  refine faces.meets ?_ fun _ _ => False.elim
  rintro source after ⟨encounters, gives, begun⟩
  refine scanFirst_passes encounters unviolated (Nat.zero_add _) begun fun last same => ?_
  simp only [scanFirst, Action.meets_bind, Action.meets_onSecond]
  cases closing with
  | ok done =>
    refine (gives last same).imp ?_ ?_
    · rintro _ final ⟨⟨⟩, moved⟩
      exact ⟨⟨rfl, rfl⟩, rfl, moved⟩
    · rintro cause final ⟨⟨⟩, -⟩
  | error cause =>
    refine (gives last same).imp ?_ ?_
    · rintro _ final ⟨⟨⟩, -⟩
    · rintro _ final ⟨⟨⟩, moved⟩
      exact ⟨rfl, trivial, moved⟩

/-- A search for the first violation takes all its turns where there is none as far as they go. -/
theorem select_meets_unfinished (first : separator.search = .first)
    (faces : separator.family.Faces view kept state passed behind)
    (unviolated : ∀ entry ∈ passed, Measure.countsTrue entry.2 = false)
    (spent : passed.length = fuel) (tally : Tally) :
    Action.Meets (separator.select fuel) (tally, state) (fun _ _ => False)
      fun cause after => cause = .unfinished ∧ after.1 = tally.lookedAt passed.length ∧
        view after.2 = kept passed.length := by
  simp only [select, first, Action.meets_bind, Action.meets_onSecond]
  refine faces.meets ?_ fun _ _ => False.elim
  rintro source after ⟨encounters, -, begun⟩
  rw [← spent]
  show Action.Meets (separator.scanFirst source (passed.length + 0) 0) _ _ _
  refine scanFirst_passes encounters unviolated (Nat.zero_add _) begun fun last same => ?_
  exact ⟨rfl, rfl, same⟩

variable (history : List (Happening γ μ))

omit [Measure μ] in
/-- Noting what happens is no other way to look through the candidates. -/
theorem noted_search_of_first (first : separator.search = .first) :
    separator.noted.search = .first := by
  simp only [noted, onSecond, first]

/-- A call that comes upon a violation commits it, having looked at nothing behind it. -/
theorem noted_call_meets_found (first : separator.search = .first)
    (faces : separator.family.Faces view kept state (passed ++ [found]) behind)
    (unviolated : ∀ entry ∈ passed, Measure.countsTrue entry.2 = false)
    (violated : Measure.countsTrue found.2 = true) (enough : passed.length < fuel) (tally : Tally) :
    Action.Meets (separator.noted.call fuel) (tally, history, state)
      (fun added after => added = true ∧ separator.family.Commits view (kept (passed.length + 1))
        (passed ++ [found]) tally history found.1 (.ok ()) after)
      fun cause after => separator.family.Commits view (kept (passed.length + 1))
        (passed ++ [found]) tally history found.1 (.error cause) after := by
  have counted : (passed ++ [found]).length = passed.length + 1 := List.length_append
  have noted : separator.noted.family.Faces (Prod.map id view)
      (noting history (passed ++ [found]) kept) (history, state) (passed ++ [found])
        fun _ => True := faces_noted history faces fun _ _ => trivial
  have selects := select_meets_found (noted_search_of_first first) noted unviolated violated enough
    tally.called
  rw [noting_of_length_le history le_rfl] at selects
  rw [← counted]
  refine (noted_call_meets selects).imp ?_ ?_
  · rintro (_ | _) after called
    · cases called.1
    · obtain ⟨candidate, ⟨⟩, commits⟩ := called
      exact ⟨rfl, commits⟩
  · rintro cause after (impossible | ⟨candidate, ⟨⟩, commits⟩)
    · exact impossible.elim
    · exact commits

/-- A call that comes upon no violation rests behind all entries, and ends as the source does. -/
theorem noted_call_meets_passed (first : separator.search = .first)
    {closing : Except Interrupt Unit}
    (faces : separator.family.Faces view kept state passed fun source =>
      source.GivesAt view kept passed.length (closing.map fun _ => none))
    (unviolated : ∀ entry ∈ passed, Measure.countsTrue entry.2 = false)
    (enough : passed.length < fuel) (tally : Tally) :
    Action.Meets (separator.noted.call fuel) (tally, history, state)
      (fun added after => (closing = .ok () ∧ added = false) ∧
        Rests view (kept (passed.length + 1)) passed tally history after)
      fun cause after => closing = .error cause ∧
        Rests view (kept (passed.length + 1)) passed tally history after := by
  have noted : separator.noted.family.Faces (Prod.map id view) (noting history passed kept)
      (history, state) passed fun source => source.GivesAt (Prod.map id view)
        (noting history passed kept) passed.length (closing.map fun _ => none) :=
    faces_noted history faces fun source => givesAt_noted history
  have selects := select_meets_passed (noted_search_of_first first) noted unviolated enough
    tally.called
  rw [noting_of_length_le history (Nat.le_succ _)] at selects
  refine (noted_call_meets selects).imp ?_ ?_
  · rintro (_ | _) after called
    · exact ⟨⟨called.1.1, rfl⟩, called.2⟩
    · obtain ⟨candidate, ⟨-, impossible⟩, -⟩ := called
      cases impossible
  · rintro cause ⟨_, past, after⟩ (⟨closed, looked, same⟩ | ⟨candidate, ⟨-, impossible⟩, -⟩)
    · obtain ⟨known, still⟩ := Prod.mk.inj same
      exact ⟨closed, looked, known, still⟩
    · cases impossible

/-- A call that comes upon no violation as far as its turns go has looked at all entries so far. -/
theorem noted_call_meets_unfinished (first : separator.search = .first)
    (faces : separator.family.Faces view kept state passed behind)
    (unviolated : ∀ entry ∈ passed, Measure.countsTrue entry.2 = false) (tally : Tally) :
    Action.Meets (separator.noted.call passed.length) (tally, history, state) (fun _ _ => False)
      fun cause after => cause = .unfinished ∧
        Rests view (kept passed.length) passed tally history after := by
  have noted : separator.noted.family.Faces (Prod.map id view) (noting history passed kept)
      (history, state) passed fun _ => True := faces_noted history faces fun _ _ => trivial
  have selects := select_meets_unfinished (noted_search_of_first first) noted unviolated rfl
    tally.called
  rw [noting_of_length_le history le_rfl] at selects
  refine call_meets_of_select (selects.imp (fun _ _ => False.elim) ?_)
  rintro cause ⟨_, past, after⟩ ⟨spent, looked, same⟩
  obtain ⟨known, still⟩ := Prod.mk.inj same
  exact ⟨spent, looked, known, still⟩

/-- The first entry that counts, behind some that do not. -/
structure StopsAt (entries passed : List (γ × μ)) (found : γ × μ) : Prop where
  split : ∃ behind, entries = passed ++ found :: behind
  unviolated : ∀ entry ∈ passed, Measure.countsTrue entry.2 = false
  violated : Measure.countsTrue found.2 = true

/-- A call for the first violation commits the first entry that counts, if there is one. -/
theorem noted_call_meets_first (first : separator.search = .first) {entries : List (γ × μ)}
    (faces : separator.family.Faces view kept state entries fun source =>
      source.GivesAt view kept entries.length (.ok none)) (enough : entries.length < fuel)
    (tally : Tally) :
    Action.Meets (separator.noted.call fuel) (tally, history, state)
      (fun added after =>
        if added then ∃ passed found, StopsAt entries passed found ∧
          separator.family.Commits view (kept (passed.length + 1)) (passed ++ [found]) tally history
            found.1 (.ok ()) after
        else (∀ entry ∈ entries, Measure.countsTrue entry.2 = false) ∧
          Rests view (kept (entries.length + 1)) entries tally history after)
      fun cause after => ∃ passed found, StopsAt entries passed found ∧
        separator.family.Commits view (kept (passed.length + 1)) (passed ++ [found]) tally history
          found.1 (.error cause) after := by
  cases scanned : entries.find? fun entry => Measure.countsTrue entry.2 with
  | none =>
    have unviolated : ∀ entry ∈ entries, Measure.countsTrue entry.2 = false := by
      simpa [List.find?_eq_none] using scanned
    have ends : separator.family.Faces view kept state entries fun source =>
        source.GivesAt view kept entries.length ((Except.ok ()).map fun _ => none) := faces
    refine (noted_call_meets_passed history first ends unviolated enough tally).imp ?_ ?_
    · rintro added after ⟨⟨-, rfl⟩, rests⟩
      exact ⟨unviolated, rests⟩
    · rintro cause after ⟨impossible, -⟩
      cases impossible
  | some found =>
    obtain ⟨violated, passed, behind, rfl, before⟩ := List.find?_eq_some_iff_append.1 scanned
    have unviolated : ∀ entry ∈ passed, Measure.countsTrue entry.2 = false := by
      simpa using before
    have stops : StopsAt (passed ++ found :: behind) passed found :=
      ⟨⟨behind, rfl⟩, unviolated, violated⟩
    have within : passed.length < fuel := lt_of_le_of_lt (by simp) enough
    -- What stands behind the violation does not matter.
    rw [List.append_cons] at faces
    refine (noted_call_meets_found history first faces.of_append unviolated violated within
      tally).imp ?_ ?_
    · rintro added after ⟨rfl, commits⟩
      exact ⟨passed, found, stops, commits⟩
    · intro cause after commits
      exact ⟨passed, found, stops, commits⟩

end Looks

section Watched

variable {family : Family σ γ μ} {reorder : Source σ γ → Action σ (Source σ γ)} {view : σ → ν}
  {kept : Nat → ν} {state : σ} {passed : List (γ × μ)} {found : γ × μ} {tally : Tally}
  {history : List (Happening γ μ)}

/-- What a call leaves that has asked for the first few positions, one after another. -/
def Asks (count : Nat) (leaves : Tally × List (Happening γ μ) × σ → Prop)
    (after : Tally × List (Happening γ μ) × List Nat × σ) : Prop :=
  after.2.2.1 = (List.range count).reverse ∧ leaves (after.1, after.2.1, after.2.2.2)

/-- A call that rests beside the positions it has asked for rests. -/
theorem asks_of_rests {count : Nat} {entries : List (γ × μ)}
    {after : Tally × List (Happening γ μ) × List Nat × σ}
    (rests : Rests (Prod.map id view) (asking kept count) entries tally history after) :
    Asks count (Rests view (kept count) entries tally history) after := by
  obtain ⟨asked, still⟩ := Prod.mk.inj rests.still
  exact ⟨asked, rests.tally, rests.history, still⟩

/-- What is committed beside the positions that were asked for is committed. -/
theorem asks_of_commits {count : Nat} {entries : List (γ × μ)} {candidate : γ}
    {result : Except Interrupt Unit} {after : Tally × List (Happening γ μ) × List Nat × σ}
    (commits : (first family reorder).watched.family.Commits (Prod.map id view)
      (asking kept count) entries tally history candidate result after) :
    Asks count (family.Commits view (kept count) entries tally history candidate result)
      after := by
  obtain ⟨⟨asked, begun⟩, log, same, ran⟩ := commits.committed
  obtain ⟨rfl, still⟩ := Prod.mk.inj same
  -- The commit is that of the family, on the second part of the state.
  have ran : (family.commit candidate).onSecond.run (_, begun) = ⟨result, after.2.2, log⟩ := ran
  rw [Action.run_onSecond, Outcome.mk.injEq] at ran
  obtain ⟨ended, left, reports⟩ := ran
  refine ⟨congrArg Prod.fst left.symm, commits.tally, commits.history, begun, log, still, ?_⟩
  rw [← ended, ← left, ← reports]

/-- The identity order produces nothing beforehand. -/
theorem reordered_pure (family : Family σ γ μ) : family.reordered pure = family := by
  rw [Family.reordered, bind_pure]

variable [Measure μ]

/-- The first violation is added, and nothing behind it is asked for. -/
theorem observed_call_meets_found {behind : Source σ γ → Prop}
    (faces : (family.reordered reorder).Faces view kept state (passed ++ [found]) behind)
    (unviolated : ∀ entry ∈ passed, Measure.countsTrue entry.2 = false)
    (violated : Measure.countsTrue found.2 = true) {fuel : Nat} (enough : passed.length < fuel) :
    Action.Meets ((first family reorder).watched.noted.call fuel) (tally, history, [], state)
      (fun added after => added = true ∧
        Asks (passed.length + 1) (family.Commits view (kept (passed.length + 1))
          (passed ++ [found]) tally history found.1 (.ok ())) after)
      fun cause after =>
        Asks (passed.length + 1) (family.Commits view (kept (passed.length + 1))
          (passed ++ [found]) tally history found.1 (.error cause)) after := by
  have watched : (first family reorder).watched.family.Faces (Prod.map id view) (asking kept)
      ([], state) (passed ++ [found]) fun _ => True := faces_watched faces fun _ _ => trivial
  refine (noted_call_meets_found history rfl watched unviolated violated enough tally).imp ?_ ?_
  · intro added after called
    exact ⟨called.1, asks_of_commits called.2⟩
  · intro cause after commits
    exact asks_of_commits commits

/-- Where nothing is violated, everything is asked for and measured, and nothing is added. -/
theorem observed_call_meets_passed {closing : Except Interrupt Unit}
    (faces : (family.reordered reorder).Faces view kept state passed fun source =>
      source.GivesAt view kept passed.length (closing.map fun _ => none))
    (unviolated : ∀ entry ∈ passed, Measure.countsTrue entry.2 = false) {fuel : Nat}
    (enough : passed.length < fuel) :
    Action.Meets ((first family reorder).watched.noted.call fuel) (tally, history, [], state)
      (fun added after => (closing = .ok () ∧ added = false) ∧
        Asks (passed.length + 1) (Rests view (kept (passed.length + 1)) passed tally history) after)
      fun cause after => closing = .error cause ∧
        Asks (passed.length + 1) (Rests view (kept (passed.length + 1)) passed tally history)
          after := by
  have watched : (first family reorder).watched.family.Faces (Prod.map id view) (asking kept)
      ([], state) passed fun source => source.GivesAt (Prod.map id view) (asking kept)
        passed.length (closing.map fun _ => none) :=
    faces_watched faces fun source => givesAt_watched
  refine (noted_call_meets_passed history rfl watched unviolated enough tally).imp ?_ ?_
  · intro added after called
    exact ⟨called.1, asks_of_rests called.2⟩
  · intro cause after failed
    exact ⟨failed.1, asks_of_rests failed.2⟩

/-- Without a violation as far as the turns go, everything up to there is measured. -/
theorem observed_call_meets_unfinished {behind : Source σ γ → Prop}
    (faces : (family.reordered reorder).Faces view kept state passed behind)
    (unviolated : ∀ entry ∈ passed, Measure.countsTrue entry.2 = false) :
    Action.Meets ((first family reorder).watched.noted.call passed.length)
      (tally, history, [], state) (fun _ _ => False) fun cause after => cause = .unfinished ∧
        Asks passed.length (Rests view (kept passed.length) passed tally history) after := by
  have watched : (first family reorder).watched.family.Faces (Prod.map id view) (asking kept)
      ([], state) passed fun _ => True := faces_watched faces fun _ _ => trivial
  refine (noted_call_meets_unfinished history rfl watched unviolated tally).imp (fun _ _ => id) ?_
  intro cause after failed
  exact ⟨failed.1, asks_of_rests failed.2⟩

end Watched

end Separator

end CuttingPlanes
