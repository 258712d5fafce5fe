import CuttingPlanes.Proofs.Separator.ShortCircuit

/-! Calls of the first policy depend on nothing behind the first violation. -/

namespace CuttingPlanes

variable {σ ν γ μ : Type}

/-- Two families that are the same up to some entries, behind which their sources may differ. -/
structure Family.Agrees (left right : Family σ γ μ) (view : σ → ν) (kept : Nat → ν) (state : σ)
    (entries : List (γ × μ)) : Prop where
  measure : left.measure = right.measure
  commit : left.commit = right.commit
  describe : left.describe = right.describe
  enumerates : ∃ source other after log,
    left.enumerate.run state = ⟨.ok source, after, log⟩ ∧
    right.enumerate.run state = ⟨.ok other, after, log⟩ ∧ view after = kept 0 ∧
    left.Encounters source view kept entries ∧
    ∀ position < entries.length, ∀ state, view state = kept position →
      (source.next position).run state = (other.next position).run state

namespace Separator

section Agreement

variable {left right : Separator σ γ μ} {view : σ → ν} {kept : Nat → ν} {state : σ}
  {entries : List (γ × μ)}

/-- Families that are the same so far are the same so far when their sources are watched. -/
theorem agrees_watched (agrees : left.family.Agrees right.family view kept state entries) :
    left.watched.family.Agrees right.watched.family (Prod.map id view) (asking kept) ([], state)
      entries where
  measure := by simp only [watched, Family.onSecond, agrees.measure]
  commit := by simp only [watched, Family.onSecond, agrees.commit]
  describe := agrees.describe
  enumerates := by
    obtain ⟨source, other, after, log, first, second, begun, encounters, same⟩ := agrees.enumerates
    refine ⟨source.watched, other.watched, ([], after), log, ?_, ?_, Prod.ext rfl begun,
      encounters_watched encounters, ?_⟩
    · exact Action.run_map_ok (Action.run_onSecond_ok first)
    · exact Action.run_map_ok (Action.run_onSecond_ok second)
    · rintro position inside ⟨asked, state⟩ seen
      have alike := same position inside state (Prod.mk.inj seen).2
      simp only [Source.watched, Action.run_bind, Action.run_modify, Action.run_onSecond, alike]

/-- Families that are the same so far are the same so far when they are noted. -/
theorem agrees_noted (agrees : left.family.Agrees right.family view kept state entries)
    (history : List (Happening γ μ)) :
    left.noted.family.Agrees right.noted.family (Prod.map id view) (noting history entries kept)
      (history, state) entries where
  measure := by simp only [noted, Family.onSecond, agrees.measure]
  commit := by simp only [noted, Family.onSecond, agrees.commit]
  describe := agrees.describe
  enumerates := by
    obtain ⟨source, other, after, log, first, second, begun, encounters, same⟩ := agrees.enumerates
    refine ⟨source.onSecond, other.onSecond, (history, after), log, ?_, ?_, Prod.ext rfl begun,
      encounters_noted history encounters, ?_⟩
    · exact Action.run_map_ok (Action.run_onSecond_ok first)
    · exact Action.run_map_ok (Action.run_onSecond_ok second)
    · rintro position inside ⟨past, state⟩ seen
      have alike := same position inside state (Prod.mk.inj seen).2
      simp only [Source.onSecond, Action.run_onSecond, alike]

variable [Measure μ] {source other : Source σ γ} {tally : Tally}

/-- Two scans take the same turn over an entry that both encounter. -/
theorem scanFirst_run_eq (measures : left.family.measure = right.family.measure)
    (encounters : left.family.Encounters source view kept entries) {position : Nat}
    (same : (source.next position).run state = (other.next position).run state) {entry : γ × μ}
    (listed : entries[position]? = some entry) (seen : view state = kept position)
    {fuel turns : Nat}
    (goesOn : Measure.countsTrue entry.2 = false → ∀ after, view after = kept (position + 1) →
      (left.scanFirst source fuel (position + 1)).run (tally.looked, after) =
        (right.scanFirst other turns (position + 1)).run (tally.looked, after)) :
    (left.scanFirst source (fuel + 1) position).run (tally, state) =
      (right.scanFirst other (turns + 1) position).run (tally, state) := by
  have evaluates : right.evaluate = left.evaluate := by
    funext candidate
    rw [evaluate, evaluate, measures]
  rw [scanFirst, scanFirst, evaluates]
  refine Action.run_bind_eq (by simp only [Action.run_onSecond, same]) ?_
  refine Action.meets_onSecond.2 ((encounters position entry listed state seen).meets ?_
    fun _ _ => False.elim)
  rintro _ produced ⟨rfl, measured⟩
  refine Action.run_bind_eq rfl ?_
  simp only [evaluate, Tally.count, Action.meets_bind, Action.meets_modify, Action.meets_onSecond]
  refine measured.meets ?_ fun _ _ => False.elim
  rintro _ after ⟨rfl, moved⟩
  -- Only a measure that does not count lets the scans go on.
  by_cases violated : Measure.countsTrue entry.2 = true
  · simp [violated]
  · simpa [violated] using goesOn (Bool.eq_false_iff.2 violated) after moved

variable {passed : List (γ × μ)} {found : γ × μ}

/-- Scans that agree up to a violation are the same, with any turns that reach it. -/
theorem scanFirst_run_eq_of_agree (measures : left.family.measure = right.family.measure)
    (encounters : left.family.Encounters source view kept (passed ++ [found]))
    (alike : ∀ position < (passed ++ [found]).length, ∀ state, view state = kept position →
      (source.next position).run state = (other.next position).run state)
    (violated : Measure.countsTrue found.2 = true) {fuel turns position count : Nat}
    (remaining : position + count = passed.length) (seen : view state = kept position) :
    (left.scanFirst source (count + fuel + 1) position).run (tally, state) =
      (right.scanFirst other (count + turns + 1) position).run (tally, state) := by
  have inside : position < (passed ++ [found]).length := by
    rw [List.length_append, List.length_singleton]
    omega
  have listed := List.getElem?_eq_getElem inside
  have same := alike position inside state seen
  induction count generalizing position tally state with
  | zero =>
    -- This is the violation, behind which neither scan goes on.
    obtain rfl : position = passed.length := remaining
    refine scanFirst_run_eq measures encounters same listed seen fun passes => ?_
    simp [violated] at passes
  | succ count ih =>
    refine scanFirst_run_eq measures encounters same listed seen fun _ after moved => ?_
    have next : position + 1 < (passed ++ [found]).length := by
      rw [List.length_append, List.length_singleton]
      omega
    rw [Nat.add_right_comm count 1 fuel, Nat.add_right_comm count 1 turns]
    exact ih (by omega) moved next (List.getElem?_eq_getElem next) (alike _ next after moved)

/-- Calls that agree up to a violation are the same, with any turns that reach it. -/
theorem call_run_eq_of_agrees
    (agrees : left.family.Agrees right.family view kept state (passed ++ [found]))
    (policy : left.policy = right.policy) (looks : left.search = .first)
    (searches : right.search = .first) (violated : Measure.countsTrue found.2 = true)
    {fuel turns : Nat} (enough : passed.length < fuel) (reaches : passed.length < turns) :
    (left.call fuel).run (tally, state) = (right.call turns).run (tally, state) := by
  obtain ⟨spare, rfl⟩ : ∃ spare, fuel = passed.length + spare + 1 :=
    ⟨fuel - passed.length - 1, by omega⟩
  obtain ⟨more, rfl⟩ : ∃ more, turns = passed.length + more + 1 :=
    ⟨turns - passed.length - 1, by omega⟩
  obtain ⟨source, other, after, log, first, second, begun, encounters, alike⟩ := agrees.enumerates
  have selects : (left.select (passed.length + spare + 1)).run (tally.called, state) =
      (right.select (passed.length + more + 1)).run (tally.called, state) := by
    rw [select, select, looks, searches, Action.run_bind_ok (Action.run_onSecond_ok first),
      Action.run_bind_ok (Action.run_onSecond_ok second)]
    rw [scanFirst_run_eq_of_agree agrees.measure encounters alike violated (Nat.zero_add _) begun]
  have notes : left.note = right.note := by
    funext message
    rw [note, note, policy]
  rw [call, call, notes, agrees.describe, agrees.commit]
  -- What is done with the candidate that is selected is the same by now.
  refine Action.run_bind_eq rfl (Action.run_bind_eq selects ?_)
  exact Action.meets_of_forall (fun _ _ => rfl) fun _ _ => trivial

end Agreement

/--
The first policy measures the candidates up to the first violation and adds that one.

No position behind it is asked for, whatever the order. With the order of the family itself, what
is produced behind the first violation makes no difference to a call.
-/
theorem first_looks_no_further [Measure μ] (family : Family σ γ μ) (view : σ → ν)
    (kept : Nat → ν) (state : σ) {passed : List (γ × μ)}
    (unviolated : ∀ entry ∈ passed, Measure.countsTrue entry.2 = false) (tally : Tally)
    (history : List (Happening γ μ)) :
    (∀ reorder found fuel, Measure.countsTrue found.2 = true → passed.length < fuel →
      (family.reordered reorder).Faces view kept state (passed ++ [found]) (fun _ => True) →
      Action.Meets ((first family reorder).watched.noted.call fuel) (tally, history, [], state)
        (fun added after => added = true ∧
          Asks (passed.length + 1) (family.Commits view (kept (passed.length + 1))
            (passed ++ [found]) tally history found.1 (.ok ())) after)
        fun cause after =>
          Asks (passed.length + 1) (family.Commits view (kept (passed.length + 1))
            (passed ++ [found]) tally history found.1 (.error cause)) after) ∧
    (∀ reorder (closing : Except Interrupt Unit) fuel, passed.length < fuel →
      (family.reordered reorder).Faces view kept state passed (fun source =>
        source.GivesAt view kept passed.length (closing.map fun _ => none)) →
      Action.Meets ((first family reorder).watched.noted.call fuel) (tally, history, [], state)
        (fun added after => (closing = .ok () ∧ added = false) ∧
          Asks (passed.length + 1) (Rests view (kept (passed.length + 1)) passed tally history)
            after)
        fun cause after => closing = .error cause ∧
          Asks (passed.length + 1) (Rests view (kept (passed.length + 1)) passed tally history)
            after) ∧
    (∀ reorder, (family.reordered reorder).Faces view kept state passed (fun _ => True) →
      Action.Meets ((first family reorder).watched.noted.call passed.length)
        (tally, history, [], state) (fun _ _ => False) fun cause after => cause = .unfinished ∧
          Asks passed.length (Rests view (kept passed.length) passed tally history) after) ∧
    family.reordered pure = family ∧
    ∀ other found fuel turns, Measure.countsTrue found.2 = true → passed.length < fuel →
      passed.length < turns → family.Agrees other view kept state (passed ++ [found]) →
      ((first family pure).watched.noted.call fuel).run (tally, history, [], state) =
          ((first other pure).watched.noted.call turns).run (tally, history, [], state) ∧
        ((first family pure).call fuel).run (tally, state) =
          ((first other pure).call turns).run (tally, state) := by
  refine ⟨?_, ?_, ?_, reordered_pure family, ?_⟩
  · intro reorder found fuel violated enough faces
    exact observed_call_meets_found faces unviolated violated enough
  · intro reorder closing fuel enough faces
    exact observed_call_meets_passed faces unviolated enough
  · intro reorder faces
    exact observed_call_meets_unfinished faces unviolated
  · intro other found fuel turns violated enough reaches agrees
    have plain : (first family pure).family.Agrees (first other pure).family view kept state
        (passed ++ [found]) := by
      simpa only [first, reordered_pure] using agrees
    have observed := agrees_noted (agrees_watched plain) history
    constructor
    · exact call_run_eq_of_agrees observed rfl rfl rfl violated enough reaches
    · exact call_run_eq_of_agrees plain rfl rfl rfl violated enough reaches

end Separator

/-- The measure of a number; there is none of zero, and that of one does not count. -/
def surplus (number : Nat) : Datum := if number = 0 then .nothing else .int (number - 1)

/-- Some numbers, counted while they are produced, with another source behind them. -/
def Source.counting (count : Nat) (behind : Source Nat Nat) : Source Nat Nat where
  next position :=
    if position < count then do
      Action.modify (· + 1)
      return some position
    else behind.next position

namespace Family

/-- Some numbers that are counted while they are produced, and what is behind them. -/
def counting (count : Nat) (behind : Source Nat Nat) : Family Nat Nat Datum where
  enumerate := pure (Source.counting count behind)
  measure number := pure (surplus number)
  commit _ := pure ()
  describe := toString

/-- The numbers that are counted, with their measures. -/
def counted (count : Nat) : List (Nat × Datum) :=
  (List.range count).map fun number => (number, surplus number)

variable {count : Nat} {behind other : Source Nat Nat}

theorem encounters_counting : (counting count behind).Encounters (Source.counting count behind) id
    (min · count) (counted count) := by
  rintro position entry listed state rfl
  obtain ⟨inside, rfl⟩ : position < count ∧ (position, surplus position) = entry := by
    simpa [counted, List.getElem?_eq_some_iff] using listed
  simpa [counting, Source.counting, inside] using inside.le

/-- Numbers are produced up to a count, and then what is behind them. -/
theorem faces_counting {result : Except Interrupt (Option Nat)}
    (gives : behind.GivesAt id (min · count) count result) :
    (counting count behind).Faces id (min · count) 0 (counted count) fun source =>
      source.GivesAt id (min · count) count result := by
  refine ⟨encounters_counting, fun state same => ?_, (Nat.zero_min count).symm⟩
  simpa [Source.counting] using gives state same

/-- What is behind the numbers makes no difference before it is asked for. -/
theorem agrees_counting : (counting count behind).Agrees (counting count other) id (min · count) 0
    (counted count) where
  measure := rfl
  commit := rfl
  describe := rfl
  enumerates := by
    refine ⟨Source.counting count behind, Source.counting count other, 0, [], rfl, rfl,
      (Nat.zero_min count).symm, encounters_counting, fun position inside state _ => ?_⟩
    have before : position < count := by simpa [counted] using inside
    simp [Source.counting, before]

end Family

namespace Separator

/-- Two sources, one of which fails and one of which never ends, are alike behind a violation. -/
theorem first_ignores_failure_behind :
    let failing : Source Nat Nat := ⟨fun _ => Action.raise .badSeed⟩
    let endless : Source Nat Nat := ⟨fun position => pure (some position)⟩
    let outcome :=
      ((first (Family.counting 3 failing) pure).watched.noted.call 3).run (.zero, [], [], 0)
    let short :=
      ((first (Family.counting 2 failing) pure).watched.noted.call 3).run (.zero, [], [], 0)
    let few := ((first (Family.counting 2 failing) pure).watched.noted.call 2).run (.zero, [], [], 0)
    (outcome.result = .ok true ∧
      Asks 3 ((Family.counting 3 failing).Commits id 3 (Family.counted 3) .zero [] 2 (.ok ()))
        outcome.state) ∧
    outcome =
      ((first (Family.counting 3 endless) pure).watched.noted.call 5).run (.zero, [], [], 0) ∧
    (short.result = .error (.raised .badSeed) ∧
      Asks 3 (Rests id 2 (Family.counted 2) .zero []) short.state) ∧
    few.result = .error .unfinished ∧ Asks 2 (Rests id 2 (Family.counted 2) .zero []) few.state := by
  intro failing endless outcome short few
  have unviolated : ∀ entry ∈ Family.counted 2, Measure.countsTrue entry.2 = false := by decide
  have fails : ∀ count, failing.GivesAt id (min · count) count (.error (.raised .badSeed)) := by
    intro count state same
    refine Action.meets_raise.2 ⟨rfl, ?_⟩
    simpa using same
  -- The third number is the first violation, and there is none without it.
  have long : (Family.counting 3 failing).Faces id (min · 3) 0
      (Family.counted 2 ++ [(2, .int 1)]) fun _ => True :=
    (Family.faces_counting (fails 3)).mono fun _ _ known => ⟨known.1, trivial, known.2.2⟩
  have brief := Family.faces_counting (fails 2)
  obtain ⟨found, -, -, same, ignores⟩ :=
    first_looks_no_further (Family.counting 3 failing) id (min · 3) 0 unviolated .zero []
  obtain ⟨-, passes, lacks, alone, -⟩ :=
    first_looks_no_further (Family.counting 2 failing) id (min · 2) 0 unviolated .zero []
  have added := found pure (2, .int 1) 3 rfl (by decide) (by rw [same]; exact long)
  have failed := passes pure (.error (.raised .badSeed)) 3 (by decide) (by rw [alone]; exact brief)
  have spent := lacks pure (by
    rw [alone]
    exact brief.mono fun _ _ known => ⟨known.1, trivial, known.2.2⟩)
  refine ⟨⟨rfl, (added.of_ok rfl).2⟩, ?_, ⟨rfl, (failed.of_error rfl).2⟩, rfl,
    (spent.of_error rfl).2⟩
  exact (ignores (Family.counting 3 endless) (2, .int 1) 3 5 rfl (by decide) (by decide)
    Family.agrees_counting).1

end Separator

end CuttingPlanes
