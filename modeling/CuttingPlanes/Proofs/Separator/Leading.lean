import CuttingPlanes.Proofs.Separator.Encounter
import CuttingPlanes.Separator.Choice

/-! The deepest policy looks at everything once and adds the first of the greatest. -/

namespace CuttingPlanes

variable {σ ν γ μ : Type} [Measure μ]

namespace Separator

variable {view : σ → ν} {kept : Nat → ν} {entries : List (γ × μ)} {state : σ}
  {among : μ → Prop} {beaten : μ → μ → Bool}

/-- A search for the greatest violation selects the first of the greatest of all entries. -/
theorem select_meets_selects {separator : Separator σ γ μ} {exceeds : μ → μ → Action σ Bool}
    (deepest : separator.search = .deepest exceeds)
    (faces : separator.family.Faces view kept state entries fun source =>
      source.GivesAt view kept entries.length (.ok none))
    (compares : ComparesInView exceeds view kept among beaten) (ranks : Ranks beaten among)
    (known : ∀ entry ∈ entries, Measure.present entry.2 = true → among entry.2) {fuel : Nat}
    (enough : entries.length < fuel) (tally : Tally) :
    Action.Meets (separator.select fuel) (tally, state)
      (fun found after => Selects beaten entries found ∧
        after.1 = tally.lookedAt entries.length ∧ view after.2 = kept (entries.length + 1))
      fun _ _ => False := by
  obtain ⟨spare, rfl⟩ : ∃ spare, fuel = entries.length + (spare + 1) :=
    ⟨fuel - entries.length - 1, by omega⟩
  simp only [select, deepest, Action.meets_bind, Action.meets_onSecond]
  refine faces.meets ?_ fun _ _ => id
  rintro source after ⟨encounters, ends, begun⟩
  -- All entries are passed first, and one turn more finds that there is none left.
  refine scanDeepest_passes encounters compares ranks known (Nat.zero_add _) (Best.begin beaten)
    begun fun held last best same => ?_
  simp only [scanDeepest, Action.meets_bind, Action.meets_onSecond]
  refine (ends last same).imp ?_ ?_
  · rintro _ final ⟨⟨⟩, still⟩
    exact ⟨best.selects, rfl, still⟩
  · rintro cause final ⟨⟨⟩, -⟩

variable {family : Family σ γ μ} {exceeds : μ → μ → Action σ Bool}

/-- A call for the greatest violation looks at all entries and commits the first of the greatest. -/
theorem noted_call_meets_deepest {separator : Separator σ γ μ}
    (deepest : separator.search = .deepest exceeds)
    (faces : separator.family.Faces view kept state entries fun source =>
      source.GivesAt view kept entries.length (.ok none))
    (compares : ComparesInView exceeds view kept among beaten) (ranks : Ranks beaten among)
    (known : ∀ entry ∈ entries, Measure.present entry.2 = true → among entry.2) {fuel : Nat}
    (enough : entries.length < fuel) (tally : Tally) (history : List (Happening γ μ)) :
    Action.Meets (separator.noted.call fuel) (tally, history, state)
      (fun added after =>
        if added then ∃ candidate, Selects beaten entries (some candidate) ∧
          separator.family.Commits view (kept (entries.length + 1)) entries tally history candidate
            (.ok ()) after
        else Selects beaten entries none ∧
          Rests view (kept (entries.length + 1)) entries tally history after)
      fun cause after => ∃ candidate, Selects beaten entries (some candidate) ∧
        separator.family.Commits view (kept (entries.length + 1)) entries tally history candidate
          (.error cause) after := by
  have searches : separator.noted.search =
      .deepest fun best measure => (exceeds best measure).onSecond := by
    simp only [noted, onSecond, deepest]
  -- What is noted is in view as well.
  have selects := select_meets_selects searches
    (faces_noted history faces fun source => givesAt_noted history)
    (compares.beside _) ranks known enough tally.called
  rw [noting_of_length_le history (Nat.le_succ _)] at selects
  refine (noted_call_meets selects).imp (fun _ _ called => called) ?_
  exact fun _ _ failed => failed.resolve_left id

/--
The deepest policy looks at every entry once, in order, and adds the first of the greatest.

Only what has no measure at all takes no part. When the commit fails, so does the call, with nothing
else changed.
-/
theorem deepest_adds_leading
    (faces : family.Faces view kept state entries fun source =>
      source.GivesAt view kept entries.length (.ok none))
    (compares : ComparesInView exceeds view kept among beaten) (ranks : Ranks beaten among)
    (known : ∀ entry ∈ entries, Measure.present entry.2 = true → among entry.2) {fuel : Nat}
    (enough : entries.length < fuel) (tally : Tally) (history : List (Happening γ μ)) :
    (∀ measure : Datum, Measure.present measure = false ↔ measure = .nothing) ∧
    Action.Meets ((deepest family exceeds).noted.call fuel) (tally, history, state)
      (fun added after =>
        if added then ∃ candidate, Selects beaten entries (some candidate) ∧
          family.Commits view (kept (entries.length + 1)) entries tally history candidate (.ok ())
            after
        else Selects beaten entries none ∧
          Rests view (kept (entries.length + 1)) entries tally history after)
      fun cause after => ∃ candidate, Selects beaten entries (some candidate) ∧
        family.Commits view (kept (entries.length + 1)) entries tally history candidate
          (.error cause) after := by
  constructor
  · rintro (_ | _ | _ | _ | _ | _ | _ | _) <;> simp [Measure.present, Datum.isNothing]
  · exact noted_call_meets_deepest rfl faces compares ranks known enough tally history

end Separator

/-- A family of listed candidates, the measures of which stay as they are. -/
def Family.steady (items : List γ) (worth : γ → μ) : Family Unit γ μ where
  enumerate := pure (Source.ofList items)
  measure candidate := pure (worth candidate)
  commit _ := pure ()
  describe _ := ""

/-- Measures of which zero and false are the greatest, and candidates without one. -/
def faint : Datum → Datum
  | .nothing => .int 0
  | .int 1 => .bool false
  | .int 2 => .int (-1)
  | _ => .nothing

/-- Whether the first of two measures is less than the second one. -/
def isLess (best measure : Datum) : Bool := Comparison.less.apply best measure matches .ok true

/-- The number of a measure; zero stands for whatever is not a number. -/
def wholeOf : Datum → Int
  | .int whole => whole
  | _ => 0

/-- The measures of the example are ranked, with a tie between zero and false. -/
theorem ranks_isLess :
    Ranks isLess fun measure => measure = .int (-1) ∨ measure = .int 0 ∨ measure = .bool false := by
  -- Among these only minus one is below zero.
  refine Ranks.of_key wholeOf ?_
  rintro x y (rfl | rfl | rfl) (rfl | rfl | rfl) <;> decide

namespace Separator

/-- Of zero and false, which beat everything else, the one that is met first is added. -/
theorem deepest_adds_first_tie :
    let items : List Datum := [.int 3, .int 2, .nothing, .int 1, .nothing, .int 3]
    let less (best measure : Datum) : Action Unit Bool :=
      Action.ofExcept (Comparison.less.apply best measure)
    let outcome := ((deepest (Family.steady items faint) less).noted.call 7).run (.zero, [], ())
    outcome.result = .ok true ∧ Happening.additions outcome.state.2.1 = [.nothing] ∧
      ∃ candidate, Selects isLess (items.map fun item => (item, faint item)) (some candidate) ∧
        (Family.steady items faint).Commits id () (items.map fun item => (item, faint item)) .zero
          [] candidate (.ok ()) outcome.state := by
  intro items less outcome
  have yields : (Source.ofList items : Source Unit Datum).Yields id () items :=
    (Source.lists_ofList items).yields id ()
  have faces : (Family.steady items faint).Faces id (fun _ => ()) ()
      (items.map fun item => (item, faint item)) fun source =>
        source.GivesAt id (fun _ => ()) (items.map fun item => (item, faint item)).length (.ok none) :=
    ⟨yields.encounters fun _ _ _ _ => ⟨rfl, rfl⟩, yields.givesAt (by simp), rfl⟩
  have compares : ComparesInView less id (fun _ => ())
      (fun measure => measure = .int (-1) ∨ measure = .int 0 ∨ measure = .bool false) isLess := by
    rintro best measure (rfl | rfl | rfl) (rfl | rfl | rfl) position state same <;>
      exact ⟨rfl, rfl⟩
  have known : ∀ entry ∈ items.map fun item => (item, faint item), Measure.present entry.2 = true →
      entry.2 = .int (-1) ∨ entry.2 = .int 0 ∨ entry.2 = .bool false := by
    simp [items, faint, Measure.present, Datum.isNothing]
  have enough : (items.map fun item => (item, faint item)).length < 7 := by decide
  have met := (deepest_adds_leading faces compares ranks_isLess known enough .zero []).2
  exact ⟨rfl, rfl, met.of_ok rfl⟩

end Separator

end CuttingPlanes
