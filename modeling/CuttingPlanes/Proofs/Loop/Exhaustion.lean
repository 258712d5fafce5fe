import CuttingPlanes.Proofs.Loop.Timing
import CuttingPlanes.Proofs.Separator.Exact
import CuttingPlanes.Proofs.Separator.Exploration

/-! Loops that come to an end because there is nothing left to add. -/

namespace CuttingPlanes

variable {σ ρ κ γ μ R S K : Type}

namespace Happening

/-- An orderly history with some additions and some solves. -/
structure Counted (regards : μ → Bool) (among : γ → Prop) (history : List (Happening γ μ))
    (added solved : Nat) : Prop where
  orderly : Orderly regards among history
  additions : (additions history).length = added
  solves : solves history = solved

/-- What a history says of a run that comes to an end: each candidate is added at most once. -/
structure Exhausts (candidates : Finset γ) (history : List (Happening γ μ)) : Prop where
  nodup : (additions history).Nodup
  subset : ∀ candidate ∈ additions history, candidate ∈ candidates
  solves_le : solves history ≤ candidates.card + 1

/-- A history with one solve ahead of each addition ends where additions last. -/
theorem Counted.exhausts {regards : μ → Bool} {candidates : Finset γ}
    {history : List (Happening γ μ)} {added solved : Nat}
    (counted : Counted regards (· ∈ candidates) history added solved)
    (balanced : solved ≤ added + 1) (lasting : Lasting regards history) :
    Exhausts candidates history where
  nodup := counted.orderly.nodup lasting
  subset _ := counted.orderly.among_of_mem
  solves_le := by
    -- There are no more additions than candidates, and one solve more than additions.
    have short := counted.orderly.length_le_card lasting
    rw [counted.additions] at short
    rw [counted.solves]
    omega

end Happening

/-- How far a loop has come, by the numbers of additions and of solves. -/
def Task.Phase.counts : Task.Phase R → Nat × Nat
  | .before count => (count, count)
  | .solved count _ => (count, count + 1)
  | .passed count _ => (count, count + 1)

/-- There is never more than one solve ahead of the additions. -/
theorem Task.Phase.counts_le (phase : Task.Phase R) : phase.counts.2 ≤ phase.counts.1 + 1 := by
  cases phase with
  | before count => exact Nat.le_succ _
  | solved count => exact le_rfl
  | passed count => exact le_rfl

namespace Separator

variable [HasStatus R S] [Status S] [Measure μ] {separator : Separator σ γ μ} {kept : σ → Prop}
  {among : γ → Prop} {bound : ℕ∞} {fuel : Nat}

/--
A run ends with at most one solve more than additions.

If it is out of turns, there was an addition for each of them, or a call was out of turns itself.
-/
def Ends (separator : Separator σ γ μ) (among : γ → Prop) (bound : ℕ∞) (fuel turns : Nat)
    (history : List (Happening γ μ)) (outOfTurns : Prop) : Prop :=
  ∃ added solved, Happening.Counted separator.search.regards among history added solved ∧
    solved ≤ added + 1 ∧ (outOfTurns → added = turns ∨ fuel ≤ bound)

/-- The history of a loop adds one candidate for each solve but the last one. -/
def counting (explores : separator.Explores kept among bound fuel)
    {solve : Action (Tally × σ) R} (steady : solve.Steady fun state => kept state.2) (optimal : S)
    (turns : Nat) : (separator.notedTask fuel solve optimal).Course turns where
  holds phase state := kept state.2.2 ∧
    Happening.Counted separator.search.regards among state.2.1 phase.counts.1 phase.counts.2
  failed cause state :=
    separator.Ends among bound fuel turns state.2.1 (cause = .unfinished)
  solves := by
    rintro count ⟨tally, history, state⟩ - ⟨held, counted⟩
    show Action.Meets (do (Happening.note .solved).onSecond; solve.past) _ _ _
    simp only [Happening.note, Action.meets_bind, Action.meets_onSecond, Action.meets_modify,
      Action.meets_past]
    -- The solve is noted before it is made, so that it counts even if it fails.
    have solves := (Happening.solves_solved history).trans (congrArg (· + 1) counted.solves)
    have solved : Happening.Counted separator.search.regards among (.solved :: history) count
        (count + 1) := ⟨counted.orderly, counted.additions, solves⟩
    refine (steady (tally, state) held).meets (fun result after held => ⟨held, solved⟩) ?_
    exact fun cause _ going => ⟨_, _, solved, le_rfl, fun spent => (going spent).elim⟩
  separates := by
    rintro count result ⟨tally, history, state⟩ - ⟨held, counted⟩ -
    refine (explores.call_meets held tally counted.orderly).imp ?_ ?_
    · rintro added ⟨tally, history, state⟩ ⟨held, grown⟩
      -- The answer says whether the additions have caught up with the solves.
      have additions := grown.added.trans (congrArg (· + _) counted.additions)
      have solves := grown.solved.trans counted.solves
      cases added with
      | true => exact ⟨held, grown.orderly, additions, solves⟩
      | false => exact ⟨held, grown.orderly, additions, solves⟩
    · rintro cause ⟨tally, history, state⟩ ⟨warranted, more, least, grown⟩
      -- A commit that fails counts as an addition, which only helps the balance.
      have solves := grown.solved.trans counted.solves
      have additions := grown.added.trans (congrArg (· + more) counted.additions)
      exact ⟨_, _, ⟨grown.orderly, additions, solves⟩, Nat.succ_le_succ (Nat.le_add_right _ _),
        fun spent => .inr (warranted spent)⟩
  spent := by
    rintro ⟨tally, history, state⟩ ⟨-, counted⟩
    -- Ahead of the turn that is missing, every turn has ended in an addition.
    exact ⟨_, _, counted, Nat.le_succ _, fun _ => .inl rfl⟩

/-- A run that stops of itself, or fails as accounted for, ends in this way. -/
theorem ends_of_meets {α τ : Type} {action : Action τ α} {state : τ} {given : α → τ → Prop}
    {turns : Nat} (past : τ → List (Happening γ μ))
    (met : action.Meets state given fun cause after =>
      separator.Ends among bound fuel turns (past after) (cause = .unfinished))
    (stops : ∀ value after, given value after →
      separator.Ends among bound fuel turns (past after) False) :
    separator.Ends among bound fuel turns (past (action.run state).state)
      ((action.run state).result = .error .unfinished) := by
  rcases Action.meets_iff.1 met with ⟨value, ended, well⟩ | ⟨cause, ended, failed⟩
  · -- A run that gives a value is not out of turns.
    obtain ⟨added, solved, counted, balanced, -⟩ := stops value _ well
    exact ⟨added, solved, counted, balanced, fun out => nomatch ended.symm.trans out⟩
  · -- A run that fails is out of turns where its cause says so.
    obtain ⟨added, solved, counted, balanced, spent⟩ := failed
    refine ⟨added, solved, counted, balanced, fun out => spent ?_⟩
    exact Except.error.inj (ended.symm.trans out)

/-- Where additions last, such an end is what a run comes to that comes to an end. -/
theorem Ends.exhausts {candidates : Finset γ} {turns : Nat} {history : List (Happening γ μ)}
    {outOfTurns : Prop} (ends : separator.Ends (· ∈ candidates) bound fuel turns history outOfTurns)
    (lasting : Happening.Lasting separator.search.regards history) :
    Happening.Exhausts candidates history ∧
      (candidates.card < turns → bound < fuel → ¬outOfTurns) := by
  obtain ⟨added, solved, counted, balanced, spent⟩ := ends
  refine ⟨counted.exhausts balanced lasting, fun many enough out => ?_⟩
  -- An addition for each turn would be more than there are candidates.
  rcases spent out with rfl | short
  · -- Additions that last are no more than the candidates.
    have least := counted.orderly.length_le_card lasting
    rw [counted.additions] at least
    omega
  · -- A call that looks at no more candidates than it has turns for is not out of turns.
    exact absurd short enough.not_ge

/-- What happens along the bare loop within some turns, the latest first. -/
def historyOf (separator : Separator σ γ μ) (fuel : Nat) (solve : Action (Tally × σ) R)
    (optimal : S) (turns : Nat) (start : Tally × σ) : List (Happening γ μ) :=
  (((separator.notedTask fuel solve optimal).alternate turns).run
    (start.1, [], start.2)).state.2.1

section Runs

variable (explores : separator.Explores kept among bound fuel) {solve : Action (Tally × σ) R}
  (steady : solve.Steady fun state => kept state.2) (optimal : S) (turns : Nat)

/-- Wherever a loop stops of itself, there is at most one solve more than additions. -/
theorem ends_of_holds {phase : Task.Phase R} {state : Tally × List (Happening γ μ) × σ}
    (held : (counting explores steady optimal turns).holds phase state) :
    separator.Ends among bound fuel turns state.2.1 False :=
  ⟨_, _, held.2, phase.counts_le, False.elim⟩

include explores steady

/-- The bare loop ends with at most one solve more than additions. -/
theorem alternate_ends {start : Tally × σ} (held : kept start.2) :
    separator.Ends among bound fuel turns (separator.historyOf fuel solve optimal turns start)
      ((((separator.task fuel solve optimal).alternate turns).run start).result =
        .error .unfinished) := by
  -- The loop that notes what happens ends as the loop does.
  have same : (((separator.task fuel solve optimal).alternate turns).run start).result =
      (((separator.notedTask fuel solve optimal).alternate turns).run
        (start.1, [], start.2)).result :=
    (((separator.shows_notedTask fuel solve optimal).alternate turns).result_eq
      (start.1, [], start.2)).symm
  have begun : (counting explores steady optimal turns).holds (.before 0)
      (start.1, [], start.2) := ⟨held, trivial, rfl, rfl⟩
  have met := (counting explores steady optimal turns).alternate_meets (Nat.add_zero turns) begun
  rw [same]
  refine ends_of_meets (fun state : Tally × List (Happening γ μ) × σ => state.2.1) met ?_
  rintro status after ⟨count, result, -, ended⟩
  -- The loop stops after a solve or after a search, and the counts are known at both.
  split at ended
  · exact ends_of_holds explores steady optimal turns ended
  · exact ends_of_holds explores steady optimal turns ended

end Runs

end Separator

namespace Supervisor

variable [HasStatus R S] [HasObjective R K] [Status S] [Scalar K] [Measure μ]

/-- A supervisor of a loop that notes what happens. -/
def noted (supervisor : Supervisor (Tally × σ) R S Bool K)
    (task : Task (Tally × List (Happening γ μ) × σ) R S Bool) :
    Supervisor (Tally × List (Happening γ μ) × σ) R S Bool K where
  task := task
  limits := supervisor.limits
  watchers := supervisor.watchers.map fun watcher isSolved round => (watcher isSolved round).past
  last := supervisor.last

omit [HasStatus R S] [HasObjective R K] [Status S] [Scalar K] in
/-- Noting what happens changes nothing else. -/
theorem shows_noted {supervisor : Supervisor (Tally × σ) R S Bool K}
    {separator : Separator σ γ μ} {fuel : Nat} {solve : Action (Tally × σ) R} {optimal : S}
    (same : supervisor.task = separator.task fuel solve optimal) :
    (supervisor.noted (separator.notedTask fuel solve optimal)).Shows (Prod.map id Prod.snd)
      supervisor where
  task := same ▸ separator.shows_notedTask fuel solve optimal
  limits := rfl
  watchers := by
    refine List.forall₂_map_left_iff.2 (List.forall₂_same.2 ?_)
    exact fun watcher _ isSolved round => Action.shows_past _
  last := rfl

/-- What happens along a supervised run within some turns, the latest first. -/
def historyOf (supervisor : Supervisor (Tally × σ) R S Bool K) (separator : Separator σ γ μ)
    (fuel : Nat) (solve : Action (Tally × σ) R) (clock : Clock κ K) (turns : Nat) (moment : κ)
    (start : Tally × σ) : List (Happening γ μ) :=
  (((supervisor.noted (separator.notedTask fuel solve supervisor.task.optimal)).solve clock
    turns).run (moment, start.1, [], start.2)).state.2.2.1

/-- A supervised run ends with at most one solve more than additions. -/
theorem solve_ends {supervisor : Supervisor (Tally × σ) R S Bool K} {separator : Separator σ γ μ}
    {kept : σ → Prop} {among : γ → Prop} {bound : ℕ∞} {fuel : Nat}
    (explores : separator.Explores kept among bound fuel)
    {solve : Action (Tally × σ) R} (steady : solve.Steady fun state => kept state.2)
    (same : supervisor.task = separator.task fuel solve supervisor.task.optimal)
    (watched : ∀ watcher ∈ supervisor.watchers, ∀ isSolved round,
      Action.Steady (watcher isSolved round) fun state => kept state.2)
    (clock : Clock κ K) (turns : Nat) (moment : κ) {start : Tally × σ} (held : kept start.2) :
    separator.Ends among bound fuel turns
      (supervisor.historyOf separator fuel solve clock turns moment start)
      (((supervisor.solve clock turns).run (moment, start)).result = .error .unfinished) := by
  have shown : ((supervisor.solve clock turns).run (moment, start)).result =
      (((supervisor.noted (separator.notedTask fuel solve supervisor.task.optimal)).solve clock
        turns).run (moment, start.1, [], start.2)).result :=
    (((shows_noted same).solve clock turns).result_eq (moment, start.1, [], start.2)).symm
  have keeps : (supervisor.noted (separator.notedTask fuel solve supervisor.task.optimal)).Keeps
      (Separator.counting explores steady supervisor.task.optimal turns) clock
      (fun _ => True) fun _ => True := by
    refine ⟨supervisor.limits.timed_trivial R clock, ?_, ?_⟩
    · intro watcher member isSolved round phase
      obtain ⟨plain, among, rfl⟩ := List.mem_map.1 member
      rintro ⟨tally, history, state⟩ ⟨held, counted⟩
      -- A watcher that fails leaves the history as it is.
      refine Action.meets_past.2 ((watched plain among isSolved round (tally, state) held).meets
        (fun answer after held => ⟨held, counted⟩) ?_)
      exact fun cause _ going => ⟨_, _, counted, phase.counts_le, fun spent => (going spent).elim⟩
    · rintro phase state fault ⟨-, counted⟩ -
      -- What is refused of times and limits is no lack of turns.
      exact ⟨_, _, counted, phase.counts_le, nofun⟩
  have begun : (Separator.counting explores steady supervisor.task.optimal turns).holds (.before 0)
      (start.1, [], start.2) := ⟨held, trivial, rfl, rfl⟩
  rw [shown]
  refine Separator.ends_of_meets (fun state : κ × Tally × List (Happening γ μ) × σ => state.2.2.1)
    (keeps.solve_meets begun) ?_
  rintro report after ⟨iterations, rowsAdded, -, -, closed⟩
  -- Wherever the run is closed, some phase of its course holds.
  obtain ⟨phase, held⟩ := closed.exists_holds
  exact Separator.ends_of_holds explores steady _ turns held

end Supervisor

namespace Exploration

variable [Measure μ] (exploration : Exploration ρ σ γ μ)

/--
What a run comes to where no candidate that was added is regarded again.

It takes no more than one turn for each candidate and one more, unless a call looks at more
candidates than it has turns for.
-/
def Settles (turns : Nat) (history : List (Happening γ μ)) (outOfTurns : Prop) : Prop :=
  Happening.Lasting exploration.policy.regards history →
    Happening.Exhausts exploration.candidates history ∧
      (exploration.candidates.card < turns → exploration.bound < exploration.fuel → ¬outOfTurns)

theorem settles_of_ends {turns : Nat} {history : List (Happening γ μ)} {outOfTurns : Prop}
    (ends : exploration.separator.Ends (· ∈ exploration.candidates) exploration.bound
      exploration.fuel turns history outOfTurns) :
    exploration.Settles turns history outOfTurns :=
  fun lasting => ends.exhausts (exploration.regards_separator ▸ lasting)

/--
Row generation over finitely many candidates comes to an end.

Where no candidate that was added is regarded again, each is added at most once, and there is at
most one solve more than there are candidates, whatever else happens to the measures. This holds of
the bare loop as well as under any limits, clock and watchers.
-/
theorem settles [HasStatus R S] [Status S] {solve : Action (Tally × Rotation ρ × σ) R}
    (steady : solve.Steady fun state => exploration.Stays state.2) (optimal : S) (turns : Nat)
    {start : Tally × Rotation ρ × σ} (held : exploration.Stays start.2) :
    exploration.Settles turns
        (exploration.separator.historyOf exploration.fuel solve optimal turns start)
        ((((exploration.separator.task exploration.fuel solve optimal).alternate turns).run
          start).result = .error .unfinished) ∧
      ∀ {K κ : Type} [HasObjective R K] [Scalar K]
        (supervisor : Supervisor (Tally × Rotation ρ × σ) R S Bool K),
        supervisor.task = exploration.separator.task exploration.fuel solve optimal →
        (∀ watcher ∈ supervisor.watchers, ∀ isSolved round,
          Action.Steady (watcher isSolved round) fun state => exploration.Stays state.2) →
        ∀ (clock : Clock κ K) (moment : κ), exploration.Settles turns
          (supervisor.historyOf exploration.separator exploration.fuel solve clock turns moment
            start)
          (((supervisor.solve clock turns).run (moment, start)).result = .error .unfinished) := by
  refine ⟨exploration.settles_of_ends ?_, ?_⟩
  · exact Separator.alternate_ends exploration.explores steady optimal turns held
  · intro K κ _ _ supervisor same watched clock moment
    -- The supervisor awaits the status of its task.
    have optimal : supervisor.task.optimal = optimal := congrArg Task.optimal same
    exact exploration.settles_of_ends (Supervisor.solve_ends exploration.explores steady
      (optimal ▸ same) watched clock turns moment held)

/-- What is written in lists of two, explored under a policy. -/
def written (policy : Policy) : Exploration Unit (List (Option ℚ)) Nat (Option ℚ) where
  policy := policy
  family := .written
  exceeds best measure := pure (decide (best.getD 0 < measure.getD 0))
  reorder := pure
  draw last := pure (.int last)
  fuel := 3
  kept list := list.length = 2
  inUse _ := True
  candidates := Finset.range 2
  produced := 2
  bound := 2
  produced_le := le_rfl
  enumerates list two :=
    ⟨Source.offers_ofList _ (by simp [two]) (by simp [two]), two⟩
  measures _ _ _ two := two
  commits candidate _ list two := by
    show (list.set candidate none).length = 2
    rw [List.length_set, two]
  compares _ _ _ _ two := two
  reorders _ _ offers _ two := ⟨offers, two⟩
  serves _ _ _ _ := ⟨trivial, nofun⟩

/-- Solves that write nothing and always end as awaited. -/
def solving : Action (Tally × Rotation Unit × List (Option ℚ)) (LpAnswer ℚ) :=
  pure ⟨.optimal, some 1, [], [], 0, 0, 0⟩

/-- Two candidates that are both violated, the second one more deeply. -/
def unwritten : Tally × Rotation Unit × List (Option ℚ) := (.zero, ⟨(), none⟩, [some 1, some 2])

/-- What happens until both candidates are added, the latest first. -/
def untilBoth : List (Happening Nat (Option ℚ)) :=
  [.added 0, .measured 1 none, .measured 0 (some 1), .solved,
    .added 1, .measured 1 (some 2), .measured 0 (some 1), .solved]

/-- The loop over two candidates under a limit of two iterations, watched by someone who agrees. -/
def limited :
    Supervisor (Tally × Rotation Unit × List (Option ℚ)) (LpAnswer ℚ) LpStatus Bool ℚ where
  task := (written .deepest).separator.task 3 solving .optimal
  limits := ⟨2, 0, true, true⟩
  watchers := [fun _ _ => pure true]
  last := none

/-- Both candidates are added, and then nothing is left to add, or the limit is reached. -/
theorem settles_written :
    ((written .deepest).separator.historyOf 3 solving LpStatus.optimal 3 unwritten =
        [.measured 1 none, .measured 0 none, .solved] ++ untilBoth ∧
      Happening.Exhausts (Finset.range 2)
        ((written .deepest).separator.historyOf 3 solving LpStatus.optimal 3 unwritten) ∧
      ¬((((written .deepest).separator.task 3 solving LpStatus.optimal).alternate 3).run
        unwritten).result = .error .unfinished) ∧
    limited.historyOf (written .deepest).separator 3 solving Supervisor.ticking 3 0 unwritten =
        untilBoth ∧
      Happening.Exhausts (Finset.range 2) (limited.historyOf (written .deepest).separator 3 solving
        Supervisor.ticking 3 0 unwritten) ∧
      ¬((limited.solve Supervisor.ticking 3).run (0, unwritten)).result = .error .unfinished := by
  have steady : solving.Steady fun state => (written .deepest).Stays state.2 := fun _ held => held
  have held : (written .deepest).Stays unwritten.2 := ⟨trivial, rfl⟩
  have settled := (written .deepest).settles steady LpStatus.optimal 3 held
  have enough : (written .deepest).bound < (written .deepest).fuel := by decide
  -- After its addition no candidate has a measure.
  have lasting : Happening.Lasting (written .deepest).policy.regards
      ([.measured 1 none, .measured 0 none, .solved] ++ untilBoth) := by
    simp [Happening.Lasting, untilBoth, written, Policy.regards, Measure.present]
  -- The third solve is followed by a search that finds nothing.
  have alone : (written .deepest).separator.historyOf 3 solving LpStatus.optimal 3 unwritten =
      [.measured 1 none, .measured 0 none, .solved] ++ untilBoth := rfl
  -- The limit is reached with the second addition.
  have watched : limited.historyOf (written .deepest).separator 3 solving Supervisor.ticking 3 0
      unwritten = untilBoth := rfl
  refine ⟨⟨alone, (settled.1 (alone ▸ lasting)).imp_right fun stops => stops (by decide) enough⟩,
    watched, (settled.2 limited rfl ?_ Supervisor.ticking 0 ?_).imp_right
      fun stops => stops (by decide) enough⟩
  · intro watcher member
    rw [List.mem_singleton.1 member]
    exact fun _ _ _ held => held
  · exact watched ▸ lasting.sublist (List.sublist_append_right _ _)

end Exploration

end CuttingPlanes
