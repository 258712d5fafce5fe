import CuttingPlanes.Proofs.Separator.Leading
import CuttingPlanes.Proofs.Separator.ShortCircuit
import CuttingPlanes.Proofs.Separator.Stock
import CuttingPlanes.Separator.Session

/-! Calls that go on until nothing is found add all that is violated, each once, in a known order. -/

namespace CuttingPlanes

variable {σ ν ρ γ μ : Type} [Measure μ]

namespace Stock

variable {view : σ → ν} {worth : ν → γ → μ} {stock : Stock ρ view worth} {kept : ν} {candidate : γ}
  {allowed : Interrupt → Prop} {inUse : ρ → Prop} {rotation : Rotation ρ} {state : σ}

/-- An order in which a policy may go through the candidates. -/
structure Follows (stock : Stock ρ view worth) (kept : ν) (order : List γ) : Prop where
  perm : order.Perm (stock.items kept)
  deepest : stock.policy = .deepest → order = stock.items kept
  first : stock.policy = .first → order = stock.order (stock.items kept)

/-- The candidates are enumerated in the order of the policy, unless a draw fails. -/
theorem enumerate_meets (legal : stock.legal (view state))
    (serves : stock.policy = .shuffled → stock.draw.Serves allowed inUse)
    (ready : stock.policy = .shuffled → inUse rotation.generator) :
    Action.Meets stock.separator.family.enumerate (rotation, state)
      (fun source after => (∃ order, stock.Follows (view state) order ∧
          source.Yields (Prod.map id view) (after.1, view state) order) ∧
        view after.2 = view state ∧ (stock.policy = .shuffled → inUse after.1.generator))
      fun cause _ => stock.policy = .shuffled ∧ allowed cause := by
  have produced := stock.enumerates state legal
  unfold separator
  cases policy : stock.policy with
  | deepest =>
    simp only [Separator.ofPolicy, Separator.deepest, Separator.onSecond, Family.onSecond,
      Action.meets_map, Action.meets_onSecond]
    refine produced.meets ?_ fun _ _ => False.elim
    rintro source after ⟨yields, same⟩
    have follows : stock.Follows (view state) (stock.items (view state)) :=
      ⟨.refl _, fun _ => rfl, by simp [policy]⟩
    exact ⟨⟨_, follows, yields.beside rotation⟩, same, by simp⟩
  | first =>
    simp only [Separator.ofPolicy, Separator.first, Separator.onSecond, Family.onSecond,
      Family.reordered, Action.meets_map, Action.meets_onSecond, Action.meets_bind]
    refine produced.meets ?_ fun _ _ => False.elim
    rintro source middle ⟨yields, same⟩
    -- The order is applied in a state that looks like the first one.
    have reorders := stock.reorders policy source middle (same ▸ legal) (same ▸ yields)
    rw [same] at reorders
    refine reorders.meets ?_ fun _ _ => False.elim
    rintro turned after ⟨yields, still⟩
    have follows : stock.Follows (view state) (stock.order (stock.items (view state))) :=
      ⟨stock.permutes _, by simp [policy], fun _ => rfl⟩
    exact ⟨⟨_, follows, yields.beside rotation⟩, still, by simp⟩
  | shuffled =>
    simp only [Separator.ofPolicy, Separator.shuffled, Family.onSecond, Family.reordered,
      Action.meets_bind, Action.meets_map, Action.meets_onSecond]
    refine produced.meets ?_ fun _ _ => False.elim
    rintro source middle ⟨yields, same⟩
    rw [← same] at yields
    refine (Rotation.reorder_ensures_of_yields (serves policy) (ready policy)
      (yields.beside rotation)).meets ?_ ?_
    · rintro turned after ⟨⟨order, lists, perm⟩, still, used⟩
      rw [same] at perm still
      have follows : stock.Follows (view state) order :=
        ⟨perm, by simp [policy], by simp [policy]⟩
      exact ⟨⟨order, follows, lists.yields _ _⟩, still, fun _ => used⟩
    · rintro cause after (refused | ⟨-, long⟩)
      · exact ⟨trivial, refused⟩
      · rw [same] at long
        exact absurd (stock.short _ legal) (Nat.not_lt.2 long)

/-- A policy comes upon the candidates in its order, with their measures, unless a draw fails. -/
theorem faces_or_fails (legal : stock.legal (view state))
    (serves : stock.policy = .shuffled → stock.draw.Serves allowed inUse)
    (ready : stock.policy = .shuffled → inUse rotation.generator) :
    (∃ cause, (stock.separator.family.enumerate.run (rotation, state)).result = .error cause ∧
      stock.policy = .shuffled ∧ allowed cause) ∨
    ∃ order turned, stock.Follows (view state) order ∧
      (stock.policy = .shuffled → inUse turned.generator) ∧
      stock.separator.family.Faces (Prod.map id view) (fun _ => (turned, view state))
        (rotation, state) (priced worth (view state) order) fun source =>
          source.GivesAt (Prod.map id view) (fun _ => (turned, view state))
            (priced worth (view state) order).length (.ok none) := by
  rcases Action.meets_iff.1 (enumerate_meets legal serves ready) with
    ⟨source, ran, ⟨order, follows, yields⟩, same, used⟩ | ⟨cause, ran, failed⟩
  · refine .inr ⟨order, _, follows, used, Action.ensures_iff_exists.2 ⟨source, ran, ?_, ?_, ?_⟩⟩
    · refine yields.encounters fun candidate member pair seen => ?_
      obtain ⟨first, seen⟩ := Prod.mk.inj seen
      rw [separator, Separator.ofPolicy_measure, Action.ensures_onSecond]
      refine (stock.measures state legal candidate (follows.perm.mem_iff.1 member) pair.2
        seen).mono fun measure after given => ?_
      exact ⟨given.1, Prod.ext first given.2⟩
    · exact yields.givesAt (by simp [priced])
    · exact Prod.ext rfl same
  · exact .inl ⟨cause, ran, failed⟩

/-- What a call leaves that has added a candidate. -/
structure Adds (stock : Stock ρ view worth) (inUse : ρ → Prop) (kept : ν) (tally : Tally)
    (history : List (Happening γ μ)) (candidate : γ)
    (after : Tally × List (Happening γ μ) × Rotation ρ × σ) : Prop where
  picks : stock.Picks kept candidate
  clears : stock.Clears kept (view after.2.2.2) candidate
  additions : Happening.additions after.2.1 = candidate :: Happening.additions history
  ready : stock.policy = .shuffled → inUse after.2.2.1.generator
  calls : after.1.calls = tally.calls + 1
  rowsAdded : after.1.rowsAdded = tally.rowsAdded + 1

/-- What a call leaves that has added nothing. -/
structure Ends (stock : Stock ρ view worth) (kept : ν) (tally : Tally)
    (history : List (Happening γ μ)) (after : Tally × List (Happening γ μ) × Rotation ρ × σ) :
    Prop where
  unviolated : ∀ candidate ∈ stock.items kept, stock.regards kept candidate = false
  additions : Happening.additions after.2.1 = Happening.additions history
  calls : after.1.calls = tally.calls + 1
  rowsAdded : after.1.rowsAdded = tally.rowsAdded

variable {tally : Tally} {history : List (Happening γ μ)} {turned : Rotation ρ}
  {entries : List (γ × μ)} {after : Tally × List (Happening γ μ) × Rotation ρ × σ}

/-- A candidate that is picked can be committed, and is then added. -/
theorem Picks.of_commits (picks : stock.Picks (view state) candidate)
    (legal : stock.legal (view state))
    (ready : stock.policy = .shuffled → inUse turned.generator) {result : Except Interrupt Unit}
    (commits : stock.separator.family.Commits (Prod.map id view) (turned, view state) entries tally
      history candidate result after) :
    result = .ok () ∧ stock.Adds inUse (view state) tally history candidate after := by
  obtain ⟨⟨rotation, begun⟩, log, same, ran⟩ := commits.committed
  obtain ⟨rfl, seen⟩ := Prod.mk.inj same
  rw [separator, Separator.ofPolicy_commit, Action.run_onSecond, Outcome.mk.injEq] at ran
  obtain ⟨ended, left, -⟩ := ran
  have committed := stock.commits begun (seen ▸ legal) candidate (seen ▸ picks.member)
  rw [Action.ensures_iff_exists, ended, seen] at committed
  obtain ⟨_, rfl, settled, items, absent, others⟩ := committed
  have tallied := commits.tally
  refine ⟨rfl, picks, ?_, ?_, ?_, ?_, ?_⟩
  · rw [← left]
    exact ⟨settled, items, absent, others⟩
  · rw [commits.history, Happening.additions_added, Happening.additions_looks_append]
  · rw [← left]
    exact ready
  · rw [tallied]
    rfl
  · rw [tallied]
    rfl

/-- A call that rests has added nothing. -/
theorem ends_of_rests
    (unviolated : ∀ candidate ∈ stock.items kept, stock.regards kept candidate = false)
    {last : Rotation ρ × ν} (rests : Rests (Prod.map id view) last entries tally history after) :
    stock.Ends kept tally history after := by
  refine ⟨unviolated, ?_, ?_, ?_⟩
  · rw [rests.history, Happening.additions_looks_append]
  · rw [rests.tally]
    rfl
  · rw [rests.tally]
    rfl

variable {order : List γ}

/-- The turns suffice for any order of the candidates. -/
theorem Follows.short (follows : stock.Follows kept order) (legal : stock.legal kept) :
    (priced worth kept order).length < stock.fuel := by
  simpa [priced, follows.perm.length_eq] using stock.short kept legal

/-- Every candidate comes up in the order of a policy. -/
theorem Follows.mem_priced (follows : stock.Follows kept order) {item : γ}
    (member : item ∈ stock.items kept) : (item, worth kept item) ∈ priced worth kept order :=
  List.mem_map_of_mem (follows.perm.mem_iff.2 member)

/-- The first of the greatest may be picked by the deepest policy. -/
theorem Follows.picks_of_selects (follows : stock.Follows kept order)
    (deepest : stock.policy = .deepest)
    (selects : Selects stock.beaten (priced worth kept order) (some candidate)) :
    stock.Picks kept candidate := by
  rw [follows.deepest deepest] at selects
  obtain ⟨before, measure, behind, split, leads⟩ := id selects
  obtain ⟨front, back, listed, rfl, rfl, rfl⟩ := priced_eq_append split
  refine ⟨by simp [listed], ?_, fun _ => selects, by simp [deepest]⟩
  rw [regards, deepest]
  exact leads.present

/-- A policy that is not the deepest one regards what counts. -/
theorem regards_of_ne (other : stock.policy ≠ .deepest) (kept : ν) (candidate : γ) :
    stock.regards kept candidate = Measure.countsTrue (worth kept candidate) := by
  unfold regards
  cases policy : stock.policy with
  | deepest => exact absurd policy other
  | first => rfl
  | shuffled => rfl

/-- The first violation in its order may be picked by a policy that is not the deepest one. -/
theorem Follows.picks_of_stops (follows : stock.Follows kept order)
    (other : stock.policy ≠ .deepest) {passed : List (γ × μ)} {found : γ × μ}
    (stops : Separator.StopsAt (priced worth kept order) passed found) :
    stock.Picks kept found.1 := by
  obtain ⟨candidate, measure⟩ := found
  obtain ⟨behind, split⟩ := stops.split
  obtain ⟨front, back, rfl, rfl, rfl, rfl⟩ := priced_eq_append split
  refine ⟨follows.perm.mem_iff.1 (by simp), ?_, fun deepest => absurd deepest other, fun first => ?_⟩
  · rw [regards_of_ne other]
    exact stops.violated
  · refine ⟨front, back, (follows.first first).symm, fun item ahead => ?_⟩
    rw [regards_of_ne other]
    exact stops.unviolated _ (List.mem_map_of_mem ahead)

section Search

variable (legal : stock.legal (view state)) (follows : stock.Follows (view state) order)
  (used : stock.policy = .shuffled → inUse turned.generator)
  (faces : stock.separator.family.Faces (Prod.map id view) (fun _ => (turned, view state))
    (rotation, state) (priced worth (view state) order) fun source =>
      source.GivesAt (Prod.map id view) (fun _ => (turned, view state))
        (priced worth (view state) order).length (.ok none))
  (tally : Tally) (history : List (Happening γ μ))

include legal follows used faces

/-- A call of the deepest policy adds what it may pick, and it does not fail. -/
theorem call_meets_deepest (deepest : stock.policy = .deepest) :
    Action.Meets (stock.separator.noted.call stock.fuel) (tally, history, rotation, state)
      (fun added after =>
        if added then ∃ candidate, stock.Adds inUse (view state) tally history candidate after
        else stock.Ends (view state) tally history after) fun _ _ => False := by
  have searches : stock.separator.search =
      .deepest fun best measure => (stock.exceeds best measure).onSecond := by
    rw [separator, deepest]
    rfl
  have known : ∀ entry ∈ priced worth (view state) order, Measure.present entry.2 = true →
      stock.among entry.2 := by
    intro entry member present
    obtain ⟨item, inside, rfl⟩ := List.mem_map.1 member
    exact stock.ranked deepest _ legal item (follows.perm.mem_iff.1 inside) present
  refine (Separator.noted_call_meets_deepest searches faces
    ((stock.compares deepest state legal).beside _) (stock.ranks deepest) known
    (follows.short legal) tally history).imp ?_ ?_
  · rintro (_ | _) after called
    · refine ends_of_rests (fun item member => ?_) called.2
      rw [regards, deepest]
      exact called.1 _ (follows.mem_priced member)
    · obtain ⟨candidate, selects, commits⟩ := called
      have picks := follows.picks_of_selects deepest selects
      exact ⟨candidate, (picks.of_commits legal used commits).2⟩
  · rintro cause after ⟨candidate, selects, commits⟩
    have picks := follows.picks_of_selects deepest selects
    cases (picks.of_commits legal used commits).1

/-- A call of another policy adds what it may pick as well. -/
theorem call_meets_of_ne (other : stock.policy ≠ .deepest) :
    Action.Meets (stock.separator.noted.call stock.fuel) (tally, history, rotation, state)
      (fun added after =>
        if added then ∃ candidate, stock.Adds inUse (view state) tally history candidate after
        else stock.Ends (view state) tally history after) fun _ _ => False := by
  have searches : stock.separator.search = .first := by
    unfold separator
    cases policy : stock.policy with
    | deepest => exact absurd policy other
    | first => rfl
    | shuffled => rfl
  refine (Separator.noted_call_meets_first history searches faces (follows.short legal)
    tally).imp ?_ ?_
  · rintro (_ | _) after called
    · refine ends_of_rests (fun item member => ?_) called.2
      rw [regards_of_ne other]
      exact called.1 _ (follows.mem_priced member)
    · obtain ⟨passed, found, stops, commits⟩ := called
      have picks := follows.picks_of_stops other stops
      exact ⟨found.1, (picks.of_commits legal used commits).2⟩
  · rintro cause after ⟨passed, found, stops, commits⟩
    have picks := follows.picks_of_stops other stops
    cases (picks.of_commits legal used commits).1

end Search

section Run

variable (serves : stock.policy = .shuffled → stock.draw.Serves allowed inUse)

include serves

/-- A call adds a candidate that the policy may pick, or finds that nothing is violated. -/
theorem call_meets (legal : stock.legal (view state))
    (ready : stock.policy = .shuffled → inUse rotation.generator) (tally : Tally)
    (history : List (Happening γ μ)) :
    Action.Meets (stock.separator.noted.call stock.fuel) (tally, history, rotation, state)
      (fun added after =>
        if added then ∃ candidate, stock.Adds inUse (view state) tally history candidate after
        else stock.Ends (view state) tally history after)
      fun cause _ => stock.policy = .shuffled ∧ allowed cause := by
  rcases faces_or_fails legal serves ready with
    ⟨cause, fails, refused⟩ | ⟨order, turned, follows, used, faces⟩
  · refine (Separator.noted_call_meets_of_error fails).imp (fun _ _ => False.elim) ?_
    rintro _ _ rfl
    exact refused
  · by_cases deepest : stock.policy = .deepest
    · exact (call_meets_deepest legal follows used faces tally history deepest).imp (fun _ _ => id)
        fun _ _ => False.elim
    · exact (call_meets_of_ne legal follows used faces tally history deepest).imp (fun _ _ => id)
        fun _ _ => False.elim

/-- What calls leave that go on until nothing is found. -/
structure Drained (stock : Stock ρ view worth) (kept : ν) (tally : Tally)
    (history : List (Happening γ μ)) (after : Tally × List (Happening γ μ) × Rotation ρ × σ) :
    Prop where
  calls : after.1.calls = tally.calls + (stock.violated kept).length + 1
  rowsAdded : after.1.rowsAdded = tally.rowsAdded + (stock.violated kept).length
  additions : ∃ drained, stock.Drains kept drained ∧
    Happening.additions after.2.1 = drained.reverse ++ Happening.additions history

omit serves in
/-- A call that has ended has drained all that was violated, for nothing was. -/
theorem Ends.drained_all {kept : ν} (ends : stock.Ends kept tally history after) :
    stock.Drained kept tally history after := by
  have drains := drains_nil ends.unviolated
  have empty : stock.violated kept = [] := List.nil_perm.1 drains.perm
  refine ⟨?_, ?_, [], drains, by simp [ends.additions]⟩
  · rw [ends.calls, empty, List.length_nil, Nat.add_zero]
  · rw [ends.rowsAdded, empty, List.length_nil, Nat.add_zero]

omit serves in
/-- A call that adds a candidate and the calls after it have drained all that was violated. -/
theorem Adds.drained_all [LawfulMeasure μ] {kept : ν}
    (adds : stock.Adds inUse kept tally history candidate after) (legal : stock.legal kept)
    {last : Tally × List (Happening γ μ) × Rotation ρ × σ}
    (rest : stock.Drained (view after.2.2.2) after.1 after.2.1 last) :
    stock.Drained kept tally history last := by
  obtain ⟨drained, drains, additions⟩ := rest.additions
  have length := (adds.picks.perm legal adds.clears).length_eq
  rw [List.length_cons] at length
  refine ⟨?_, ?_, candidate :: drained, adds.picks.drains legal adds.clears drains, ?_⟩
  · rw [rest.calls, adds.calls, ← length]
    omega
  · rw [rest.rowsAdded, adds.rowsAdded, ← length]
    omega
  · rw [additions, adds.additions, List.reverse_cons, List.append_assoc, List.singleton_append]

/-- Calls go on through everything that is violated, with one call more that finds nothing. -/
theorem drain_meets [LawfulMeasure μ] (legal : stock.legal (view state))
    (ready : stock.policy = .shuffled → inUse rotation.generator) (tally : Tally)
    (history : List (Happening γ μ)) (spare made : Nat) :
    Action.Meets (stock.separator.noted.drain stock.fuel
        ((stock.violated (view state)).length + 1 + spare) made) (tally, history, rotation, state)
      (fun count after => count = made + (stock.violated (view state)).length + 1 ∧
        stock.Drained (view state) tally history after)
      fun cause _ => stock.policy = .shuffled ∧ allowed cause := by
  generalize counted : (stock.violated (view state)).length = count
  induction count generalizing tally history rotation state made with
  | zero =>
    rw [Nat.add_right_comm]
    simp only [Separator.drain, Action.meets_bind]
    refine (call_meets serves legal ready tally history).mono ?_
    rintro (_ | _) after called
    · exact ⟨rfl, called.drained_all⟩
    · obtain ⟨candidate, adds⟩ := called
      have length := (adds.picks.perm legal adds.clears).length_eq
      rw [counted] at length
      cases length
  | succ count ih =>
    rw [Nat.add_right_comm]
    simp only [Separator.drain, Action.meets_bind]
    refine (call_meets serves legal ready tally history).mono ?_
    rintro (_ | _) after called
    · -- Something is violated, so that the calls cannot end here.
      have empty := List.nil_perm.1 (drains_nil called.unviolated).perm
      rw [empty] at counted
      cases counted
    · obtain ⟨candidate, adds⟩ := called
      have length := (adds.picks.perm legal adds.clears).length_eq
      rw [counted] at length
      refine (ih adds.clears.legal adds.ready after.1 after.2.1 (made + 1)
        (Nat.succ.inj length)).mono fun total last drained => ⟨?_, ?_⟩
      · rw [drained.1]
        omega
      · exact adds.drained_all legal drained.2

end Run

end Stock

/-- Calling until nothing is found shows the same calls of the other separator. -/
theorem Separator.Shows.drain {τ : Type} {view : τ → σ} {shown : Separator τ γ μ}
    {separator : Separator σ γ μ} (shows : shown.Shows view separator) (fuel left made : Nat) :
    Action.Shows (Prod.map id view) Eq (shown.drain fuel left made)
      (separator.drain fuel left made) := by
  induction left generalizing made with
  | zero => exact Action.shows_pure rfl
  | succ left ih =>
    refine (shows.call fuel).andThen fun added => ?_
    cases added with
    | false => exact Action.shows_pure rfl
    | true => exact ih (made + 1)

namespace Stock

/--
Calling a policy until it finds nothing adds all that is violated, each once.

There is one call for each violated candidate and one more that finds nothing. The deepest policy
adds them as a stable sort by descending measure has them, and the first one in its order. Only a
draw may fail.
-/
theorem drain_adds_violated [LawfulMeasure μ] {view : σ → ν} {worth : ν → γ → μ}
    (stock : Stock ρ view worth) {allowed : Interrupt → Prop} {inUse : ρ → Prop}
    (rotation : Rotation ρ) (state : σ) (legal : stock.legal (view state))
    (serves : stock.policy = .shuffled → stock.draw.Serves allowed inUse)
    (ready : stock.policy = .shuffled → inUse rotation.generator) (tally : Tally)
    (history : List (Happening γ μ)) (spare : Nat) :
    let violated := stock.violated (view state)
    let left := violated.length + 1 + spare
    Action.Meets (stock.separator.noted.drain stock.fuel left 0) (tally, history, rotation, state)
      (fun made after => made = violated.length + 1 ∧
        after.1.calls = tally.calls + violated.length + 1 ∧
        after.1.rowsAdded = tally.rowsAdded + violated.length ∧
        ∃ drained, Happening.additions after.2.1 = drained.reverse ++ Happening.additions history ∧
          drained.Nodup ∧ drained.Perm violated ∧
          (stock.policy = .deepest →
            IsStablySorted stock.beaten (worth (view state)) violated drained) ∧
          (stock.policy = .first →
            drained = (stock.order (stock.items (view state))).filter fun candidate =>
              Measure.countsTrue (worth (view state) candidate)))
      (fun cause _ => stock.policy = .shuffled ∧ allowed cause) ∧
    ((stock.separator.drain stock.fuel left 0).run (tally, rotation, state)).result =
      ((stock.separator.noted.drain stock.fuel left 0).run
        (tally, history, rotation, state)).result := by
  intro violated left
  constructor
  · refine (drain_meets serves legal ready tally history spare 0).mono ?_
    rintro made after ⟨counted, all⟩
    obtain ⟨drained, drains, additions⟩ := all.additions
    have distinct : violated.Nodup := (stock.distinct _ legal).filter _
    refine ⟨by rw [counted, Nat.zero_add], all.calls, all.rowsAdded, drained, additions,
      drains.perm.nodup_iff.2 distinct, drains.perm, drains.sorted, fun first => ?_⟩
    rw [drains.scanned first]
    refine List.filter_congr fun candidate _ => ?_
    exact regards_of_ne (by simp [first]) _ _
  · exact ((stock.separator.shows_noted.drain stock.fuel left 0).result_eq
      (tally, history, rotation, state)).symm

end Stock

/-- Listed candidates with measures that can be changed one by one. -/
def Family.priced [DecidableEq γ] (items : List γ) : Family (γ → Option ℚ) γ (Option ℚ) where
  enumerate := pure (Source.ofList items)
  measure candidate := do return (← Action.get) candidate
  commit candidate := Action.modify fun worth => Function.update worth candidate none
  describe _ := ""

namespace Stock

/-- Listed candidates under any measures; the last of them comes first for the first policy. -/
def listed [DecidableEq γ] (policy : Policy) (items : List γ) (distinct : items.Nodup) :
    Stock Unit (id : (γ → Option ℚ) → γ → Option ℚ) fun worth candidate => worth candidate where
  policy := policy
  family := .priced items
  exceeds best measure := pure (decide (best.getD 0 < measure.getD 0))
  reorder := Reordering.reversed.apply (items.length + 1)
  draw last := pure (.int last)
  fuel := items.length + 1
  legal _ := True
  items _ := items
  order := List.reverse
  beaten best measure := decide (best.getD 0 < measure.getD 0)
  among _ := True
  distinct _ _ := distinct
  short _ _ := Nat.lt_succ_self _
  enumerates _ _ := ⟨(Source.lists_ofList _).yields _ _, rfl⟩
  measures := by
    rintro asked - candidate - _ rfl
    exact ⟨rfl, rfl⟩
  commits := by
    intro worth _ candidate _
    refine Action.ensures_modify.2 ⟨trivial, rfl, ?_, fun other _ apart => ?_⟩
    · simp [Measure.present]
    · simp [apart]
  ranks _ := Ranks.of_key (fun measure => measure.getD 0) fun _ _ _ _ => decide_eq_true_iff
  ranked _ _ _ _ _ _ := trivial
  compares _ _ _ _ _ _ _ _ _ same := ⟨rfl, same⟩
  permutes list := List.reverse_perm list
  reorders := by
    intro _ source worth _ yields
    simp only [Reordering.apply, Source.collect, Action.ensures_bind, Action.ensures_pure]
    refine ((yields.collectFrom_ensures (Nat.zero_le _) rfl).weaken fun cause short => ?_).mono ?_
    · exact absurd short.2 (by simp)
    · rintro _ after ⟨rfl, same⟩
      exact ⟨(Source.lists_ofList _).yields _ _, same⟩

/-- The positions of a short list. -/
def positions (policy : Policy) :
    Stock Unit (id : (Nat → Option ℚ) → Nat → Option ℚ) fun worth candidate => worth candidate :=
  listed policy (List.range 5) List.nodup_range

/-- What is written at them; two of the greatest measures are tied, and zero is one as well. -/
def prices : Nat → Option ℚ := writtenAt [some 1, none, some 3, some 3, some 0]

/-- Every policy drains the positions in its order; zero is a violation for the deepest one only. -/
theorem drain_adds_positions :
    let run (policy : Policy) :=
      ((positions policy).separator.noted.drain 6 9 0).run (.zero, [], ⟨(), none⟩, prices)
    let added (policy : Policy) := (Happening.additions (run policy).state.2.1).reverse
    ((run .deepest).result = .ok 5 ∧ added .deepest = [2, 3, 0, 4] ∧
      IsStablySorted (positions .deepest).beaten prices [0, 2, 3, 4] (added .deepest)) ∧
    ((run .first).result = .ok 4 ∧ added .first = [3, 2, 0]) ∧
    (run .shuffled).result = .ok 4 ∧ (added .shuffled).Perm [0, 2, 3] := by
  intro run added
  -- Offsets that are whole numbers serve.
  have serves (policy : Policy) :
      (positions policy).draw.Serves (fun _ => False) fun _ => True := by
    intro last generator _
    exact ⟨trivial, fun fault refused => by cases refused⟩
  have meets (policy : Policy) (spare : Nat) :=
    ((positions policy).drain_adds_violated ⟨(), none⟩ prices trivial (fun _ => serves policy)
      (fun _ => trivial) .zero [] spare).1
  refine ⟨⟨rfl, rfl, ?_⟩, ⟨rfl, rfl⟩, rfl, ?_⟩
  · obtain ⟨-, -, -, drained, additions, -, -, sorted, -⟩ := (meets .deepest 4).of_ok rfl
    have same : added .deepest = drained :=
      (congrArg List.reverse additions).trans (by simp [Happening.additions])
    exact same ▸ sorted rfl
  · obtain ⟨-, -, -, drained, additions, -, perm, -, -⟩ := (meets .shuffled 5).of_ok rfl
    have same : added .shuffled = drained :=
      (congrArg List.reverse additions).trans (by simp [Happening.additions])
    exact same ▸ perm

end Stock

end CuttingPlanes
