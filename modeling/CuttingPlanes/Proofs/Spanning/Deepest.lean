import CuttingPlanes.Proofs.Relaxation.Request
import CuttingPlanes.Proofs.Separator.Exact
import CuttingPlanes.Proofs.Separator.Leading
import CuttingPlanes.Proofs.Separator.Turning
import CuttingPlanes.Proofs.Spanning.Separation

/-! Subtour cuts are separated exactly, and the deepest policy takes the first of the deepest. -/

namespace CuttingPlanes.Spanning

variable {β ρ L : Type}

namespace Problem

variable (problem : Problem ℚ Nat L) (point : Fin problem.edges.length → ℚ)

/-- The total of a point over the edges that have both ends in a set. -/
def load (nodes : List Nat) : ℚ :=
  ∑ position with (problem.edges.get position).within nodes, point position

/-- How far the load of a set is above one less than its size. -/
def overload (nodes : List Nat) : ℚ := problem.load point nodes - (nodes.length - 1)

/-- The deepest cut at a point: of several that are as deep the smallest, and then the first. -/
structure IsDeepest (nodes : List Nat) : Prop where
  cut : IsCutSet problem.size nodes
  greatest : ∀ other, IsCutSet problem.size other →
    problem.overload point other ≤ problem.overload point nodes
  least : ∀ other, IsCutSet problem.size other → other ≠ nodes →
    problem.overload point other = problem.overload point nodes →
      List.Shortlex (· < ·) nodes other

end Problem

namespace Subtours

variable {cuts : Subtours ℚ Nat L} {record : Relaxation ℚ Nat String}
  {point : Fin cuts.problem.edges.length → ℚ}

/-- Every edge has a column of its own in a program, the current values of which are a point. -/
structure Sees (cuts : Subtours ℚ Nat L) (record : Relaxation ℚ Nat String)
    (point : Fin cuts.problem.edges.length → ℚ) : Prop where
  placed : cuts.Placed
  known : ∀ position : Fin cuts.problem.edges.length,
    cuts.columnAt position < record.columns.length
  values : ∀ position : Fin cuts.problem.edges.length,
    record.values[cuts.columnAt position]? = some (point position)

/-- The row of a set is exceeded as far as its load is above one less than its size. -/
theorem Sees.distance_eq (sees : cuts.Sees record point) (nodes : List Nat) :
    (cuts.cutRow nodes).distance record.values = cuts.problem.overload point nodes := by
  have values : ∀ position : Fin cuts.problem.edges.length,
      record.values.getD (cuts.columnAt position) 0 = point position := by
    intro position
    rw [List.getD_eq_getElem?_getD, sees.values, Option.getD_some]
  have activity : (cuts.cutRow nodes).linear.activity record.values =
      cuts.problem.load point nodes := by
    rw [cutRow, Problem.activity_rowOver, Problem.innerPositions, List.map_map, List.map_map,
      Problem.load, ← Problem.sum_filter_finRange]
    exact congrArg List.sum (List.map_congr_left fun position _ => values position)
  show (cuts.cutRow nodes).linear.activity record.values - (nodes.length - 1) = _
  rw [activity, Problem.overload]

/-- What the measure of a set is at the current values. -/
def worth (cuts : Subtours ℚ Nat L) (state : Relaxation ℚ Nat String × β) (nodes : List Nat) :
    Option ℚ :=
  beyond cuts.tolerance ((cuts.cutRow nodes).distance state.1.values)

section Worth

variable {state : Relaxation ℚ Nat String × β} {nodes : List Nat}

theorem Sees.worth_eq (sees : cuts.Sees state.1 point) (nodes : List Nat) :
    cuts.worth state nodes = beyond cuts.tolerance (cuts.problem.overload point nodes) := by
  rw [worth, sees.distance_eq]

/-- Only sets whose load is above what is tolerated have a measure. -/
theorem Sees.present_worth (sees : cuts.Sees state.1 point) :
    Measure.present (cuts.worth state nodes) = true ↔
      cuts.tolerance < cuts.problem.overload point nodes := by
  rw [sees.worth_eq, beyond]
  split <;> simp_all [Measure.present]

theorem Sees.worth_of_violated (sees : cuts.Sees state.1 point)
    (violated : cuts.tolerance < cuts.problem.overload point nodes) :
    cuts.worth state nodes = some (cuts.problem.overload point nodes) := by
  rw [sees.worth_eq, beyond, if_pos violated]

end Worth

variable {backend : Backend β ℚ Nat String}

/-- Measuring a set changes nothing. -/
theorem Placed.measure_eq (placed : cuts.Placed) (nodes : List Nat)
    (state : Relaxation ℚ Nat String × β) {allowed : Interrupt → Prop} :
    Action.Ensures ((cuts.family backend).measure nodes) state allowed fun measure after =>
      measure = cuts.worth state nodes ∧ after = state := by
  simp only [family, Action.ensures_bind, Action.ensures_get, excess_of_row (placed.row_eq nodes),
    Action.ofExcept_ok, Action.ensures_pure]
  exact ⟨rfl, trivial⟩

/-- Committing a set records its row, and hands it to the backend. -/
theorem Sees.commit_ends {state : Relaxation ℚ Nat String × β} (sees : cuts.Sees state.1 point)
    (nodes : List Nat) :
    ((cuts.family backend).commit nodes).ends state =
      let handed := (backend.addRow (cuts.cutRow nodes)).ends state.2
      (handed.1, state.1.withRow (cuts.cutRow nodes), handed.2) := by
  have made : Relaxation.makeRow state.1.columns.length (cuts.cutRow nodes) =
      .ok (cuts.cutRow nodes) := by
    refine Problem.makeRow_rowOver (fun column member => ?_) _ _ _
    obtain ⟨position, inner, rfl⟩ := List.mem_map.1 member
    exact sees.known ⟨position, cuts.problem.lt_of_mem_innerPositions inner⟩
  have named : Relaxation.checkName (cuts.cutRow nodes).name = .ok () := rfl
  refine Action.ends_eq_of_meets ?_
  simp only [family, sees.placed.row_eq nodes, Action.ofExcept_ok, pure_bind, Action.meets_bind,
    Action.meets_pure]
  refine Relaxation.meets_addRow.2 ?_
  rw [made]
  dsimp only
  rw [named]
  -- The row is in the record by the time that the backend is asked.
  refine (Action.meets_ends _ _).imp (fun _ held ended => ?_) fun cause held ended => ?_
  · rw [ended]
  · rw [ended]

section Call

variable {compare : Option ℚ → Option ℚ → Action (Relaxation ℚ Nat String × β) Bool}
  {reorder : Source (Relaxation ℚ Nat String × β) (List Nat) →
    Action (Relaxation ℚ Nat String × β) (Source (Relaxation ℚ Nat String × β) (List Nat))}
  {draw : Random.Draw ρ} {fuel : Nat} {policy : Policy} {state : Relaxation ℚ Nat String × β}

/-- A comparison of two excesses that always gives an answer and changes nothing. -/
def Answers (compare : Option ℚ → Option ℚ → Action (Relaxation ℚ Nat String × β) Bool) : Prop :=
  ∀ best measure state, Action.Ensures (compare (some best) (some measure)) state
    (fun _ => False) fun _ after => after = state

/-- An order that only changes in which order sets are produced, if its turns suffice for them. -/
def Permutes (fuel : Nat) (reorder : Source (Relaxation ℚ Nat String × β) (List Nat) →
    Action (Relaxation ℚ Nat String × β) (Source (Relaxation ℚ Nat String × β) (List Nat))) :
    Prop :=
  ∀ source items state, source.Yields id state items →
    Action.Ensures (reorder source) state (fun cause => cause = .unfinished ∧ fuel ≤ items.length)
      fun turned after => (∃ order, turned.Yields id state order ∧ order.Perm items) ∧ after = state

/-- The sets are listed as they are enumerated. -/
theorem subsets_yields (size : Nat) (state : Relaxation ℚ Nat String × β) :
    (subsets size : Source (Relaxation ℚ Nat String × β) (List Nat)).Yields id state
      (cutSets size) := by
  have lists : (subsets size : Source (Relaxation ℚ Nat String × β) (List Nat)).Lists
      (cutSets size) := subsets_next size
  exact lists.yields id state

/-- The search of a policy for a violated set, with a comparison and an order of its own. -/
def inquiry (placed : cuts.Placed) (backend : Backend β ℚ Nat String) (policy : Policy)
    (draw : Random.Draw ρ) (fuel : Nat) (answers : policy = .deepest → Answers compare)
    (permutes : policy = .first → Permutes fuel reorder) :
    Inquiry ρ (id : Relaxation ℚ Nat String × β → Relaxation ℚ Nat String × β) cuts.worth where
  policy := policy
  family := cuts.family backend
  exceeds := compare
  reorder := reorder
  draw := draw
  fuel := fuel
  members _ := cutSets cuts.problem.size
  enumerates state := ⟨subsets_yields cuts.problem.size state, rfl⟩
  measures asked nodes _ state same := by
    obtain rfl : state = asked := same
    exact placed.measure_eq nodes state
  compares deepest asked best _ nodes _ held present state same := by
    obtain ⟨excess, known⟩ := Option.isSome_iff_exists.1 held
    obtain ⟨other, found⟩ := Option.isSome_iff_exists.1 present
    obtain rfl : state = asked := same
    rw [known, found]
    exact answers deepest excess other state
  reorders first source items state yields := permutes first source items state yields

/-- A policy takes a set for violated where its load is above what is tolerated. -/
theorem violates_inquiry (placed : cuts.Placed) (answers : policy = .deepest → Answers compare)
    (permutes : policy = .first → Permutes fuel reorder) (sees : cuts.Sees state.1 point)
    (nonneg : 0 ≤ cuts.tolerance) (nodes : List Nat) :
    (inquiry placed backend policy draw fuel answers permutes).violates state nodes = true ↔
      cuts.tolerance < cuts.problem.overload point nodes := by
  show policy.regards (cuts.worth state nodes) = true ↔ _
  rw [sees.worth_eq]
  exact regards_beyond policy nonneg _

/-- A call rests where no set is violated, and otherwise commits a violated set of some kind. -/
inductive Commits (cuts : Subtours ℚ Nat L) (backend : Backend β ℚ Nat String)
    (point : Fin cuts.problem.edges.length → ℚ) (state : Relaxation ℚ Nat String × β)
    (kind : List Nat → Prop) : Except Interrupt Bool → Relaxation ℚ Nat String × β → Prop
  | rests (kept : ∀ nodes, IsCutSet cuts.problem.size nodes →
      cuts.problem.overload point nodes ≤ cuts.tolerance) :
      Commits cuts backend point state kind (.ok false) state
  | adds {nodes : List Nat} {made : Except Interrupt Unit} {after : Relaxation ℚ Nat String × β}
      (cut : IsCutSet cuts.problem.size nodes)
      (violated : cuts.tolerance < cuts.problem.overload point nodes) (chosen : kind nodes)
      (ended : ((cuts.family backend).commit nodes).ends state = (made, after)) :
      Commits cuts backend point state kind ((fun _ => true) <$> made) after

/-- Under every policy a call commits one violated set, or there is none. -/
theorem call_commits (answers : policy = .deepest → Answers compare)
    (permutes : policy = .first → Permutes fuel reorder) (sees : cuts.Sees state.1 point)
    (nonneg : 0 ≤ cuts.tolerance) {inUse : ρ → Prop} {rotation : Rotation ρ}
    (serves : policy = .shuffled → draw.Serves (fun _ => False) inUse)
    (ready : policy = .shuffled → inUse rotation.generator)
    (enough : (cutSets cuts.problem.size).length < fuel) (tally : Tally) :
    let ended :=
      ((Separator.ofPolicy policy (cuts.family backend) compare reorder draw fuel).call fuel).ends
        (tally, rotation, state)
    cuts.Commits backend point state (fun _ => True) ended.1 ended.2.2.2 := by
  have violates : ∀ nodes,
      (inquiry sees.placed backend policy draw fuel answers permutes).violates state nodes = true ↔
        cuts.tolerance < cuts.problem.overload point nodes :=
    violates_inquiry sees.placed answers permutes sees nonneg
  -- Values and failures are committed in the same way, so that one statement covers all ends.
  refine @Action.Meets.of_ends _ _ _ _ (fun result after =>
    cuts.Commits backend point state (fun _ => True) result (Prod.snd (Prod.snd after))) ?_
  refine ((inquiry sees.placed backend policy draw fuel answers permutes).call_commits tally
    rotation state serves ready).imp ?_ ?_
  · rintro (_ | _) after called
    · -- A call that has found nothing has seen every set.
      obtain ⟨rfl, none⟩ := called
      refine .rests fun nodes cut => not_lt.1 fun violated => ?_
      exact Bool.false_ne_true
        ((none nodes (mem_cutSets.2 cut)).symm.trans ((violates nodes).2 violated))
    · obtain ⟨nodes, member, violated, begun, rfl, ended⟩ := called
      exact .adds (mem_cutSets.1 member) ((violates nodes).1 violated) trivial ended
  · rintro cause after ((⟨⟨⟩⟩ | ⟨-, short⟩) | ⟨nodes, member, violated, begun, rfl, ended⟩)
    -- The turns suffice for all sets, so that only the commit can have failed.
    · exact absurd short (Nat.not_le.2 enough)
    · exact .adds (mem_cutSets.1 member) ((violates nodes).1 violated) trivial ended

section Deepest

/-- Whether an excess is less than another one; one that is missing is neither. -/
def below (best measure : Option ℚ) : Bool := best.any fun held => measure.any (held < ·)

@[simp] theorem below_some (held found : ℚ) :
    below (some held) (some found) = decide (held < found) := rfl

/-- Excesses are ranked by their size. -/
theorem ranks_below : Ranks below (Measure.present · = true) := by
  refine Ranks.of_key (Option.getD · 0) fun best measure held found => ?_
  obtain ⟨excess, rfl⟩ := Option.isSome_iff_exists.1 held
  obtain ⟨other, rfl⟩ := Option.isSome_iff_exists.1 found
  simp

/-- All sets, each with its measure. -/
def priced (cuts : Subtours ℚ Nat L) (state : Relaxation ℚ Nat String × β) :
    List (List Nat × Option ℚ) :=
  (cutSets cuts.problem.size).map fun nodes => (nodes, cuts.worth state nodes)

/-- The sets are come upon one after another with their measures, and nothing behind them. -/
theorem Placed.faces_priced (placed : cuts.Placed) (state : Relaxation ℚ Nat String × β) :
    (cuts.family backend).Faces id (fun _ => state) state (cuts.priced state) fun source =>
      source.GivesAt id (fun _ => state) (cuts.priced state).length (.ok none) := by
  have yields := subsets_yields cuts.problem.size state
  refine ⟨yields.encounters fun nodes _ state' same => ?_, yields.givesAt (by simp [priced]), rfl⟩
  obtain rfl : state' = state := same
  exact placed.measure_eq nodes state'

/-- The first of the greatest excesses is that of the deepest cut, which is violated. -/
theorem isDeepest_of_selects (sees : cuts.Sees state.1 point) {nodes : List Nat}
    (selected : Selects below (cuts.priced state) (some nodes)) :
    cuts.problem.IsDeepest point nodes ∧
      cuts.tolerance < cuts.problem.overload point nodes := by
  -- The entries before and behind the chosen one are those of the sets before and behind it.
  obtain ⟨before, measure, rest, split, leads⟩ := selected
  obtain ⟨earlier, others, sets, rfl, behind⟩ := List.map_eq_append_iff.1 split
  obtain ⟨_, later, rfl, entry, rfl⟩ := List.map_eq_cons_iff.1 behind
  obtain ⟨rfl, rfl⟩ := Prod.mk.inj entry
  have violated := sees.present_worth.1 leads.present
  refine ⟨⟨mem_cutSets.1 (by simp [sets]), fun other cut => ?_, fun other cut different same => ?_⟩,
    violated⟩
  · -- A set that is not violated has a smaller load, and any other one has been compared.
    by_cases exceeded : cuts.tolerance < cuts.problem.overload point other
    · have unbeaten := leads.unbeaten (other, cuts.worth state other)
        (split ▸ List.mem_map_of_mem (mem_cutSets.2 cut)) (sees.present_worth.2 exceeded)
      simpa [sees.worth_of_violated exceeded, sees.worth_of_violated violated] using unbeaten
    · exact (not_lt.1 exceeded).trans violated.le
  · have exceeded : cuts.tolerance < cuts.problem.overload point other := same ▸ violated
    have member := mem_cutSets.2 cut
    rw [sets] at member
    rcases List.mem_append.1 member with before | this
    · -- A set before the chosen one would have been beaten by it.
      have beaten := leads.behind (other, cuts.worth state other) (List.mem_map_of_mem before)
        (sees.present_worth.2 exceeded)
      simp [sees.worth_of_violated exceeded, sees.worth_of_violated violated, same] at beaten
    · -- A set behind the chosen one is larger, or follows it by its members.
      have order := pairwise_cutSets cuts.problem.size
      rw [sets, List.pairwise_append, List.pairwise_cons] at order
      exact order.2.1.1 other ((List.mem_cons.1 this).resolve_left different)

/-- The default comparison of excesses leaves everything as it is. -/
theorem compares_below :
    ComparesInView (exceeds : Option ℚ → Option ℚ → Action (Relaxation ℚ Nat String × β) Bool) id
      (fun _ => state) (Measure.present · = true) below := by
  intro best measure held found _ state' same
  obtain ⟨excess, rfl⟩ := Option.isSome_iff_exists.1 held
  obtain ⟨other, rfl⟩ := Option.isSome_iff_exists.1 found
  simpa [exceeds] using same

/-- With the default comparison the deepest policy commits the deepest cut. -/
theorem deepest_commits (sees : cuts.Sees state.1 point)
    (enough : (cutSets cuts.problem.size).length < fuel) (tally : Tally) :
    let ended := ((Separator.deepest (cuts.family backend) exceeds).call fuel).ends (tally, state)
    cuts.Commits backend point state (cuts.problem.IsDeepest point) ended.1 ended.2.2 := by
  have searches : (Separator.deepest (cuts.family backend) exceeds).search = .deepest exceeds := rfl
  have met := Separator.noted_call_meets_deepest searches (sees.placed.faces_priced state)
    compares_below ranks_below (fun _ _ present => present) (by simpa [priced] using enough) tally
    []
  have chosen : ∀ nodes, Selects below (cuts.priced state) (some nodes) → ∀ {result after},
      (∃ begun log, id begun = state ∧
        ((cuts.family backend).commit nodes).run begun = ⟨result, after, log⟩) →
      cuts.Commits backend point state (cuts.problem.IsDeepest point)
        ((fun _ => true) <$> result) after := by
    rintro nodes selected result after ⟨begun, log, same, ran⟩
    obtain rfl : begun = state := same
    obtain ⟨deepest, violated⟩ := isDeepest_of_selects sees selected
    exact .adds deepest.cut violated deepest (by rw [Action.ends, ran])
  refine @Action.Meets.of_ends _ _ _ _ (fun result after =>
    cuts.Commits backend point state (cuts.problem.IsDeepest point) result (Prod.snd after)) ?_
  refine (Separator.meets_call []).2 (met.imp ?_ ?_)
  · rintro (_ | _) after called
    · have still : after.2.2 = state := called.2.still
      rw [still]
      refine .rests fun nodes cut => not_lt.1 fun violated => ?_
      -- A set that is violated would have had a measure.
      have absent := called.1 (nodes, cuts.worth state nodes)
        (List.mem_map_of_mem (mem_cutSets.2 cut))
      exact Bool.false_ne_true (absent.symm.trans (sees.present_worth.2 violated))
    · obtain ⟨nodes, selected, committed⟩ := called
      exact chosen nodes selected committed.committed
  · rintro cause after ⟨nodes, selected, committed⟩
    exact chosen nodes selected committed.committed

end Deepest

/-- What a call does that separates a point: it adds the row of a violated set, unless none is. -/
structure Separates (cuts : Subtours ℚ Nat L) (backend : Backend β ℚ Nat String)
    (point : Fin cuts.problem.edges.length → ℚ) (state : Relaxation ℚ Nat String × β)
    (kind : List Nat → Prop) (result : Except Interrupt Bool)
    (after : Relaxation ℚ Nat String × β) : Prop where
  none_iff : result = .ok false ↔ ∀ nodes, IsCutSet cuts.problem.size nodes →
    cuts.problem.load point nodes ≤ nodes.length - 1 + cuts.tolerance
  /-- Nothing changes where nothing is added. -/
  still : result = .ok false → after = state
  /-- The row is recorded, and the backend decides whether the call fails. -/
  adds : result ≠ .ok false → ∃ nodes, IsCutSet cuts.problem.size nodes ∧
    nodes.length - 1 + cuts.tolerance < cuts.problem.load point nodes ∧ kind nodes ∧
      let handed := (backend.addRow (cuts.cutRow nodes)).ends state.2
      result = (fun _ => true) <$> handed.1 ∧
        after = (state.1.withRow (cuts.cutRow nodes), handed.2)

theorem Separates.imp {kind other : List Nat → Prop} {result : Except Interrupt Bool}
    {after : Relaxation ℚ Nat String × β}
    (separates : cuts.Separates backend point state kind result after)
    (follows : ∀ nodes, kind nodes → other nodes) :
    cuts.Separates backend point state other result after := by
  refine ⟨separates.none_iff, separates.still, fun some => ?_⟩
  obtain ⟨nodes, cut, exceeded, chosen, added⟩ := separates.adds some
  exact ⟨nodes, cut, exceeded, follows nodes chosen, added⟩

/-- What is committed is added as a row, and what is not violated is kept. -/
theorem Commits.separates {kind : List Nat → Prop} {result : Except Interrupt Bool}
    {after : Relaxation ℚ Nat String × β} (sees : cuts.Sees state.1 point)
    (commits : cuts.Commits backend point state kind result after) :
    cuts.Separates backend point state kind result after := by
  have kept : ∀ nodes, cuts.problem.load point nodes ≤ nodes.length - 1 + cuts.tolerance ↔
      cuts.problem.overload point nodes ≤ cuts.tolerance := by
    intro nodes
    rw [Problem.overload, sub_le_iff_le_add, add_comm]
  -- Whether a set is violated is asked in two ways, of its load and of what is too much of it.
  cases commits with
  | rests none =>
    exact ⟨iff_of_true rfl fun nodes cut => (kept nodes).2 (none nodes cut), fun _ => rfl,
      fun no => absurd rfl no⟩
  | @adds nodes made after cut violated chosen ended =>
    have exceeded : ¬cuts.problem.load point nodes ≤ nodes.length - 1 + cuts.tolerance :=
      (kept nodes).not.2 (not_le.2 violated)
    rw [sees.commit_ends] at ended
    obtain ⟨rfl, rfl⟩ := Prod.mk.inj ended
    -- What the backend gives is turned into an answer that something has been added.
    have added : (fun _ => true) <$> ((backend.addRow (cuts.cutRow nodes)).ends state.2).1 ≠
        .ok false := by
      cases ((backend.addRow (cuts.cutRow nodes)).ends state.2).1 <;> nofun
    exact ⟨iff_of_false added fun all => exceeded (all nodes cut), fun no => absurd no added,
      fun _ => ⟨nodes, cut, not_le.1 exceeded, chosen, rfl, rfl⟩⟩

/--
Subtour cuts are separated exactly, at every point and under every policy.

A call says that there is nothing to add where no set of nodes has too great a load, and otherwise
adds the row of a set that has. With the default comparison the deepest policy adds the deepest cut,
of several that are as deep the smallest, and of these the first by its sorted nodes.
-/
theorem call_separates (answers : policy = .deepest → Answers compare)
    (permutes : policy = .first → Permutes fuel reorder) (sees : cuts.Sees state.1 point)
    (nonneg : 0 ≤ cuts.tolerance) (rotation : Rotation ρ)
    (draws : policy = .shuffled →
      ∃ inUse, draw.Serves (fun _ => False) inUse ∧ inUse rotation.generator)
    (enough : (cutSets cuts.problem.size).length < fuel) (tally : Tally) :
    let ended :=
      ((Separator.ofPolicy policy (cuts.family backend) compare reorder draw fuel).call fuel).ends
        (tally, rotation, state)
    cuts.Separates backend point state
      (fun nodes => policy = .deepest → compare = exceeds → cuts.problem.IsDeepest point nodes)
      ended.1 ended.2.2.2 := by
  -- Only with the default comparison is it known which of the violated sets is taken.
  by_cases default : policy = .deepest ∧ compare = exceeds
  · obtain ⟨rfl, rfl⟩ := default
    rw [Separator.ofPolicy, Separator.call_onSecond, Action.ends_past]
    exact ((deepest_commits sees enough tally).separates sees).imp fun _ deepest _ _ => deepest
  · obtain ⟨inUse, serves, ready⟩ := Random.Draw.exists_inUse draws
    refine ((call_commits answers permutes sees nonneg serves ready enough tally).separates
      sees).imp fun _ _ deepest same => ?_
    exact absurd ⟨deepest, same⟩ default

end Call

/-- Four nodes, of which the first two and the last two are joined twice, with columns turned. -/
def paired : Subtours ℚ Nat Nat where
  problem := ⟨4, [⟨0, 1, 1⟩, ⟨1, 0, 2⟩, ⟨2, 3, 1⟩, ⟨3, 2, 2⟩], .listed [0, 1, 2, 3], .nothing⟩
  columns := [3, 2, 1, 0]
  tolerance := 1 / 4

/-- A program with four columns, the last answer to which gives them values. -/
def answeredWith (values : List ℚ) : Relaxation ℚ Nat String where
  objective := .least
  columns := List.replicate 4 ⟨1, 0, some 1, none⟩
  rows := []
  names := []
  last := some ⟨.optimal, none, values, [], 0, 0, 0⟩

/-- A backend that lists the rows that it is handed, and never solves. -/
def ledger : Backend (List (Row ℚ Nat String)) ℚ Nat String where
  addColumn _ := pure ()
  addRow row := Action.modify fun rows => rows ++ [row]
  before := pure ()
  solve _ _ := Action.unfinished
  after := pure

/-- How a call ends for the deepest cut of the pairs, where every edge is taken. -/
def pairedCall : Except Interrupt Bool × Tally × Rotation Unit × Relaxation ℚ Nat String ×
    List (Row ℚ Nat String) :=
  ((Separator.ofPolicy .deepest (paired.family ledger) exceeds pure
    (fun last => pure (.int last)) 16).call 16).ends
      (.zero, ⟨(), none⟩, answeredWith [1, 1, 1, 1], [])

/-- Two pairs are joined too often by as much, and the row of the first one is added. -/
theorem call_separates_paired :
    pairedCall.2.2.2.2.map Row.name = [some "subtour_0_1"] ∧
      ∃ nodes, paired.problem.IsDeepest (fun _ => 1) nodes ∧ pairedCall.1 = .ok true ∧
        pairedCall.2.2.2.2 = [paired.cutRow nodes] := by
  have sees : paired.Sees (answeredWith [1, 1, 1, 1]) (fun _ => 1) :=
    ⟨⟨by decide, by decide⟩, by decide, by decide⟩
  have answers : Answers (exceeds : Option ℚ → Option ℚ →
      Action (Relaxation ℚ Nat String × List (Row ℚ Nat String)) Bool) := by
    intro best measure state
    simp [exceeds]
  have separates : paired.Separates ledger (fun _ => 1) (answeredWith [1, 1, 1, 1], []) _
      pairedCall.1 pairedCall.2.2.2 :=
    call_separates (fun _ => answers) (by simp) sees (by decide +kernel) _ (by simp) (by decide) _
  have exceeded : pairedCall.1 ≠ .ok false := by
    intro none
    have kept := separates.none_iff.1 none [0, 1] ⟨by decide, by decide, by decide⟩
    exact absurd kept (by decide +kernel)
  obtain ⟨nodes, -, -, deepest, result, after⟩ := separates.adds exceeded
  exact ⟨by decide +kernel, nodes, deepest rfl rfl, result, congrArg Prod.snd after⟩

end Subtours

end CuttingPlanes.Spanning
