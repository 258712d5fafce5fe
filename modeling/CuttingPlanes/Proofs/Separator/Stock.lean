import CuttingPlanes.Proofs.Separator.Encounter
import CuttingPlanes.Proofs.Separator.Exact

/-! Candidates that lose their measures when they are added, and the orders in which they may be. -/

namespace CuttingPlanes

variable {σ ν ρ γ μ : Type} [Measure μ]

/-- No policy takes an absent measure for a violation. -/
theorem Policy.regards_of_absent [LawfulMeasure μ] (policy : Policy) {measure : μ}
    (absent : Measure.present measure = false) : policy.regards measure = false := by
  cases policy with
  | deepest => exact absent
  | first => exact LawfulMeasure.countsTrue_of_absent measure absent
  | shuffled => exact LawfulMeasure.countsTrue_of_absent measure absent

/--
A policy over distinct candidates, each of which loses its measure when it is added.

Nothing of it fails but the draws, wherever the view of the state is a legal one.
-/
structure Stock (ρ : Type) (view : σ → ν) (worth : ν → γ → μ) where
  policy : Policy
  family : Family σ γ μ
  exceeds : μ → μ → Action σ Bool
  reorder : Source σ γ → Action σ (Source σ γ)
  draw : Random.Draw ρ
  fuel : Nat
  legal : ν → Prop
  /-- The candidates in the order in which they are enumerated. -/
  items : ν → List γ
  /-- The order in which the first policy goes through some candidates. -/
  order : List γ → List γ
  beaten : μ → μ → Bool
  /-- The measures that are ranked. -/
  among : μ → Prop
  distinct : ∀ kept, legal kept → (items kept).Nodup
  short : ∀ kept, legal kept → (items kept).length < fuel
  enumerates : ∀ state, legal (view state) →
    Action.Ensures family.enumerate state (fun _ => False) fun source after =>
      source.Yields view (view state) (items (view state)) ∧ view after = view state
  measures : ∀ asked, legal (view asked) → ∀ candidate ∈ items (view asked), ∀ state,
    view state = view asked → Action.Ensures (family.measure candidate) state (fun _ => False)
      fun measure after => measure = worth (view asked) candidate ∧ view after = view asked
  commits : ∀ state, legal (view state) → ∀ candidate ∈ items (view state),
    Action.Ensures (family.commit candidate) state (fun _ => False) fun _ after =>
      legal (view after) ∧ items (view after) = items (view state) ∧
        Measure.present (worth (view after) candidate) = false ∧
        ∀ other ∈ items (view state), other ≠ candidate →
          worth (view after) other = worth (view state) other
  ranks : policy = .deepest → Ranks beaten among
  ranked : policy = .deepest → ∀ kept, legal kept → ∀ candidate ∈ items kept,
    Measure.present (worth kept candidate) = true → among (worth kept candidate)
  compares : policy = .deepest → ∀ asked, legal (view asked) →
    ComparesInView exceeds view (fun _ => view asked) among beaten
  permutes : ∀ list, (order list).Perm list
  reorders : policy = .first → ∀ source state, legal (view state) →
    source.Yields view (view state) (items (view state)) →
      Action.Ensures (reorder source) state (fun _ => False) fun turned after =>
        turned.Yields view (view state) (order (items (view state))) ∧ view after = view state

namespace Stock

variable {view : σ → ν} {worth : ν → γ → μ} (stock : Stock ρ view worth) {kept after : ν}
  {candidate : γ} {drained : List γ}

/-- The separator of the policy. -/
def separator : Separator (Rotation ρ × σ) γ μ :=
  .ofPolicy stock.policy stock.family stock.exceeds stock.reorder stock.draw stock.fuel

/-- Whether the policy takes a candidate for a violated one. -/
def regards (kept : ν) (candidate : γ) : Bool := stock.policy.regards (worth kept candidate)

/-- Some candidates with their measures. -/
def priced (worth : ν → γ → μ) (kept : ν) (order : List γ) : List (γ × μ) :=
  order.map fun item => (item, worth kept item)

/-- What is violated, in the order in which it is enumerated. -/
def violated (kept : ν) : List γ := (stock.items kept).filter (stock.regards kept)

/-- An order in which a policy may add all that is violated. -/
structure Drains (kept : ν) (drained : List γ) : Prop where
  perm : drained.Perm (stock.violated kept)
  sorted : stock.policy = .deepest →
    IsStablySorted stock.beaten (worth kept) (stock.violated kept) drained
  scanned : stock.policy = .first →
    drained = (stock.order (stock.items kept)).filter (stock.regards kept)

/-- A candidate that a policy may add before the others. -/
structure Picks (kept : ν) (candidate : γ) : Prop where
  member : candidate ∈ stock.items kept
  regarded : stock.regards kept candidate = true
  leading : stock.policy = .deepest →
    Selects stock.beaten (priced worth kept (stock.items kept)) (some candidate)
  ahead : stock.policy = .first → ∃ front back,
    stock.order (stock.items kept) = front ++ candidate :: back ∧
      ∀ other ∈ front, stock.regards kept other = false

/-- What has become of a view in which a candidate has been added. -/
structure Clears (kept after : ν) (candidate : γ) : Prop where
  legal : stock.legal after
  items : stock.items after = stock.items kept
  absent : Measure.present (worth after candidate) = false
  others : ∀ other ∈ stock.items kept, other ≠ candidate → worth after other = worth kept other

omit [Measure μ] in
/-- Where candidates with their measures are split, the candidates are. -/
theorem priced_eq_append {order : List γ} {before behind : List (γ × μ)} {measure : μ}
    (split : priced worth kept order = before ++ (candidate, measure) :: behind) : ∃ front back,
      order = front ++ candidate :: back ∧ measure = worth kept candidate ∧
        before = priced worth kept front ∧ behind = priced worth kept back := by
  obtain ⟨front, later, rfl, rfl, found⟩ := List.map_eq_append_iff.1 split
  obtain ⟨_, back, rfl, same, rfl⟩ := List.map_eq_cons_iff.1 found
  obtain ⟨rfl, rfl⟩ := Prod.mk.inj same
  exact ⟨front, back, rfl, rfl, rfl, rfl⟩

variable {stock}

/-- Nothing is left to add where nothing is violated. -/
theorem drains_nil (none : ∀ candidate ∈ stock.items kept, stock.regards kept candidate = false) :
    stock.Drains kept [] := by
  have empty : stock.violated kept = [] := List.filter_eq_nil_iff.2 fun candidate member => by
    simp [none candidate member]
  refine ⟨by rw [empty], fun _ => by rw [empty]; exact .nil _ _, fun _ => ?_⟩
  refine (List.filter_eq_nil_iff.2 fun candidate member => ?_).symm
  simp [none candidate ((stock.permutes _).mem_iff.1 member)]

section Split

variable {front back : List γ}

/-- The measures of all but the candidate that has been added are as they were. -/
theorem Clears.worth_eq (clears : stock.Clears kept after candidate)
    (distinct : (front ++ candidate :: back).Nodup)
    (within : ∀ item ∈ front ++ candidate :: back, item ∈ stock.items kept) {item : γ}
    (member : item ∈ front ++ back) : worth after item = worth kept item := by
  obtain ⟨-, later, apart⟩ := List.nodup_append.1 distinct
  -- The candidate stands neither in front of itself nor behind itself.
  rcases List.mem_append.1 member with ahead | behind
  · exact clears.others item (within item (List.mem_append_left _ ahead))
      (apart item ahead candidate List.mem_cons_self)
  · refine clears.others item (within item (by simp [behind])) ?_
    rintro rfl
    exact (List.nodup_cons.1 later).1 behind

/-- Once a candidate has been added, the others are violated as before. -/
theorem Clears.filter_eq [LawfulMeasure μ] (clears : stock.Clears kept after candidate)
    (distinct : (front ++ candidate :: back).Nodup)
    (within : ∀ item ∈ front ++ candidate :: back, item ∈ stock.items kept) :
    (front ++ candidate :: back).filter (stock.regards after) =
      front.filter (stock.regards kept) ++ back.filter (stock.regards kept) := by
  have gone : stock.regards after candidate = false := stock.policy.regards_of_absent clears.absent
  have same : ∀ item ∈ front ++ back, stock.regards after item = stock.regards kept item := by
    intro item member
    rw [regards, regards, clears.worth_eq distinct within member]
  rw [List.filter_append, List.filter_cons_of_neg (by simp [gone]), ← List.filter_append,
    List.filter_congr same, List.filter_append]

/-- A candidate that is violated stands among the violated ones where it stands among all. -/
theorem filter_regards (regarded : stock.regards kept candidate = true) :
    (front ++ candidate :: back).filter (stock.regards kept) =
      front.filter (stock.regards kept) ++ candidate :: back.filter (stock.regards kept) := by
  rw [List.filter_append, List.filter_cons_of_pos regarded]

/-- The candidate that the deepest policy picks stands ahead of a stable sort of the others. -/
theorem Picks.sorted [LawfulMeasure μ] (picks : stock.Picks kept candidate)
    (legal : stock.legal kept) (clears : stock.Clears kept after candidate)
    (deepest : stock.policy = .deepest)
    (rest : IsStablySorted stock.beaten (worth after) (stock.violated after) drained) :
    IsStablySorted stock.beaten (worth kept) (stock.violated kept) (candidate :: drained) := by
  obtain ⟨before, measure, behind, split, leads⟩ := picks.leading deepest
  obtain ⟨front, back, listed, rfl, rfl, rfl⟩ := priced_eq_append split
  have distinct := listed ▸ stock.distinct kept legal
  have within : ∀ item ∈ front ++ candidate :: back, item ∈ stock.items kept :=
    fun item member => listed ▸ member
  have left : stock.violated after =
      front.filter (stock.regards kept) ++ back.filter (stock.regards kept) := by
    rw [violated, clears.items, listed, clears.filter_eq distinct within]
  rw [left] at rest
  -- What the deepest policy regards is what has a measure.
  have present : ∀ item, stock.regards kept item = Measure.present (worth kept item) := by
    intro item
    rw [regards, deepest, Policy.regards]
  rw [violated, listed, filter_regards picks.regarded]
  refine IsStablySorted.cons (stock.ranks deepest) ?_ ?_ ?_ (rest.congr ?_)
  · intro item member
    rw [← filter_regards picks.regarded, List.mem_filter, present] at member
    exact stock.ranked deepest kept legal item (within item member.1) member.2
  · intro item member
    rw [List.mem_filter, present] at member
    exact leads.behind (item, worth kept item) (List.mem_map_of_mem member.1) member.2
  · intro item member
    rw [List.mem_filter, present] at member
    refine leads.unbeaten (item, worth kept item) (List.mem_append_right _ ?_) member.2
    exact List.mem_cons_of_mem _ (List.mem_map_of_mem member.1)
  · intro item member
    rw [← List.filter_append] at member
    exact (clears.worth_eq distinct within (List.mem_of_mem_filter member)).symm

/-- A picked candidate and what is left after it are what was violated. -/
theorem Picks.perm [LawfulMeasure μ] (picks : stock.Picks kept candidate)
    (legal : stock.legal kept) (clears : stock.Clears kept after candidate) :
    (candidate :: stock.violated after).Perm (stock.violated kept) := by
  obtain ⟨front, back, split⟩ := List.append_of_mem picks.member
  rw [violated, violated, clears.items, split, filter_regards picks.regarded,
    clears.filter_eq (split ▸ stock.distinct kept legal) fun item member => split ▸ member]
  exact List.perm_middle.symm

/-- A picked candidate goes ahead of whatever drains what is left. -/
theorem Picks.drains [LawfulMeasure μ] (picks : stock.Picks kept candidate)
    (legal : stock.legal kept) (clears : stock.Clears kept after candidate)
    (rest : stock.Drains after drained) : stock.Drains kept (candidate :: drained) := by
  refine ⟨(rest.perm.cons candidate).trans (picks.perm legal clears),
    fun deepest => picks.sorted legal clears deepest (rest.sorted deepest), fun first => ?_⟩
  obtain ⟨front, back, split, passed⟩ := picks.ahead first
  have perm := stock.permutes (stock.items kept)
  have left := rest.scanned first
  rw [clears.items, split,
    clears.filter_eq (split ▸ perm.nodup_iff.2 (stock.distinct kept legal)) fun item member =>
      perm.mem_iff.1 (split ▸ member)] at left
  -- The order of the first policy passes nothing that is violated before it comes to the pick.
  have none : front.filter (stock.regards kept) = [] :=
    List.filter_eq_nil_iff.2 fun item ahead => by simp [passed item ahead]
  rw [left, split, filter_regards picks.regarded, none, List.nil_append, List.nil_append]

end Split

end Stock

end CuttingPlanes
