import CuttingPlanes.Separator.Family
import Mathlib.Order.Lattice

/-! Comparisons that rank measures, the first of the greatest, and stable sorts by measure. -/

namespace CuttingPlanes

variable {γ μ : Type} {beaten : μ → μ → Bool} {among : μ → Prop}

/-- A strict weak order on some measures: to be tied, neither beating the other, is transitive. -/
structure Ranks (beaten : μ → μ → Bool) (among : μ → Prop) : Prop where
  irrefl : ∀ {x}, among x → beaten x x = false
  trans : ∀ {x y z}, among x → among y → among z → beaten x y → beaten y z → beaten x z
  tied : ∀ {x y z}, among x → among y → among z → beaten x y = false → beaten y x = false →
    beaten y z = false → beaten z y = false → beaten x z = false

namespace Ranks

variable {x y z : μ} (ranks : Ranks beaten among)

include ranks

/-- Of two measures at most one beats the other. -/
theorem asymm (first : among x) (second : among y) (less : beaten x y = true) :
    beaten y x = false := by
  cases also : beaten y x with
  | false => rfl
  | true =>
    -- Otherwise a measure would beat itself.
    have itself := ranks.trans first second first less also
    exact itself.symm.trans (ranks.irrefl first)

/-- What beats a measure beats any third one or is no better than it. -/
theorem beaten_or_beaten (first : among x) (second : among y) (third : among z)
    (less : beaten x z = true) : beaten x y = true ∨ beaten y z = true := by
  by_contra neither
  obtain ⟨low, high⟩ := not_or.1 neither
  rw [Bool.not_eq_true] at low high
  -- The third one is tied with both, for otherwise it would beat or be beaten after all.
  have tied : beaten y x = false := by
    cases above : beaten y x with
    | false => rfl
    | true => exact (high ▸ ranks.trans second first third above less).symm
  have also : beaten z y = false := by
    cases above : beaten z y with
    | false => rfl
    | true => exact (low ▸ ranks.trans first third second less above).symm
  rw [ranks.tied first second third low tied high also] at less
  cases less

/-- What is tied with a measure is beaten by whatever beats it. -/
theorem beaten_of_tied (first : among x) (second : among y) (third : among z)
    (tied : beaten x y = false) (less : beaten x z = true) : beaten y z = true :=
  (ranks.beaten_or_beaten first second third less).resolve_left (by simp [tied])

end Ranks

/-- Measures are ranked by keys in a linear order, equal keys being ties. -/
theorem Ranks.of_key {α : Type} [LinearOrder α] (key : μ → α)
    (less : ∀ x y, among x → among y → (beaten x y = true ↔ key x < key y)) :
    Ranks beaten among where
  irrefl known := Bool.eq_false_iff.2 ((less _ _ known known).not.2 (lt_irrefl _))
  trans first second third low high := (less _ _ first third).2
    (((less _ _ first second).1 low).trans ((less _ _ second third).1 high))
  tied first second third low _ high _ := by
    -- A key that is at most another one is one that the other one is not below.
    rw [← Bool.not_eq_true, less _ _ first second, not_lt] at low
    rw [← Bool.not_eq_true, less _ _ second third, not_lt] at high
    rw [← Bool.not_eq_true, less _ _ first third, not_lt]
    exact high.trans low

section Leading

variable [Measure μ] {before rest seen : List (γ × μ)} {chosen entry held : γ × μ}

/-- The first of the greatest: nothing measured beats it, and it beats all that come before it. -/
structure Leads (beaten : μ → μ → Bool) (before : List (γ × μ)) (chosen : γ × μ)
    (rest : List (γ × μ)) : Prop where
  present : Measure.present chosen.2 = true
  behind : ∀ entry ∈ before, Measure.present entry.2 = true → beaten entry.2 chosen.2 = true
  unbeaten : ∀ entry ∈ before ++ chosen :: rest, Measure.present entry.2 = true →
    beaten chosen.2 entry.2 = false

/-- The best one so far is the first of the greatest, if anything has a measure. -/
def Best (beaten : μ → μ → Bool) (seen : List (γ × μ)) : Option (γ × μ) → Prop
  | none => ∀ entry ∈ seen, Measure.present entry.2 = false
  | some chosen => ∃ before rest, seen = before ++ chosen :: rest ∧ Leads beaten before chosen rest

/-- The candidate of the first of the greatest, or nothing where nothing has a measure. -/
def Selects (beaten : μ → μ → Bool) (entries : List (γ × μ)) : Option γ → Prop
  | none => ∀ entry ∈ entries, Measure.present entry.2 = false
  | some candidate => ∃ before measure rest, entries = before ++ (candidate, measure) :: rest ∧
      Leads beaten before (candidate, measure) rest

namespace Best

/-- The candidate of the best one of all is selected. -/
theorem selects {best : Option (γ × μ)} (final : Best beaten seen best) :
    Selects beaten seen (best.map Prod.fst) := by
  cases best with
  | none => exact final
  | some chosen =>
    obtain ⟨before, rest, split, leads⟩ := final
    exact ⟨before, chosen.2, rest, split, leads⟩

theorem begin (beaten : μ → μ → Bool) : Best beaten ([] : List (γ × μ)) none := by simp [Best]

/-- The best one so far has been seen. -/
theorem mem (best : Best beaten seen (some held)) : held ∈ seen := by
  obtain ⟨before, rest, rfl, -⟩ := best
  simp

/-- The best one so far has a measure. -/
theorem present (best : Best beaten seen (some held)) : Measure.present held.2 = true := by
  obtain ⟨before, rest, -, leads⟩ := best
  exact leads.present

/-- Of two entries that are compared, the earlier one stays the best unless it is beaten. -/
theorem keep (best : Best beaten seen (some held))
    (unbeaten : Measure.present entry.2 = true → beaten held.2 entry.2 = false) :
    Best beaten (seen ++ [entry]) (some held) := by
  obtain ⟨before, rest, rfl, leads⟩ := best
  refine ⟨before, rest ++ [entry], by simp, leads.present, leads.behind, ?_⟩
  intro other member present
  have member : other ∈ (before ++ held :: rest) ++ [entry] := by simpa using member
  rcases List.mem_append.1 member with earlier | last
  · exact leads.unbeaten other earlier present
  · rw [List.mem_singleton.1 last] at present ⊢
    exact unbeaten present

/-- An entry without a measure is passed over. -/
theorem pass {best : Option (γ × μ)} (kept : Best beaten seen best)
    (absent : Measure.present entry.2 = false) : Best beaten (seen ++ [entry]) best := by
  cases best with
  | none => exact List.forall_mem_append.2 ⟨kept, List.forall_mem_singleton.2 absent⟩
  | some held => exact kept.keep fun present => by simp [absent] at present

/-- The first entry with a measure is the best so far, whatever its measure. -/
theorem first (ranks : Ranks beaten among) (none : Best beaten seen none)
    (present : Measure.present entry.2 = true) (known : among entry.2) :
    Best beaten (seen ++ [entry]) (some entry) := by
  refine ⟨seen, [], rfl, present, fun other member measured => ?_, fun other member measured => ?_⟩
  · simp [none other member] at measured
  · rcases List.mem_append.1 member with earlier | last
    · simp [none other earlier] at measured
    · rw [List.mem_singleton.1 last]
      exact ranks.irrefl known

/-- An entry that beats the best one so far beats everything before it. -/
theorem replace (ranks : Ranks beaten among) (best : Best beaten seen (some held))
    (known : ∀ other ∈ seen ++ [entry], Measure.present other.2 = true → among other.2)
    (present : Measure.present entry.2 = true) (less : beaten held.2 entry.2 = true) :
    Best beaten (seen ++ [entry]) (some entry) := by
  obtain ⟨before, rest, rfl, leads⟩ := best
  have last := known entry (by simp) present
  have best := known held (by simp) leads.present
  -- The old best one is not beaten by any other, and so the others are beaten with it.
  have behind : ∀ other ∈ before ++ held :: rest, Measure.present other.2 = true →
      beaten other.2 entry.2 = true := by
    intro other member measured
    have among := known other (List.mem_append_left _ member) measured
    exact ranks.beaten_of_tied best among last (leads.unbeaten other member measured) less
  refine ⟨_, [], rfl, present, behind, fun other member measured => ?_⟩
  rcases List.mem_append.1 member with earlier | same
  · have among := known other (List.mem_append_left _ earlier) measured
    exact ranks.asymm among last (behind other earlier measured)
  · rw [List.mem_singleton.1 same]
    exact ranks.irrefl last

end Best

end Leading

section Sorting

variable {worth : γ → μ}

/-- A stable sort by descending measure: of two that are tied the earlier one stays ahead. -/
structure IsStablySorted (beaten : μ → μ → Bool) (worth : γ → μ) (items order : List γ) : Prop where
  perm : order.Perm items
  sorted : order.Pairwise fun earlier later => beaten (worth earlier) (worth later) = false
  stable : ∀ earlier later, [earlier, later].Sublist items →
    beaten (worth earlier) (worth later) = false → beaten (worth later) (worth earlier) = false →
      [earlier, later].Sublist order

theorem IsStablySorted.nil (beaten : μ → μ → Bool) (worth : γ → μ) :
    IsStablySorted beaten worth [] [] :=
  ⟨.refl [], .nil, fun _ _ within _ _ => within⟩

/-- Only the measures of the members decide whether a list is sorted. -/
theorem IsStablySorted.congr {other : γ → μ} {items order : List γ}
    (sorted : IsStablySorted beaten worth items order)
    (same : ∀ item ∈ items, other item = worth item) :
    IsStablySorted beaten other items order := by
  refine ⟨sorted.perm, ?_, fun earlier later within notLess notMore => ?_⟩
  · refine sorted.sorted.imp_of_mem fun earlier later notLess => ?_
    rwa [same _ (sorted.perm.mem_iff.1 earlier), same _ (sorted.perm.mem_iff.1 later)]
  · have first := same earlier (within.subset (by simp))
    have second := same later (within.subset (by simp))
    rw [first, second] at notLess notMore
    exact sorted.stable earlier later within notLess notMore

/-- The first of the greatest stands ahead of a stable sort of the others. -/
theorem IsStablySorted.cons (ranks : Ranks beaten among) {before rest order : List γ} {chosen : γ}
    (known : ∀ item ∈ before ++ chosen :: rest, among (worth item))
    (behind : ∀ item ∈ before, beaten (worth item) (worth chosen) = true)
    (unbeaten : ∀ item ∈ rest, beaten (worth chosen) (worth item) = false)
    (others : IsStablySorted beaten worth (before ++ rest) order) :
    IsStablySorted beaten worth (before ++ chosen :: rest) (chosen :: order) := by
  refine ⟨(others.perm.cons chosen).trans List.perm_middle.symm, ?_, ?_⟩
  · refine List.pairwise_cons.2 ⟨fun item member => ?_, others.sorted⟩
    rcases List.mem_append.1 (others.perm.mem_iff.1 member) with earlier | later
    · have leader := known chosen (by simp)
      exact ranks.asymm (known item (by simp [earlier])) leader (behind item earlier)
    · exact unbeaten item later
  · intro first second within notLess notMore
    obtain ⟨front, back, split, left, right⟩ := List.sublist_append_iff.1 within
    rcases List.sublist_cons_iff.1 right with without | ⟨tail, rfl, later⟩
    · -- Neither of the two is the leader, so that both are in the sort of the others.
      have among : [first, second].Sublist (before ++ rest) := split ▸ left.append without
      exact (others.stable first second among notLess notMore).cons chosen
    · -- The leader is the first of the two, since it is tied with nothing before it.
      rcases front with _ | ⟨item, _ | ⟨other, front⟩⟩
      · obtain ⟨rfl, rfl⟩ := List.cons.inj split
        have member : second ∈ order :=
          others.perm.mem_iff.2 (List.mem_append_right _ (List.singleton_sublist.1 later))
        exact (List.singleton_sublist.2 member).cons_cons first
      · obtain ⟨rfl, rfl, rfl⟩ : first = item ∧ second = chosen ∧ tail = [] := by simpa using split
        have less := behind first (left.subset List.mem_cons_self)
        exact absurd notLess (by simp [less])
      · simp at split

end Sorting

end CuttingPlanes
