import CuttingPlanes.Proofs.Datum.Key
import Mathlib.Order.Compare
import Mathlib.Order.WithBot

/-! What values are compared as: exact places on the line, texts, and lists of such. -/

namespace CuttingPlanes

/-- The place of a number on the line of the rationals, which has an end on either side. -/
def Extended.line? : Extended → Option (WithBot (WithTop ℚ))
  | finite value => some ((value : WithTop ℚ) : WithBot (WithTop ℚ))
  | infinite negative => some (if negative then ⊥ else ⊤)
  | undefined => none

/-- Numbers stand to each other as their places do. -/
theorem Extended.compare?_eq {left right : Extended} {first second : WithBot (WithTop ℚ)}
    (one : left.line? = some first) (other : right.line? = some second) :
    left.compare? right = some (compare first second) := by
  -- Either end of the line is compared with what lies in between, and with both ends.
  cases left with
  | undefined => cases one
  | infinite negative =>
    obtain rfl := Option.some.inj one
    cases right with
    | undefined => cases other
    | infinite also =>
      obtain rfl := Option.some.inj other
      cases negative <;> cases also <;> decide
    | finite value =>
      obtain rfl := Option.some.inj other
      have above : ((value : WithTop ℚ) : WithBot (WithTop ℚ)) < ⊤ :=
        WithBot.coe_lt_coe.2 (WithTop.coe_lt_top value)
      cases negative
      · exact congrArg some (compare_gt_iff_gt.2 above).symm
      · exact congrArg some (compare_lt_iff_lt.2 (WithBot.bot_lt_coe _)).symm
  | finite value =>
    obtain rfl := Option.some.inj one
    cases right with
    | undefined => cases other
    | infinite negative =>
      obtain rfl := Option.some.inj other
      have below : ((value : WithTop ℚ) : WithBot (WithTop ℚ)) < ⊤ :=
        WithBot.coe_lt_coe.2 (WithTop.coe_lt_top value)
      cases negative
      · exact congrArg some (compare_lt_iff_lt.2 below).symm
      · exact congrArg some (compare_gt_iff_gt.2 (WithBot.bot_lt_coe _)).symm
    | finite also =>
      obtain rfl := Option.some.inj other
      have lifted : ∀ x y : ℚ, ((x : WithTop ℚ) : WithBot (WithTop ℚ)) < (y : WithTop ℚ) ↔ x < y :=
        fun x y => WithBot.coe_lt_coe.trans WithTop.coe_lt_coe
      rcases lt_trichotomy value also with below | rfl | above
      · rw [compare_lt_iff_lt.2 ((lifted _ _).2 below), compare?, if_pos below]
      · simp [compare?]
      · rw [compare_gt_iff_gt.2 ((lifted _ _).2 above), compare?, if_neg above.not_gt,
          if_pos above]

/-- What a value is compared as. -/
inductive Rank where
  | number (place : WithBot (WithTop ℚ))
  | text (value : String)
  | list (members : List Rank)

namespace Rank

mutual

/-- How two ranks stand, where they are of one kind as far as it takes to tell. -/
def compare? : Rank → Rank → Option Ordering
  | number left, number right => some (compare left right)
  | text left, text right => some (compare left right)
  | list left, list right => compareMembers? left right
  | _, _ => none

/-- Lists stand as their first members that differ, or as their lengths when none does. -/
def compareMembers? : List Rank → List Rank → Option Ordering
  | [], [] => some .eq
  | [], _ :: _ => some .lt
  | _ :: _, [] => some .gt
  | x :: xs, y :: ys =>
      match compare? x y with
      | some .eq => compareMembers? xs ys
      | other => other

end

mutual

/-- Ranks that stand level are one. -/
theorem compare?_eq_eq_iff : ∀ {x y : Rank}, compare? x y = some .eq ↔ x = y
  | number left, number right => by simp [compare?]
  | text left, text right => by simp [compare?]
  | list left, list right => by simp [compare?, compareMembers?_eq_eq_iff]
  | number _, text _ => by simp [compare?]
  | number _, list _ => by simp [compare?]
  | text _, number _ => by simp [compare?]
  | text _, list _ => by simp [compare?]
  | list _, number _ => by simp [compare?]
  | list _, text _ => by simp [compare?]

theorem compareMembers?_eq_eq_iff :
    ∀ {xs ys : List Rank}, compareMembers? xs ys = some .eq ↔ xs = ys
  | [], [] => by simp [compareMembers?]
  | [], _ :: _ => by simp [compareMembers?]
  | _ :: _, [] => by simp [compareMembers?]
  | x :: xs, y :: ys => by
      have first : compare? x y = some .eq ↔ x = y := compare?_eq_eq_iff
      have rest : compareMembers? xs ys = some .eq ↔ xs = ys := compareMembers?_eq_eq_iff
      rw [compareMembers?, List.cons.injEq, ← first, ← rest]
      split <;> simp_all

end

mutual

/-- Seen from the other side two ranks stand the other way round. -/
theorem compare?_swap : ∀ x y : Rank, compare? y x = (compare? x y).map Ordering.swap
  | number left, number right => by simp [compare?, Std.OrientedOrd.eq_swap (a := right)]
  | text left, text right => by simp [compare?, Std.OrientedOrd.eq_swap (a := right)]
  | list left, list right => by simpa [compare?] using compareMembers?_swap left right
  | number _, text _ => by simp [compare?]
  | number _, list _ => by simp [compare?]
  | text _, number _ => by simp [compare?]
  | text _, list _ => by simp [compare?]
  | list _, number _ => by simp [compare?]
  | list _, text _ => by simp [compare?]

theorem compareMembers?_swap :
    ∀ xs ys : List Rank, compareMembers? ys xs = (compareMembers? xs ys).map Ordering.swap
  | [], [] => by simp [compareMembers?]
  | [], _ :: _ => by simp [compareMembers?]
  | _ :: _, [] => by simp [compareMembers?]
  | x :: xs, y :: ys => by
      rw [compareMembers?, compareMembers?, compare?_swap x y]
      -- The first members decide, unless they stand level.
      rcases compare? x y with _ | _ | _ | _
      · rfl
      · rfl
      · exact compareMembers?_swap xs ys
      · rfl

end

/-- One list is below another by its first member, or behind first members that are one. -/
theorem compareMembers?_cons_eq_lt_iff {x y : Rank} {xs ys : List Rank} :
    compareMembers? (x :: xs) (y :: ys) = some .lt ↔
      compare? x y = some .lt ∨ x = y ∧ compareMembers? xs ys = some .lt := by
  rw [compareMembers?, ← compare?_eq_eq_iff]
  split <;> simp_all

mutual

/-- What is below a rank is below whatever that is below. -/
theorem compare?_trans : ∀ {x y z : Rank}, compare? x y = some .lt → compare? y z = some .lt →
    compare? x z = some .lt
  | number _, number _, number _, below, above => by
      simp only [compare?, Option.some.injEq] at below above ⊢
      exact Std.TransCmp.lt_trans below above
  | text _, text _, text _, below, above => by
      simp only [compare?, Option.some.injEq] at below above ⊢
      exact Std.TransCmp.lt_trans below above
  | list _, list _, list _, below, above => by
      simp only [compare?] at below above ⊢
      exact compareMembers?_trans below above

theorem compareMembers?_trans : ∀ {xs ys zs : List Rank}, compareMembers? xs ys = some .lt →
    compareMembers? ys zs = some .lt → compareMembers? xs zs = some .lt
  | [], _ :: _, _ :: _, _, _ => by simp [compareMembers?]
  | x :: xs, y :: ys, z :: zs, below, above => by
      rw [compareMembers?_cons_eq_lt_iff] at below above ⊢
      -- First members that differ decide, and where none do the rest does.
      rcases below with below | ⟨rfl, below⟩ <;> rcases above with above | ⟨rfl, above⟩
      · exact .inl (compare?_trans below above)
      · exact .inl below
      · exact .inl above
      · exact .inr ⟨rfl, compareMembers?_trans below above⟩

end

end Rank

namespace Datum

/-- Numbers without what is no number, texts, and lists of such values. -/
inductive IsOrdinary : Datum → Prop
  | bool (value : Bool) : IsOrdinary (.bool value)
  | int (value : Int) : IsOrdinary (.int value)
  | float {value : Float} (number : Binary64.exact value ≠ .undefined) : IsOrdinary (.float value)
  | text (value : String) : IsOrdinary (.text value)
  | list {items : List Datum} (members : ∀ item ∈ items, IsOrdinary item) :
      IsOrdinary (.list items)

/-- The place on the line of a value that is a number. -/
def place? (value : Datum) : Option (WithBot (WithTop ℚ)) := value.number?.bind Extended.line?

mutual

/-- What a value is compared as, if it can be compared at all. -/
def rank? : Datum → Option Rank
  | text value => some (.text value)
  | list items => (ranks? items).map .list
  | value => value.place?.map .number

/-- What the members of a list are compared as. -/
def ranks? : List Datum → Option (List Rank)
  | [] => some []
  | item :: rest => do return (← rank? item) :: (← ranks? rest)

end

/-- The members of a list have ranks if each of them has one. -/
theorem exists_ranks {items : List Datum} (ranked : ∀ item ∈ items, ∃ rank, rank? item = some rank) :
    ∃ ranks, ranks? items = some ranks := by
  induction items with
  | nil => exact ⟨[], rfl⟩
  | cons item rest ih =>
    obtain ⟨⟨rank, first⟩, others⟩ := List.forall_mem_cons.1 ranked
    obtain ⟨ranks, later⟩ := ih others
    exact ⟨rank :: ranks, by simp [ranks?, first, later]⟩

/-- Ordinary values can be compared as something. -/
theorem IsOrdinary.exists_rank {value : Datum} (ordinary : IsOrdinary value) :
    ∃ rank, rank? value = some rank := by
  induction ordinary with
  | bool value => exact ⟨_, rfl⟩
  | int value => exact ⟨_, rfl⟩
  | @float value number =>
    cases exact : Binary64.exact value with
    | undefined => exact (number exact).elim
    | _ => exact ⟨_, by simp only [rank?, place?, number?, exact, Option.bind_some]; rfl⟩
  | text value => exact ⟨_, rfl⟩
  | list members ih =>
    obtain ⟨ranks, ranked⟩ := exists_ranks ih
    exact ⟨.list ranks, by simp [rank?, ranked]⟩

/-- A value with a place is a number as a key. -/
theorem exists_identity_of_place {value : Datum} {place : WithBot (WithTop ℚ)}
    (placed : value.place? = some place) :
    ∃ number : Extended, value.identity? = some (.number number) ∧ number.line? = some place := by
  obtain ⟨number, given, line⟩ := Option.bind_eq_some_iff.1 placed
  have some : number ≠ .undefined := by
    rintro rfl
    cases line
  refine ⟨number, ?_, line⟩
  cases value with
  | float value => simp_all [number?, identity?]
  | _ => simp_all [number?, identity?]

/-- Numbers are the same when they have one place. -/
theorem same_iff_place {left right : Datum} {first second : WithBot (WithTop ℚ)}
    (one : left.place? = some first) (other : right.place? = some second) :
    same left right = true ↔ first = second := by
  obtain ⟨number, given, line⟩ := exists_identity_of_place one
  obtain ⟨also, taken, place⟩ := exists_identity_of_place other
  have usable : right.checkKey = .ok () := checkKey_eq_ok_iff.2 (by simp [taken])
  have compared : number.same also = true ↔ first = second := by
    rw [Extended.same, Extended.compare?_eq line place]
    simp
  have some : number ≠ .undefined := by
    rintro rfl
    cases line
  rw [same_iff usable, given, taken, ← compared, Extended.same_iff]
  simp [some]

/-- Numbers are ordered as their places are. -/
theorem order_of_place {left right : Datum} {first second : WithBot (WithTop ℚ)}
    (relation : Relation) (one : left.place? = some first) (other : right.place? = some second) :
    order relation left right = .ok (relation.holds (compare first second)) := by
  obtain ⟨number, given, line⟩ := Option.bind_eq_some_iff.1 one
  obtain ⟨also, taken, place⟩ := Option.bind_eq_some_iff.1 other
  have compared : number.related relation also = relation.holds (compare first second) := by
    rw [Extended.related, Extended.compare?_eq line place]
  rw [← compared]
  cases left <;> cases right <;> simp_all [number?, order]

theorem rank?_eq_number_iff {value : Datum} {place : WithBot (WithTop ℚ)} :
    rank? value = some (.number place) ↔ value.place? = some place := by
  cases value <;> simp [rank?, place?, number?]

theorem rank?_eq_text_iff {value : Datum} {written : String} :
    rank? value = some (.text written) ↔ value = .text written := by
  cases value <;> simp [rank?]

theorem rank?_eq_list_iff {value : Datum} {ranks : List Rank} :
    rank? value = some (.list ranks) ↔ ∃ items, value = .list items ∧ ranks? items = some ranks := by
  cases value <;> simp [rank?]

theorem ranks?_eq_nil_iff {items : List Datum} : ranks? items = some [] ↔ items = [] := by
  cases items <;> simp [ranks?, Option.bind_eq_some_iff]

theorem ranks?_eq_cons_iff {items : List Datum} {rank : Rank} {ranks : List Rank} :
    ranks? items = some (rank :: ranks) ↔ ∃ item rest, items = item :: rest ∧
      rank? item = some rank ∧ ranks? rest = some ranks := by
  cases items <;> simp [ranks?, Option.bind_eq_some_iff]

mutual

/-- Values are the same when they are compared as one rank. -/
theorem same_iff_rank : ∀ {first second : Rank} {left right : Datum},
    rank? left = some first → rank? right = some second → (same left right = true ↔ first = second)
  | .number _, .number _, _, _, one, other => by
      rw [rank?_eq_number_iff] at one other
      rw [same_iff_place one other, Rank.number.injEq]
  | .text _, .text _, _, _, one, other => by
      obtain rfl := rank?_eq_text_iff.1 one
      obtain rfl := rank?_eq_text_iff.1 other
      simp [same]
  | .list _, .list _, _, _, one, other => by
      obtain ⟨items, rfl, given⟩ := rank?_eq_list_iff.1 one
      obtain ⟨also, rfl, taken⟩ := rank?_eq_list_iff.1 other
      rw [same, Rank.list.injEq, sameItems_iff_ranks given taken]
  | .number _, .text _, left, _, one, other => by
      obtain rfl := rank?_eq_text_iff.1 other
      cases left <;> simp_all [rank?, same, number?]
  | .number _, .list _, left, _, one, other => by
      obtain ⟨items, rfl, -⟩ := rank?_eq_list_iff.1 other
      cases left <;> simp_all [rank?, same, number?]
  | .text _, .number _, _, right, one, other => by
      obtain rfl := rank?_eq_text_iff.1 one
      cases right <;> simp_all [rank?, same, number?]
  | .text _, .list _, _, _, one, other => by
      obtain rfl := rank?_eq_text_iff.1 one
      obtain ⟨items, rfl, -⟩ := rank?_eq_list_iff.1 other
      simp [same, number?]
  | .list _, .number _, _, right, one, other => by
      obtain ⟨items, rfl, -⟩ := rank?_eq_list_iff.1 one
      cases right <;> simp_all [rank?, same, number?]
  | .list _, .text _, _, _, one, other => by
      obtain ⟨items, rfl, -⟩ := rank?_eq_list_iff.1 one
      obtain rfl := rank?_eq_text_iff.1 other
      simp [same, number?]

theorem sameItems_iff_ranks : ∀ {first second : List Rank} {left right : List Datum},
    ranks? left = some first → ranks? right = some second →
      (sameItems left right = true ↔ first = second)
  | [], [], _, _, one, other => by
      obtain rfl := ranks?_eq_nil_iff.1 one
      obtain rfl := ranks?_eq_nil_iff.1 other
      simp [sameItems]
  | [], _ :: _, _, _, one, other => by
      obtain rfl := ranks?_eq_nil_iff.1 one
      obtain ⟨item, rest, rfl, -⟩ := ranks?_eq_cons_iff.1 other
      simp [sameItems]
  | _ :: _, [], _, _, one, other => by
      obtain ⟨item, rest, rfl, -⟩ := ranks?_eq_cons_iff.1 one
      obtain rfl := ranks?_eq_nil_iff.1 other
      simp [sameItems]
  | _ :: _, _ :: _, _, _, one, other => by
      obtain ⟨x, xs, rfl, first, later⟩ := ranks?_eq_cons_iff.1 one
      obtain ⟨y, ys, rfl, also, further⟩ := ranks?_eq_cons_iff.1 other
      rw [sameItems, Bool.and_eq_true, List.cons.injEq, same_iff_rank first also,
        sameItems_iff_ranks later further]

end

mutual

/-- Values are ordered as their ranks stand, and are refused where these cannot be compared. -/
theorem order_of_rank (relation : Relation) : ∀ {first second : Rank} {left right : Datum},
    rank? left = some first → rank? right = some second →
      (order relation left right).toOption = (Rank.compare? first second).map relation.holds
  | .number _, .number _, _, _, one, other => by
      rw [rank?_eq_number_iff] at one other
      rw [order_of_place relation one other, Rank.compare?]
      rfl
  | .text _, .text _, _, _, one, other => by
      obtain rfl := rank?_eq_text_iff.1 one
      obtain rfl := rank?_eq_text_iff.1 other
      rw [order, Rank.compare?]
      rfl
  | .list _, .list _, _, _, one, other => by
      obtain ⟨items, rfl, given⟩ := rank?_eq_list_iff.1 one
      obtain ⟨also, rfl, taken⟩ := rank?_eq_list_iff.1 other
      rw [order, Rank.compare?, orderItems_of_ranks relation given taken]
  | .number _, .text _, left, _, one, other => by
      obtain rfl := rank?_eq_text_iff.1 other
      cases left <;> simp_all [rank?, order, number?, Except.toOption, Rank.compare?]
  | .number _, .list _, left, _, one, other => by
      obtain ⟨items, rfl, -⟩ := rank?_eq_list_iff.1 other
      cases left <;> simp_all [rank?, order, number?, Except.toOption, Rank.compare?]
  | .text _, .number _, _, right, one, other => by
      obtain rfl := rank?_eq_text_iff.1 one
      cases right <;> simp_all [rank?, order, number?, Except.toOption, Rank.compare?]
  | .text _, .list _, _, _, one, other => by
      obtain rfl := rank?_eq_text_iff.1 one
      obtain ⟨items, rfl, -⟩ := rank?_eq_list_iff.1 other
      simp [order, number?, Except.toOption, Rank.compare?]
  | .list _, .number _, _, right, one, other => by
      obtain ⟨items, rfl, -⟩ := rank?_eq_list_iff.1 one
      cases right <;> simp_all [rank?, order, number?, Except.toOption, Rank.compare?]
  | .list _, .text _, _, _, one, other => by
      obtain ⟨items, rfl, -⟩ := rank?_eq_list_iff.1 one
      obtain rfl := rank?_eq_text_iff.1 other
      simp [order, number?, Except.toOption, Rank.compare?]

theorem orderItems_of_ranks (relation : Relation) :
    ∀ {first second : List Rank} {left right : List Datum},
    ranks? left = some first → ranks? right = some second →
      (orderItems relation left right).toOption =
        (Rank.compareMembers? first second).map relation.holds
  | [], [], _, _, one, other => by
      obtain rfl := ranks?_eq_nil_iff.1 one
      obtain rfl := ranks?_eq_nil_iff.1 other
      rw [orderItems, Rank.compareMembers?]
      rfl
  | [], _ :: _, _, _, one, other => by
      obtain rfl := ranks?_eq_nil_iff.1 one
      obtain ⟨item, rest, rfl, -⟩ := ranks?_eq_cons_iff.1 other
      rw [orderItems, Rank.compareMembers?]
      rfl
  | _ :: _, [], _, _, one, other => by
      obtain ⟨item, rest, rfl, -⟩ := ranks?_eq_cons_iff.1 one
      obtain rfl := ranks?_eq_nil_iff.1 other
      rw [orderItems, Rank.compareMembers?]
      rfl
  | p :: _, q :: _, _, _, one, other => by
      obtain ⟨x, xs, rfl, first, later⟩ := ranks?_eq_cons_iff.1 one
      obtain ⟨y, ys, rfl, also, further⟩ := ranks?_eq_cons_iff.1 other
      rw [orderItems, Rank.compareMembers?]
      -- Members that are the same stand level, and others decide.
      split
      case isTrue equal =>
        obtain rfl := (same_iff_rank first also).1 equal
        rw [Rank.compare?_eq_eq_iff.2 rfl, orderItems_of_ranks relation later further]
      case isFalse different =>
        rw [same_iff_rank first also, ← Rank.compare?_eq_eq_iff] at different
        rw [order_of_rank relation first also]
        split
        · contradiction
        · rfl

end

/-- Whether a value is less than another one is told by how their ranks stand. -/
theorem less_eq_ok_iff {left right : Datum} {first second : Rank} {verdict : Bool}
    (one : rank? left = some first) (other : rank? right = some second) :
    less left right = .ok verdict ↔
      (Rank.compare? first second).map (Relation.holds .less) = some verdict := by
  rw [← order_of_rank .less one other, less]
  cases order .less left right <;> simp [Except.toOption]

/-- A value is less than another one when its rank is below. -/
theorem less_eq_ok_true_iff {left right : Datum} {first second : Rank}
    (one : rank? left = some first) (other : rank? right = some second) :
    less left right = .ok true ↔ Rank.compare? first second = some .lt := by
  rw [less_eq_ok_iff one other]
  rcases Rank.compare? first second with _ | _ | _ | _ <;> simp [Relation.holds]

/-- A value is found not to be less than another one when its rank is level or above. -/
theorem less_eq_ok_false_iff {left right : Datum} {first second : Rank}
    (one : rank? left = some first) (other : rank? right = some second) :
    less left right = .ok false ↔
      Rank.compare? first second = some .eq ∨ Rank.compare? first second = some .gt := by
  rw [less_eq_ok_iff one other]
  rcases Rank.compare? first second with _ | _ | _ | _ <;> simp [Relation.holds]

/-- Numbers are compared exactly, whatever kinds of numbers they are. -/
theorem less_of_place {left right : Datum} {first second : WithBot (WithTop ℚ)}
    (one : left.place? = some first) (other : right.place? = some second) :
    less left right = .ok (decide (first < second)) := by
  rw [less, order_of_place .less one other, Except.ok.injEq, Relation.holds, Bool.eq_iff_iff,
    beq_iff_eq, decide_eq_true_iff, compare_lt_iff_lt]

namespace IsOrdinary

variable {x y z : Datum}

/-- An ordinary value is not less than itself. -/
theorem less_self (ordinary : IsOrdinary x) : less x x = .ok false := by
  obtain ⟨rank, ranked⟩ := ordinary.exists_rank
  exact (less_eq_ok_false_iff ranked ranked).2 (.inl (Rank.compare?_eq_eq_iff.2 rfl))

/-- What is less than an ordinary value is less than whatever that is less than. -/
theorem less_trans (first : IsOrdinary x) (second : IsOrdinary y) (third : IsOrdinary z)
    (below : less x y = .ok true) (above : less y z = .ok true) : less x z = .ok true := by
  obtain ⟨p, one⟩ := first.exists_rank
  obtain ⟨q, two⟩ := second.exists_rank
  obtain ⟨r, three⟩ := third.exists_rank
  rw [less_eq_ok_true_iff one two] at below
  rw [less_eq_ok_true_iff two three] at above
  exact (less_eq_ok_true_iff one three).2 (Rank.compare?_trans below above)

/-- Two ordinary values neither of which is found to be less are compared as one rank. -/
theorem rank?_eq_of_not_less (first : IsOrdinary x) (second : IsOrdinary y)
    (unbeaten : less x y = .ok false) (also : less y x = .ok false) : rank? x = rank? y := by
  obtain ⟨p, one⟩ := first.exists_rank
  obtain ⟨q, two⟩ := second.exists_rank
  rw [less_eq_ok_false_iff one two] at unbeaten
  rw [less_eq_ok_false_iff two one, Rank.compare?_swap p q] at also
  rcases unbeaten with level | above
  · rw [one, two, Rank.compare?_eq_eq_iff.1 level]
  · -- What is above the other one has the other one below.
    simp [above] at also

/-- Two ordinary values neither of which is found to be less are the same. -/
theorem same_of_not_less (first : IsOrdinary x) (second : IsOrdinary y)
    (unbeaten : less x y = .ok false) (also : less y x = .ok false) : same x y = true := by
  obtain ⟨rank, ranked⟩ := first.exists_rank
  have level := first.rank?_eq_of_not_less second unbeaten also
  exact (same_iff_rank ranked (level ▸ ranked)).2 rfl

/-- To be compared as one rank is not to be less. -/
theorem less_of_rank?_eq (first : IsOrdinary x) (level : rank? x = rank? y) :
    less x y = .ok false := by
  obtain ⟨rank, ranked⟩ := first.exists_rank
  exact (less_eq_ok_false_iff ranked (level ▸ ranked)).2 (.inl (Rank.compare?_eq_eq_iff.2 rfl))

end IsOrdinary

end Datum

end CuttingPlanes
