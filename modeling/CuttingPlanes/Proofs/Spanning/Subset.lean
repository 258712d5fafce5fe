import CuttingPlanes.Proofs.Enumeration
import CuttingPlanes.Spanning.Subset
import Mathlib.Data.Finset.Sort
import Mathlib.Data.List.Shortlex
import Mathlib.Data.List.Sublists
import Mathlib.Data.Nat.Choose.Sum

/-! The sets of nodes that are considered for a cut, all at once instead of one for each rank. -/

namespace CuttingPlanes.Spanning

/-- A sorted list of nodes that a cut is considered for: at least two nodes, and not all of them. -/
structure IsCutSet (size : Nat) (nodes : List Nat) : Prop where
  sublist : nodes.Sublist (List.range size)
  several : 2 ≤ nodes.length
  proper : nodes.length < size

/-- The sorted sets of a size whose members lie from a first node on, in order of their ranks. -/
def combinations : (things size first : Nat) → List (List Nat)
  | _, 0, _ => [[]]
  | 0, _ + 1, _ => []
  | things + 1, size + 1, first =>
      (combinations things size (first + 1)).map (first :: ·) ++
        combinations things (size + 1) (first + 1)

/-- The sets of some sizes in a row. -/
def sizedSets (things sizes size : Nat) : List (List Nat) :=
  (List.range' size sizes).flatMap fun size => combinations things size 0

/-- All sets that are considered for a cut. -/
def cutSets (things : Nat) : List (List Nat) := sizedSets things (things - 2) 2

/-- The stepwise quotients are the binomial coefficients. -/
theorem binomial_eq_choose (things chosen : Nat) :
    binomial things chosen = things.choose chosen := by
  induction chosen with
  | zero => simp [binomial]
  | succ chosen ih =>
    -- The product is divisible, since it counts every larger choice once for each of its members.
    rw [binomial, ih, ← Nat.choose_succ_right_eq, Nat.mul_div_cancel _ (Nat.succ_pos chosen)]

/-- The sets of a size are the sublists of that length, in an order of their own. -/
theorem combinations_perm (things size first : Nat) :
    (combinations things size first).Perm ((List.range' first things).sublistsLen size) := by
  induction things generalizing size first with
  | zero => cases size <;> simp [combinations]
  | succ things ih =>
    cases size with
    | zero => simp [combinations]
    | succ size =>
      -- Both lists split by whether the first node is a member, and name the parts in turn.
      rw [combinations, List.range'_succ, List.sublistsLen_succ_cons]
      exact (((ih size (first + 1)).map _).append (ih (size + 1) (first + 1))).trans
        List.perm_append_comm

@[simp] theorem length_combinations (things size first : Nat) :
    (combinations things size first).length = things.choose size := by
  -- Sublists of a length are counted by the binomial coefficients.
  rw [(combinations_perm things size first).length_eq, List.length_sublistsLen, List.length_range']

@[simp] theorem mem_combinations {things size : Nat} {nodes : List Nat} :
    nodes ∈ combinations things size 0 ↔
      nodes.Sublist (List.range things) ∧ nodes.length = size := by
  rw [(combinations_perm things size 0).mem_iff, List.mem_sublistsLen, List.range_eq_range']

theorem nodup_combinations (things size first : Nat) : (combinations things size first).Nodup :=
  (combinations_perm things size first).nodup_iff.2
    (List.nodup_sublistsLen size (List.nodup_range' _))

/-- The set found from a rank is the member of the list at that rank. -/
theorem combination?_eq (things size first rank : Nat) :
    combination? things size first rank = (combinations things size first)[rank]? := by
  induction things generalizing size first rank with
  | zero => cases size <;> cases rank <;> simp [combination?, combinations]
  | succ things ih =>
    cases size with
    | zero => cases rank <;> simp [combination?, combinations]
    | succ size =>
      -- The rank falls among the sets with the first node, or behind all of them.
      have leading : ((combinations things size (first + 1)).map (first :: ·)).length =
          binomial things size := by simp [binomial_eq_choose]
      rw [combination?, combinations]
      by_cases early : rank < binomial things size
      · rw [if_pos early, ih, List.getElem?_append_left (by omega), List.getElem?_map]
      · rw [if_neg early, ih, List.getElem?_append_right (by omega), leading]

/-- Ranks run on from one size to the next. -/
theorem sized?_eq (things sizes size rank : Nat) :
    sized? things sizes size rank = (sizedSets things sizes size)[rank]? := by
  induction sizes generalizing size rank with
  | zero => simp [sized?, sizedSets]
  | succ sizes ih =>
    -- The sets of the first size come before all others.
    have leading : (combinations things size 0).length = binomial things size := by
      simp [binomial_eq_choose]
    rw [sized?, sizedSets, List.range'_succ, List.flatMap_cons]
    by_cases early : rank < binomial things size
    · rw [if_pos early, combination?_eq, List.getElem?_append_left (by omega)]
    · rw [if_neg early, ih, List.getElem?_append_right (by omega), leading, sizedSets]

theorem subset?_eq (things rank : Nat) : subset? things rank = (cutSets things)[rank]? :=
  sized?_eq things (things - 2) 2 rank

/-- Every set that a cut is considered for is listed, and no other. -/
@[simp] theorem mem_cutSets {things : Nat} {nodes : List Nat} :
    nodes ∈ cutSets things ↔ IsCutSet things nodes := by
  simp only [cutSets, sizedSets, List.mem_flatMap, List.mem_range'_1, mem_combinations]
  constructor
  · -- The sizes are those from two up to one less than all.
    rintro ⟨size, ⟨several, proper⟩, sublist, rfl⟩
    exact ⟨sublist, several, by omega⟩
  · intro cut
    have several := cut.several
    have proper := cut.proper
    exact ⟨nodes.length, by omega, cut.sublist, rfl⟩

/-- No set is listed twice. -/
theorem nodup_cutSets (things : Nat) : (cutSets things).Nodup := by
  refine List.nodup_flatMap.2 ⟨fun size _ => nodup_combinations things size 0, ?_⟩
  -- Sets of different sizes are different.
  refine (List.nodup_range' (s := 2) (n := things - 2)).imp fun {few many} different => ?_
  intro nodes first second
  rw [mem_combinations] at first second
  exact different (first.2.symm.trans second.2)

/-- The sets of a size stand in the order of their sorted members. -/
theorem pairwise_combinations (things size first : Nat) :
    (combinations things size first).Pairwise (List.Lex (· < ·)) := by
  induction things generalizing size first with
  | zero => cases size <;> simp [combinations]
  | succ things ih =>
    cases size with
    | zero => simp [combinations]
    | succ size =>
      rw [combinations, List.pairwise_append]
      refine ⟨?_, ih (size + 1) (first + 1), ?_⟩
      · exact List.pairwise_map.2 ((ih size (first + 1)).imp fun before => .cons before)
      · -- Whatever does not have the first node begins with a later one.
        intro leading member nodes later
        obtain ⟨others, -, rfl⟩ := List.mem_map.1 member
        have drawn := (combinations_perm things (size + 1) (first + 1)).mem_iff.1 later
        obtain ⟨sublist, length⟩ := List.mem_sublistsLen.1 drawn
        obtain ⟨node, rest, rfl⟩ := List.exists_cons_of_length_eq_add_one length
        have behind := (List.mem_range'_1.1 (sublist.subset List.mem_cons_self)).1
        exact .rel behind

/-- Small sets stand before large ones, and sets of one size in the order of their members. -/
theorem pairwise_cutSets (things : Nat) :
    (cutSets things).Pairwise (List.Shortlex (· < ·)) := by
  refine List.pairwise_flatMap.2 ⟨fun size _ => ?_, ?_⟩
  · refine (pairwise_combinations things size 0).imp_of_mem fun left right before => ?_
    rw [mem_combinations] at left right
    exact .of_lex (left.2.trans right.2.symm) before
  · have sizes : (List.range' 2 (things - 2)).Pairwise (· < ·) := List.pairwise_lt_range'
    refine sizes.imp fun fewer left member right other => ?_
    rw [mem_combinations] at member other
    exact .of_length_lt (by omega)

/-- All sets but the empty one, the single nodes and the whole. -/
theorem length_cutSets (things : Nat) : (cutSets things).length = 2 ^ things - things - 2 := by
  -- The sets of each size are counted one by one.
  have counted : (cutSets things).length =
      ((List.range' 2 (things - 2)).map things.choose).sum := by
    simp [cutSets, sizedSets, List.length_flatMap]
  rw [counted]
  rcases Nat.lt_or_ge things 2 with few | several
  · have small : things = 0 ∨ things = 1 := by omega
    rcases small with rfl | rfl <;> rfl
  · -- The sizes that are left out of all sizes hold one set, single nodes, and one set.
    have sizes : List.range (things + 1) = [0, 1] ++ List.range' 2 (things - 2) ++ [things] := by
      obtain ⟨more, rfl⟩ := Nat.exists_eq_add_of_le several
      rw [List.range_succ, List.range_eq_range', ← List.range'_append_1]
      simp [List.range'_succ]
    have all : ((List.range (things + 1)).map things.choose).sum = 2 ^ things :=
      Nat.sum_range_choose things
    simp only [sizes, List.map_append, List.map_cons, List.map_nil, List.sum_append, List.sum_cons,
      List.sum_nil, Nat.choose_zero_right, Nat.choose_one_right, Nat.choose_self] at all
    omega

/-- Sets are fewer than all parts of a whole. -/
theorem length_cutSets_lt {things fuel : Nat} (enough : 2 ^ things ≤ fuel) :
    (cutSets things).length < fuel := by
  -- At least the empty set is not considered.
  have positive := Nat.one_le_two_pow (n := things)
  rw [length_cutSets]
  omega

/-- The sets are produced as from a list. -/
@[simp] theorem subsets_next {σ : Type} (size rank : Nat) :
    (subsets size : Source σ (List Nat)).next rank = pure (cutSets size)[rank]? := by
  -- A count of nodes is never refused, and nodes are written as they are.
  show (do return (subset? size rank).map (·.map id) : Action σ (Option (List Nat))) = _
  simp [subset?_eq]

/-- The nodes that a cut is considered for are listed in order. -/
theorem IsCutSet.sort_toFinset {things : Nat} {nodes : List Nat} (cut : IsCutSet things nodes) :
    nodes.toFinset.sort (· ≤ ·) = nodes :=
  (List.toFinset_sort (· ≤ ·) (List.nodup_range.sublist cut.sublist)).2
    (List.pairwise_le_range.sublist cut.sublist)

/-- A cut is considered for some nodes in order if there are several, and not all of them. -/
theorem isCutSet_sort_iff {things : Nat} {set : Finset Nat} :
    IsCutSet things (set.sort (· ≤ ·)) ↔
      (∀ node ∈ set, node < things) ∧ 2 ≤ set.card ∧ set.card < things := by
  constructor
  · rintro ⟨sublist, several, proper⟩
    rw [Finset.length_sort] at several proper
    refine ⟨fun node member => ?_, several, proper⟩
    exact List.mem_range.1 (sublist.subset ((Finset.mem_sort _).2 member))
  · rintro ⟨below, several, proper⟩
    -- Different nodes below a number are among all of these, and they keep their order.
    have within : set.sort (· ≤ ·) ⊆ List.range things := fun node member =>
      List.mem_range.2 (below node ((Finset.mem_sort _).1 member))
    have sublist := List.sublist_of_subperm_of_pairwise
      ((Finset.sort_nodup set (· ≤ ·)).subperm within) (Finset.pairwise_sort set (· ≤ ·))
      List.pairwise_le_range
    exact ⟨sublist, by rwa [Finset.length_sort], by rwa [Finset.length_sort]⟩

/-- Several things have the sets of one of them, the empty set and the whole for sets. -/
theorem add_two_le_two_pow {things : Nat} (several : 2 ≤ things) : things + 2 ≤ 2 ^ things := by
  induction things, several using Nat.le_induction with
  | base => decide
  | succ things _ ih =>
    rw [pow_succ]
    omega

/--
All sets of nodes below a number with at least two members and at most one less than the number.

None is listed twice, small ones come first, and those of one size stand as their sorted members.
-/
structure ListsSets (size : Int) (sets : List (Finset Nat)) : Prop where
  mem_iff : ∀ set, set ∈ sets ↔
    (∀ node ∈ set, (node : Int) < size) ∧ 2 ≤ set.card ∧ set.card ≤ size - 1
  nodup : sets.Nodup
  ordered : sets.Pairwise fun earlier later =>
    List.Shortlex (· < ·) (earlier.sort (· ≤ ·)) (later.sort (· ≤ ·))
  length_eq : (sets.length : Int) = if 2 ≤ size then 2 ^ size.toNat - size - 2 else 0

/-- What is listed are the sorted members of sets, which are listed in their place. -/
theorem exists_listsSets (size : Int) :
    ∃ sets, ListsSets size sets ∧ cutSets size.toNat = sets.map (·.sort (· ≤ ·)) := by
  have listed : ((cutSets size.toNat).map List.toFinset).map (·.sort (· ≤ ·)) =
      cutSets size.toNat := by
    rw [List.map_map]
    refine (List.map_congr_left fun nodes member => ?_).trans (List.map_id _)
    exact (mem_cutSets.1 member).sort_toFinset
  refine ⟨(cutSets size.toNat).map List.toFinset, ⟨fun set => ?_, ?_, ?_, ?_⟩, listed.symm⟩
  · -- A set is listed where its sorted members are, since it is the set of these.
    have same : set ∈ (cutSets size.toNat).map List.toFinset ↔
        set.sort (· ≤ ·) ∈ cutSets size.toNat := by
      refine ⟨fun member => listed ▸ List.mem_map_of_mem member, fun member => ?_⟩
      exact List.mem_map.2 ⟨_, member, Finset.sort_toFinset set (· ≤ ·)⟩
    rw [same, mem_cutSets, isCutSet_sort_iff]
    refine and_congr (forall₂_congr fun node _ => ?_) (and_congr_right fun several => ?_)
    · omega
    · omega
  · refine List.Nodup.of_map (·.sort (· ≤ ·)) ?_
    rw [listed]
    exact nodup_cutSets size.toNat
  · rw [← List.pairwise_map (f := fun set : Finset Nat => set.sort (· ≤ ·)), listed]
    exact pairwise_cutSets size.toNat
  · rw [List.length_map, length_cutSets]
    split
    · have room := @add_two_le_two_pow size.toNat (by omega)
      have cast : ((2 ^ size.toNat : Nat) : Int) = 2 ^ size.toNat := Nat.cast_pow 2 _
      rw [← cast]
      omega
    · have few : size.toNat = 0 ∨ size.toNat = 1 := by omega
      rcases few with none | one
      · simp [none]
      · simp [one]

/-- A count is held as far as memory goes, and one below zero counts nothing. -/
theorem countOf_eq_ok {size : Int} (held : size < Datum.memoryLimit) :
    Datum.countOf size = .ok size.toNat := by
  have short : ¬Datum.greatestPosition < size := by
    simp only [Datum.greatestPosition, Datum.memoryLimit] at held ⊢
    omega
  rw [Datum.countOf, if_neg short, if_neg (not_le.2 held)]
  rfl

/-- A count beyond what is held is refused. -/
theorem exists_refusal_of_countOf {size : Int} (beyond : Datum.memoryLimit ≤ size) :
    ∃ fault ∈ [Fault.countTooLarge, .outOfMemory], Datum.countOf size = .error fault := by
  rw [Datum.countOf]
  split
  · exact ⟨.countTooLarge, by simp, rfl⟩
  · exact ⟨.outOfMemory, by simp, rfl⟩

/--
For every whole number all sets of at least two nodes and not all of them are produced, each once.

Counted nodes are produced however many there are, and nodes that are values as far as their count
is held.
-/
theorem subsets_produce {σ : Type} (size : Int) :
    ∃ sets, ListsSets size sets ∧
      (subsets size.toNat : Source σ (List Nat)).Lists (sets.map (·.sort (· ≤ ·))) ∧
      (size < Datum.memoryLimit → (subsets (Datum.int size) : Source σ (List Datum)).Lists
        (sets.map fun set => (set.sort (· ≤ ·)).map fun node : Nat => Datum.int node)) ∧
      (Datum.memoryLimit ≤ size → ∃ fault ∈ [Fault.countTooLarge, .outOfMemory], ∀ rank,
        (subsets (Datum.int size) : Source σ (List Datum)).next rank = Action.raise fault) := by
  obtain ⟨sets, lists, sorted⟩ := exists_listsSets size
  refine ⟨sets, lists, fun rank => ?_, fun held rank => ?_, fun beyond => ?_⟩
  · rw [subsets_next, sorted]
  · have count : Ordinal.count (Datum.int size) = .ok size.toNat := countOf_eq_ok held
    simp only [subsets, count, Action.ofExcept_ok, pure_bind, subset?_eq, sorted]
    rw [List.getElem?_map, List.getElem?_map, Option.map_map]
    rfl
  · obtain ⟨fault, named, refused⟩ := exists_refusal_of_countOf beyond
    refine ⟨fault, named, fun rank => ?_⟩
    have count : Ordinal.count (Datum.int size) = .error fault := refused
    simp only [subsets, count]
    rfl

end CuttingPlanes.Spanning
