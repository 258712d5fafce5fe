import CuttingPlanes.Association

/-! Entries whose keys are all different. -/

namespace CuttingPlanes.Association

variable {κ ν : Type} [BEq κ] [LawfulBEq κ]

/-- A new key takes the last place. -/
theorem insert_of_notMem {key : κ} {value : ν} {entries : List (κ × ν)}
    (fresh : key ∉ entries.map Prod.fst) :
    insert key value entries = entries ++ [(key, value)] := by
  -- An entry of another key is passed, so that the new pair ends up behind all of them.
  induction entries with
  | nil => rfl
  | cons entry rest ih =>
    rw [List.map_cons, List.mem_cons, not_or] at fresh
    have different : (entry.1 == key) = false := by simpa using Ne.symm fresh.1
    simp [insert, different, ih fresh.2]

/-- Pairs with different keys are the entries. -/
theorem ofPairs_of_nodup {pairs : List (κ × ν)} (nodup : (pairs.map Prod.fst).Nodup) :
    ofPairs pairs = pairs := by
  -- The entries gathered so far are the pairs passed so far.
  have gathered : ∀ passed rest : List (κ × ν), ((passed ++ rest).map Prod.fst).Nodup →
      rest.foldl (fun entries pair => insert pair.1 pair.2 entries) passed = passed ++ rest := by
    intro passed rest
    induction rest generalizing passed with
    | nil => simp
    | cons pair rest ih =>
      intro nodup
      have fresh : pair.1 ∉ passed.map Prod.fst := by
        rw [List.map_append, List.map_cons] at nodup
        intro member
        exact (List.nodup_append.1 nodup).2.2 _ member _ List.mem_cons_self rfl
      rw [List.foldl_cons, insert_of_notMem fresh, ih _ (by simpa using nodup)]
      simp
  exact gathered [] pairs nodup

omit [LawfulBEq κ] in
/-- An entry has the value that was put last or one that was there. -/
theorem snd_of_mem_insert {key : κ} {value : ν} {entries : List (κ × ν)} {entry : κ × ν}
    (member : entry ∈ insert key value entries) :
    entry.2 = value ∨ ∃ before ∈ entries, entry.2 = before.2 := by
  induction entries with
  | nil => exact .inl (by simpa [insert] using congrArg Prod.snd (List.mem_singleton.1 member))
  | cons first rest ih =>
    rw [insert] at member
    -- The pair takes the place of the first entry, or goes into the rest.
    split at member
    · rcases List.mem_cons.1 member with rfl | later
      · exact .inl rfl
      · exact .inr ⟨entry, List.mem_cons_of_mem first later, rfl⟩
    · rcases List.mem_cons.1 member with rfl | later
      · exact .inr ⟨entry, List.mem_cons_self, rfl⟩
      · exact (ih later).imp_right fun ⟨before, known, same⟩ =>
          ⟨before, List.mem_cons_of_mem first known, same⟩

omit [LawfulBEq κ] in
/-- The entries of some pairs have values of these pairs. -/
theorem snd_of_mem_ofPairs {pairs : List (κ × ν)} {entry : κ × ν}
    (member : entry ∈ ofPairs pairs) : ∃ pair ∈ pairs, entry.2 = pair.2 := by
  -- What is gathered comes from the pairs passed so far or was there from the start.
  have gathered : ∀ (rest entries : List (κ × ν)),
      entry ∈ rest.foldl (fun entries pair => insert pair.1 pair.2 entries) entries →
      (∃ before ∈ entries, entry.2 = before.2) ∨ ∃ pair ∈ rest, entry.2 = pair.2 := by
    intro rest
    induction rest with
    | nil => exact fun entries member => .inl ⟨entry, member, rfl⟩
    | cons pair rest ih =>
      intro entries member
      rcases ih _ member with ⟨before, known, same⟩ | ⟨later, known, same⟩
      · rcases snd_of_mem_insert known with new | old
        · exact .inr ⟨pair, List.mem_cons_self, same.trans new⟩
        · exact .inl (old.imp fun other found => ⟨found.1, same.trans found.2⟩)
      · exact .inr ⟨later, List.mem_cons_of_mem pair known, same⟩
  exact (gathered pairs [] member).resolve_left (by simp)

omit [LawfulBEq κ] in
/-- After an entry is put its key is found, beside all that was found before. -/
theorem holds_insert {key other : κ} {value : ν} {entries : List (κ × ν)}
    (trans : ∀ entry ∈ entries, entry.1 == key → key == other → entry.1 == other) :
    holds other (insert key value entries) = (holds other entries || key == other) := by
  induction entries with
  | nil => simp [insert, holds]
  | cons entry rest ih =>
    have later := ih fun entry member => trans entry (List.mem_cons_of_mem _ member)
    rw [insert]
    split
    · -- The key of the entry stays, and it stands for the equal key that was put.
      have first := trans entry List.mem_cons_self ‹_›
      cases same : key == other with
      | false => simp [holds]
      | true => simp [holds, first same]
    · simp only [holds, List.any_cons] at later ⊢
      rw [later, Bool.or_assoc]

omit [LawfulBEq κ] in
/-- An entry keeps all keys, and brings its own one behind them when it was not found. -/
theorem fst_insert {key : κ} {value : ν} {entries : List (κ × ν)} :
    (insert key value entries).map Prod.fst =
      if holds key entries then entries.map Prod.fst else entries.map Prod.fst ++ [key] := by
  induction entries with
  | nil => rfl
  | cons entry rest ih =>
    rw [insert, holds, List.any_cons]
    cases same : entry.1 == key with
    | true => rfl
    | false =>
      -- The entry stands first either way.
      rw [if_neg Bool.false_ne_true, Bool.false_or, List.map_cons, ih, holds]
      split <;> rfl

omit [LawfulBEq κ] in
/-- The keys after an entry is put are its own one and those that were there before. -/
theorem fst_of_mem_insert {key : κ} {value : ν} {entries : List (κ × ν)} {entry : κ × ν}
    (member : entry ∈ insert key value entries) :
    entry.1 = key ∨ entry.1 ∈ entries.map Prod.fst := by
  have among : entry.1 ∈ (insert key value entries).map Prod.fst := List.mem_map_of_mem member
  rw [fst_insert] at among
  split at among
  · exact .inr among
  · -- The new key is the last one.
    rcases List.mem_append.1 among with before | new
    · exact .inr before
    · exact .inl (List.mem_singleton.1 new)

/-- The value that was put last is found under its key, and other keys keep their values. -/
theorem find?_insert {key other : κ} {value : ν} {entries : List (κ × ν)} :
    find? other (insert key value entries) =
      if key == other then some value else find? other entries := by
  induction entries with
  | nil =>
    rw [insert, find?, List.find?_cons]
    cases key == other <;> rfl
  | cons entry rest ih =>
    rw [find?] at ih ⊢
    rw [insert, find?]
    split
    case isTrue same =>
      -- The new value stands where the one of the equal key was.
      rw [List.find?_cons, List.find?_cons, beq_iff_eq.1 same]
      cases key == other <;> rfl
    case isFalse different =>
      rw [List.find?_cons, List.find?_cons]
      cases found : entry.1 == other with
      | false => exact ih
      | true =>
        have apart : (key == other) = false := by
          rw [← beq_iff_eq.1 found]
          exact beq_eq_false_iff_ne.2 fun same => different (beq_iff_eq.2 same.symm)
        rw [apart]
        rfl

/-- Of the pairs put over entries the last one with a key gives its value, before the entries. -/
theorem find?_updated (key : κ) (entries changes : List (κ × ν)) :
    find? key (updated entries changes) = (find? key changes.reverse).or (find? key entries) := by
  rw [updated]
  induction changes generalizing entries with
  | nil => rfl
  | cons pair rest ih =>
    rw [List.foldl_cons, ih, find?_insert, List.reverse_cons, find?, find?, find?,
      List.find?_append, List.find?_singleton]
    cases List.find? (fun entry => entry.1 == key) rest.reverse with
    | some entry => rfl
    | none => cases pair.1 == key <;> rfl

/-- Of some pairs the last one with a key gives its value. -/
theorem find?_ofPairs (key : κ) (pairs : List (κ × ν)) :
    find? key (ofPairs pairs) = find? key pairs.reverse :=
  (find?_updated key [] pairs).trans Option.or_none

/-- Where all keys are different, their order does not count. -/
theorem find?_reverse {entries : List (κ × ν)} (nodup : (entries.map Prod.fst).Nodup) (key : κ) :
    find? key entries.reverse = find? key entries := by
  rw [← find?_ofPairs, ofPairs_of_nodup nodup]

/-- Where all keys are different, an entry is what is found under its key. -/
theorem mem_iff_find? {entries : List (κ × ν)} (nodup : (entries.map Prod.fst).Nodup)
    {entry : κ × ν} : entry ∈ entries ↔ find? entry.1 entries = some entry.2 := by
  constructor
  · intro member
    induction entries with
    | nil => cases member
    | cons first rest ih =>
      rw [List.map_cons, List.nodup_cons] at nodup
      rw [find?, List.find?_cons]
      rcases List.mem_cons.1 member with rfl | later
      · rw [beq_self_eq_true]
        rfl
      · -- An entry further behind has another key than the first one.
        have different : (first.1 == entry.1) = false :=
          beq_eq_false_iff_ne.2 fun same => nodup.1 (same ▸ List.mem_map_of_mem later)
        rw [different]
        exact ih nodup.2 later
  · intro found
    obtain ⟨known, listed, same⟩ := Option.map_eq_some_iff.1 found
    have key : known.1 = entry.1 := by simpa using List.find?_some listed
    exact Prod.ext key same ▸ List.mem_of_find?_eq_some listed

/-- Keys stay different when an entry is put. -/
theorem nodup_insert {key : κ} {value : ν} {entries : List (κ × ν)}
    (nodup : (entries.map Prod.fst).Nodup) : ((insert key value entries).map Prod.fst).Nodup := by
  rw [fst_insert]
  split
  case isTrue => exact nodup
  case isFalse unknown =>
    -- A key that is not found is none of the others.
    have fresh : key ∉ entries.map Prod.fst := by
      intro member
      obtain ⟨entry, known, same⟩ := List.mem_map.1 member
      exact unknown (List.any_eq_true.2 ⟨entry, known, beq_iff_eq.2 same⟩)
    refine List.nodup_append.2 ⟨nodup, List.pairwise_singleton _ key, ?_⟩
    intro other known last new equal
    exact fresh ((List.mem_singleton.1 new) ▸ equal ▸ known)

/-- The entries of some pairs have different keys. -/
theorem nodup_ofPairs (pairs : List (κ × ν)) : ((ofPairs pairs).map Prod.fst).Nodup := by
  -- Each pair keeps the keys gathered so far different.
  have gathered : ∀ entries : List (κ × ν), (entries.map Prod.fst).Nodup →
      ((pairs.foldl (fun entries pair => insert pair.1 pair.2 entries) entries).map
        Prod.fst).Nodup := by
    induction pairs with
    | nil => exact fun entries nodup => nodup
    | cons pair rest ih => exact fun entries nodup => ih _ (nodup_insert nodup)
  exact gathered [] List.nodup_nil

section Keys

variable {ι : Type} [BEq ι] {key : ι → κ}
  (faithful : ∀ left right, (key left == key right) = (left == right))
include faithful

omit [LawfulBEq κ] in
/-- An entry is put under a translated key as it is under the key itself. -/
theorem insert_map (name : ι) (value : ν) (entries : List (ι × ν)) :
    insert (key name) value (entries.map fun entry => (key entry.1, entry.2)) =
      (insert name value entries).map fun entry => (key entry.1, entry.2) := by
  induction entries with
  | nil => rfl
  | cons entry rest ih =>
    rw [List.map_cons, insert, insert, ih, faithful]
    split <;> rfl

omit [LawfulBEq κ] in
/-- Entries are put over others under translated keys as under the keys themselves. -/
theorem updated_map (entries changes : List (ι × ν)) :
    updated (entries.map fun entry => (key entry.1, entry.2))
        (changes.map fun entry => (key entry.1, entry.2)) =
      (updated entries changes).map fun entry => (key entry.1, entry.2) := by
  unfold updated
  induction changes generalizing entries with
  | nil => rfl
  | cons pair rest ih =>
    rw [List.map_cons, List.foldl_cons, insert_map faithful, ih, List.foldl_cons]

omit [LawfulBEq κ] in
/-- A translated key finds what the key itself finds. -/
theorem find?_map (name : ι) (entries : List (ι × ν)) :
    find? (key name) (entries.map fun entry => (key entry.1, entry.2)) = find? name entries := by
  simp [find?, List.find?_map, Function.comp_def, faithful]

end Keys

end CuttingPlanes.Association
