import CuttingPlanes.Proofs.Association
import CuttingPlanes.Settings.Tolerances

/-! Tolerances under words: what is put under them, and what is found over the usual ones. -/

namespace CuttingPlanes.Tolerances

/-- Tolerances all of whose names are words. -/
def ofWords (entries : List (String × Datum)) : Tolerances :=
  held (entries.map fun entry => (.text entry.1, entry.2))

/-- Doubles under words, as values. -/
def reals (entries : List (String × Float)) : List (String × Datum) :=
  entries.map fun entry => (entry.1, .float entry.2)

theorem fst_reals (entries : List (String × Float)) :
    (reals entries).map Prod.fst = entries.map Prod.fst := by
  simp [reals, Function.comp_def]

/-- The tolerances that settings begin with, by word. -/
def usualWords : List (String × Datum) :=
  ["violation", "optimality", "integrality"].map fun name => (name, usualValue)

/-- Words are the same names as they are words. -/
theorem text_beq (left right : String) : (Datum.text left == Datum.text right) = (left == right) :=
  rfl

/-- What is put under a word is put there among the words. -/
theorem set_ofWords (name : String) (value : Datum) (entries : List (String × Datum)) :
    (ofWords entries).set (.text name) value =
      .ok (ofWords (Association.insert name value entries)) :=
  congrArg (Except.ok ∘ held) (Association.insert_map text_beq name value entries)

/-- Tolerances under words that are put over the usual ones are under words again. -/
theorem overUsual_ofWords (entries : List (String × Datum)) :
    (ofWords entries).overUsual = .ok (ofWords (Association.updated usualWords entries)) :=
  congrArg (Except.ok ∘ held) (Association.updated_map text_beq usualWords entries)

/-- A word finds what is under it, or the usual value. -/
theorem get_ofWords_text (entries : List (String × Datum)) (name : String) :
    (ofWords entries).get (.text name) =
      .ok ((Association.find? name entries).getD usualValue) := by
  rw [← Association.find?_map text_beq name entries]
  rfl

/-- What is no word finds nothing under words, if it can be a name at all. -/
theorem get_ofWords_of_ne {name : Datum} (other : ∀ word, name ≠ .text word)
    (entries : List (String × Datum)) :
    (ofWords entries).get name = do
      name.checkKey
      return usualValue := by
  have different : ∀ word, (Datum.text word == name) = false := by
    intro word
    cases name with
    | text named => exact absurd rfl (other named)
    | _ => rfl
  have missing : Association.find? name (entries.map fun entry => (Datum.text entry.1, entry.2)) =
      none := by
    rw [Association.find?, List.find?_eq_none.2, Option.map_none]
    intro entry member
    obtain ⟨_, -, rfl⟩ := List.mem_map.1 member
    simp [different]
  rw [← Option.getD_none (a := usualValue), ← missing]
  rfl

/-- The usual tolerances are those that every name has without them. -/
theorem find?_usualWords (name : String) :
    (Association.find? name usualWords).getD usualValue = usualValue := by
  cases found : Association.find? name usualWords with
  | none => rfl
  | some value =>
    obtain ⟨entry, listed, rfl⟩ := Option.map_eq_some_iff.1 found
    obtain ⟨_, -, rfl⟩ := List.mem_map.1 (List.mem_of_find?_eq_some listed)
    rfl

/-- Tolerances are the same for every name whether or not they are put over the usual ones. -/
theorem get_overUsual {entries : List (String × Datum)} (nodup : (entries.map Prod.fst).Nodup)
    (name : Datum) :
    (ofWords (Association.updated usualWords entries)).get name = (ofWords entries).get name := by
  by_cases named : ∃ word, name = .text word
  · obtain ⟨word, rfl⟩ := named
    rw [get_ofWords_text, get_ofWords_text, Association.find?_updated,
      Association.find?_reverse nodup]
    -- A word with a tolerance of its own keeps it, and any other one has the usual value.
    cases Association.find? word entries with
    | some value => rfl
    | none => rw [Option.none_or, find?_usualWords, Option.getD_none]
  · have other : ∀ word, name ≠ .text word := fun word same => named ⟨word, same⟩
    rw [get_ofWords_of_ne other, get_ofWords_of_ne other]

end CuttingPlanes.Tolerances
