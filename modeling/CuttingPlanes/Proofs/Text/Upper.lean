import CuttingPlanes.Text.Upper
import Mathlib.Data.List.Basic

/-! Text in capitals has no small letters that are plain, and stays as it is in capitals. -/

namespace CuttingPlanes.Text

/-- Whether a character is one of the first 128. -/
def isPlain (c : Char) : Bool := c.toNat < 128

/-- Whether a code point is that of a plain small letter. -/
def isSmallCode (code : Nat) : Bool := 97 ≤ code && code ≤ 122

/-- The character of a code point has that code point, or none at all. -/
theorem toNat_ofNat (code : Nat) :
    (Char.ofNat code).toNat = code ∨ (Char.ofNat code).toNat = 0 := by
  by_cases valid : code.isValidChar
  · left
    rw [Char.ofNat, dif_pos valid]
    rfl
  · right
    rw [Char.ofNat, dif_neg valid]
    rfl

/-- A character is no plain small letter when its code point is none. -/
theorem isSmallCode_toNat_ofNat {code : Nat} (other : isSmallCode code = false) :
    isSmallCode (Char.ofNat code).toNat = false := by
  rcases toNat_ofNat code with same | zero
  · rw [same, other]
  · rw [zero]
    rfl

/-- A run leads from code points that are plain small letters or not plain, to neither of these. -/
def CapitalRun.IsRegular (run : CapitalRun) : Prop :=
  (128 ≤ run.first ∨ 97 ≤ run.first ∧ run.last ≤ 122) ∧
    (run.last + run.distance < 97 ∨ 122 < run.first + run.distance)

instance (run : CapitalRun) : Decidable run.IsRegular := by
  unfold CapitalRun.IsRegular
  infer_instance

theorem capitalRuns_regular : ∀ run ∈ capitalRuns, run.IsRegular := by
  decide +kernel

theorem capitalSequences_regular :
    ∀ sequence ∈ capitalSequences,
      128 ≤ sequence.1 ∧ ∀ code ∈ sequence.2, isSmallCode code = false := by
  decide +kernel

/-- The run of a character, where one is found, is regular and holds its code point. -/
theorem run_of_find? {code : Nat} {run : CapitalRun}
    (found : capitalRuns.find? (fun run =>
      run.first ≤ code && code ≤ run.last && (code - run.first) % run.stride == 0) = some run) :
    run.IsRegular ∧ run.first ≤ code ∧ code ≤ run.last := by
  have within := Array.find?_some found
  simp only [Bool.and_eq_true, decide_eq_true_eq] at within
  exact ⟨capitalRuns_regular run (Array.mem_of_find?_eq_some found), within.1.1, within.1.2⟩

/-- No capital form holds a plain small letter. -/
theorem isSmallCode_of_mem_capitals {c capital : Char} (member : capital ∈ capitals c) :
    isSmallCode capital.toNat = false := by
  unfold capitals at member
  split at member
  case h_1 origin codes found =>
    have regular := capitalSequences_regular _ (Array.mem_of_find?_eq_some found)
    obtain ⟨code, listed, rfl⟩ := List.mem_map.1 member
    exact isSmallCode_toNat_ofNat (regular.2 code listed)
  case h_2 =>
    dsimp only at member
    split at member
    case h_1 run found =>
      obtain ⟨regular, first, last⟩ := run_of_find? found
      rw [List.mem_singleton.1 member]
      refine isSmallCode_toNat_ofNat ?_
      have away := regular.2
      simp only [isSmallCode, Bool.and_eq_false_iff, decide_eq_false_iff_not]
      omega
    case h_2 missing =>
      -- A plain small letter has a run of its own.
      rw [List.mem_singleton.1 member, ← Bool.not_eq_true]
      intro small
      simp only [isSmallCode, Bool.and_eq_true, decide_eq_true_eq] at small
      have none := Array.find?_eq_none.1 missing ⟨97, 122, 1, -32⟩ ⟨.head _⟩
      simp [small, Nat.mod_one] at none

/-- A plain character that is no small letter is its own capital form. -/
theorem capitals_of_isPlain {c : Char} (plain : isPlain c = true)
    (other : isSmallCode c.toNat = false) : capitals c = [c] := by
  simp only [isPlain, decide_eq_true_eq] at plain
  unfold capitals
  split
  case h_1 origin codes found =>
    have regular := capitalSequences_regular _ (Array.mem_of_find?_eq_some found)
    have same : origin = c.toNat := by simpa using Array.find?_some found
    omega
  case h_2 =>
    dsimp only
    split
    case h_1 run found =>
      obtain ⟨regular, first, last⟩ := run_of_find? found
      have start := regular.1
      simp only [isSmallCode, Bool.and_eq_false_iff, decide_eq_false_iff_not] at other
      omega
    case h_2 => rfl

/-- Text in capitals stays as it is in capitals, when all its characters are plain. -/
theorem upper_upper {s : String} (plain : ∀ c ∈ (upper s).toList, isPlain c = true) :
    upper (upper s) = upper s := by
  have kept : ∀ c ∈ (upper s).toList, capitals c = [c] := by
    intro c member
    have listed : c ∈ s.toList.flatMap capitals := by simpa [upper] using member
    obtain ⟨_, _, from_letter⟩ := List.mem_flatMap.1 listed
    exact capitals_of_isPlain (plain c member) (isSmallCode_of_mem_capitals from_letter)
  have flat : (upper s).toList.flatMap capitals = (upper s).toList :=
    (List.flatMap_congr kept).trans (List.flatMap_singleton' _)
  rw [upper, flat, String.ofList_toList]

end CuttingPlanes.Text
