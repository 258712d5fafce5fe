import CuttingPlanes.Spanning.Subtour

/-! The names of subtour rows tell their sets of nodes apart. -/

namespace CuttingPlanes

namespace Layout

/-- A natural number is written by its digits alone. -/
@[simp] theorem toList_integer (n : Nat) : (integer n).toList = Nat.toDigits 10 n := by
  have positive : ¬((n : Int) < 0) := by omega
  simp [integer, positive, digits]

end Layout

namespace Spanning.Subtours

variable {nodes others : List Nat}

/-- The nodes of a name, each by its digits. -/
theorem splitOn_toList_intercalate (several : nodes ≠ []) :
    (String.intercalate "_" (nodes.map Ordinal.text)).toList.splitOn '_' =
      nodes.map (Nat.toDigits 10) := by
  have written : (nodes.map Ordinal.text).map String.toList = nodes.map (Nat.toDigits 10) := by
    rw [List.map_map]
    exact List.map_congr_left fun node _ => Layout.toList_integer node
  -- No digit is the separator, so that splitting at it gives the nodes back.
  rw [String.toList_intercalate, written]
  refine List.splitOn_intercalate '_' (fun word member => ?_) (by simpa using several)
  obtain ⟨node, -, rfl⟩ := List.mem_map.1 member
  exact Nat.underscore_not_in_toDigits

/-- Rows of different sets have different names. -/
theorem rowName_inj (several : nodes ≠ []) (more : others ≠ []) :
    (rowName nodes : String) = rowName others ↔ nodes = others := by
  refine ⟨fun same => ?_, fun same => by rw [same]⟩
  -- Behind the common beginning stand the members, which can be read back.
  have behind : String.intercalate "_" (nodes.map Ordinal.text) =
      String.intercalate "_" (others.map Ordinal.text) := by
    have chars := congrArg String.toList same
    simpa [rowName, RowName.ofText, String.toList_append, ← String.toList_inj] using chars
  have digits : nodes.map (Nat.toDigits 10) = others.map (Nat.toDigits 10) := by
    rw [← splitOn_toList_intercalate several, behind, splitOn_toList_intercalate more]
  have read := congrArg (List.map fun digits => Nat.ofDigitChars 10 digits 0) digits
  simpa [Function.comp_def] using read

/-- No subtour row has the name of the cardinality row. -/
theorem rowName_ne_cardinality (nodes : List Nat) :
    (rowName nodes : String) ≠ RowName.ofText "cardinality" := by
  intro same
  -- The first letters differ.
  have chars := congrArg String.toList same
  simp [rowName, RowName.ofText, String.toList_append] at chars

end Spanning.Subtours

end CuttingPlanes
