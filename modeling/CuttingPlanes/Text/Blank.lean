import CuttingPlanes.Text.Ranges

/-! Blank characters, and text without the blanks around it. -/

namespace CuttingPlanes.Text

/-- The runs of code points that count as blank. -/
def blankRuns : Array (Nat × Nat) := #[
  (9, 13), (28, 32), (133, 133), (160, 160), (5760, 5760), (8192, 8202),
  (8232, 8233), (8239, 8239), (8287, 8287), (12288, 12288)
]

/-- Whether a character is blank. -/
def isBlank (c : Char) : Bool := inRuns blankRuns c

/-- Characters without those at either end that a test accepts. -/
def trimWhere (drops : Char → Bool) (cs : List Char) : List Char :=
  ((cs.dropWhile drops).reverse.dropWhile drops).reverse

end CuttingPlanes.Text
