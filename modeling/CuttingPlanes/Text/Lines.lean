/-! Text cut into lines and joined again. -/

namespace CuttingPlanes.Text

/-- Whether a character ends a line. -/
def isLineBreak (c : Char) : Bool :=
  let code := c.toNat
  (10 ≤ code && code ≤ 13) || (28 ≤ code && code ≤ 30) ||
    code == 0x85 || code == 0x2028 || code == 0x2029

/-- The lines of a text after the characters read so far; a last empty line is not counted. -/
def linesFrom (read : List Char) : List Char → List (List Char)
  | [] => if read.isEmpty then [] else [read.reverse]
  -- A carriage return and the line feed behind it are one break.
  | '\r' :: '\n' :: rest => read.reverse :: linesFrom [] rest
  | c :: rest =>
      if isLineBreak c then read.reverse :: linesFrom [] rest else linesFrom (c :: read) rest

/-- The lines of a text, without their breaks. -/
def lines (s : String) : List String := (linesFrom [] s.toList).map String.ofList

/-- Characters with a line feed for every carriage return, alone or with a line feed behind it. -/
def plainBreaks : List Char → List Char
  | [] => []
  | '\r' :: '\n' :: rest => '\n' :: plainBreaks rest
  | '\r' :: rest => '\n' :: plainBreaks rest
  | c :: rest => c :: plainBreaks rest

/-- A text as a reader sees it who takes every kind of break for a line feed. -/
def withPlainBreaks (s : String) : String := String.ofList (plainBreaks s.toList)

/-- Lines joined by line feeds. -/
def unlines (ls : List String) : String := String.intercalate "\n" ls

end CuttingPlanes.Text
