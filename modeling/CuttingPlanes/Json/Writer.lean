import CuttingPlanes.Datum.Text

/-! Values written as JSON; reals that it has no number for stand in an object of their own. -/

namespace CuttingPlanes.Json

/-- A character inside a string. -/
def escaped (c : Char) : List Char :=
  if c = '"' then ['\\', '"']
  else if c = '\\' then ['\\', '\\']
  else if c.toNat < 32 then '\\' :: 'u' :: Text.hexDigits 4 c.toNat
  else [c]

/-- Text as a string. -/
def string (s : String) : String := "\"" ++ String.ofList (s.toList.flatMap escaped) ++ "\""

/-- A real as a number, or as an object that names it. -/
def real (x : Float) : String :=
  match Binary64.form x with
  | .finite _ _ _ => Layout.shortest x
  | _ => "\x7b\"f\":" ++ string (Layout.shortest x) ++ "\x7d"

/-- Parts between brackets with commas in between. -/
def enclosed (opening : String) (parts : List String) (closing : String) : String :=
  opening ++ String.intercalate "," parts ++ closing

mutual

/-- A value as JSON. -/
def write : Datum → String
  | .nothing => "null"
  | .bool value => if value then "true" else "false"
  | .int value => Layout.integer value
  | .float value => real value
  | .undefined _ => real Binary64.noNumber
  | .text value => string value
  | .list items => enclosed "[" (writeItems items) "]"
  | .object entries => enclosed "\x7b" (writeEntries entries) "\x7d"

/-- The members of a list. -/
def writeItems : List Datum → List String
  | [] => []
  | item :: rest => write item :: writeItems rest

/-- The entries of an object. -/
def writeEntries : List (String × Datum) → List String
  | [] => []
  | (key, value) :: rest => (string key ++ ":" ++ write value) :: writeEntries rest

end

end CuttingPlanes.Json
