import CuttingPlanes.Datum.Basic
import CuttingPlanes.Number.Layout
import CuttingPlanes.Text.Quoted

/-! How values are written. -/

namespace CuttingPlanes.Datum

/-- Texts between brackets, with a comma and a blank in between. -/
def enclosed (opening : String) (parts : List String) (closing : String) : String :=
  opening ++ String.intercalate ", " parts ++ closing

mutual

/-- A value written so that its kind shows: text is quoted. -/
def shown : Datum → String
  | nothing => "None"
  | bool value => if value then "True" else "False"
  | int value => Layout.integer value
  | float value => Layout.shortest value
  | undefined _ => Layout.shortest Binary64.noNumber
  | text value => Text.quoted value
  | list items => enclosed "[" (shownItems items) "]"
  | object entries => enclosed "\x7b" (shownEntries entries) "\x7d"

/-- The members of a list, each written so that its kind shows. -/
def shownItems : List Datum → List String
  | [] => []
  | item :: rest => shown item :: shownItems rest

/-- The entries of an object, each key in front of its value. -/
def shownEntries : List (String × Datum) → List String
  | [] => []
  | (key, value) :: rest => (Text.quoted key ++ ": " ++ shown value) :: shownEntries rest

end

/-- A value written plainly: text stands as it is. -/
def plain : Datum → String
  | text value => value
  | value => value.shown

end CuttingPlanes.Datum
