import CuttingPlanes.Number.Reading
import CuttingPlanes.Text.Lines
import CuttingPlanes.Text.Quoted

/-! The arguments of the benchmark: long options, which may be cut short while they stay unique. -/

namespace CuttingPlanes.Benchmark

/-- What the benchmark is asked to do. -/
structure Request where
  nodes : Int
  density : Float
  instances : Int
  seed : Int
  verbose : Bool
  output : Option String

/-- What is done where nothing is asked. -/
def Request.usual : Request := ⟨7, 0.6, 3, 0, false, none⟩

/-- An option of the command line. -/
inductive Switch where
  | help
  | nodes
  | density
  | instances
  | seed
  | verbose
  | output
  deriving DecidableEq, Repr

namespace Switch

/-- All options, in the order in which they are explained. -/
def all : List Switch := [help, nodes, density, instances, seed, verbose, output]

/-- The long spelling of an option. -/
def spelling : Switch → String
  | help => "--help"
  | nodes => "--nodes"
  | density => "--density"
  | instances => "--instances"
  | seed => "--seed"
  | verbose => "--verbose"
  | output => "--output"

/-- How an option is named in complaints. -/
def title : Switch → String
  | help => "-h/--help"
  | switch => switch.spelling

/-- Whether an option is followed by a value. -/
def takesValue : Switch → Bool
  | help => false
  | verbose => false
  | _ => true

end Switch

/-- How one argument reads. -/
inductive Word where
  /-- A value, or a word that belongs nowhere. -/
  | value
  /-- The mark behind which nothing is an option. -/
  | divider
  /-- An option that is not known. -/
  | stray
  /-- An option with the text that its own argument gives it. -/
  | option (switch : Switch) (given : Option String)

/-- Characters without one line feed at the end. -/
def withoutBreak (cs : List Char) : List Char :=
  if cs.getLast? = some '\n' then cs.dropLast else cs

/-- Whether an argument is a negative number and so no option; a last line feed does not count. -/
def isNegativeNumber (cs : List Char) : Bool :=
  let isDigit (c : Char) : Bool := (Text.digitValue? c).isSome
  match withoutBreak cs with
  | '-' :: rest =>
      match rest.dropWhile isDigit with
      | [] => !rest.isEmpty
      | '.' :: fraction => !fraction.isEmpty && fraction.all isDigit
      | _ => false
  | _ => false

/-- The complaint about an option that could be several. -/
def ambiguous (argument : String) (switches : List Switch) : String :=
  "ambiguous option: " ++ argument ++ " could match " ++
    String.intercalate ", " (switches.map Switch.spelling)

/-- An option with the text behind its equals sign. -/
def splitValue (cs : List Char) : List Char × Option String :=
  if cs.contains '=' then
    (cs.takeWhile (· != '='), some (String.ofList ((cs.dropWhile (· != '=')).drop 1)))
  else (cs, none)

/-- What is left of a text when the letter of help has come as often as it will. -/
def behindHelp : List Char → Option String
  | [] => none
  | 'h' :: rest => behindHelp rest
  | rest => some (String.ofList rest)

/-- What the short spelling of help is given as its value: by an equals sign or right behind it. -/
def givenToHelp : List Char → Option String
  | ['='] => some ""
  | '=' :: rest => behindHelp rest
  | rest => behindHelp rest

/-- How an argument reads on its own. -/
def Word.ofArgument (argument : String) : Except String Word := do
  let cs := argument.toList
  if cs.head? != some '-' || cs.length == 1 then return .value
  if argument == "--" then return .divider
  if ['-', 'h'].isPrefixOf cs then return .option .help (givenToHelp (cs.drop 2))
  let (name, given) := splitValue cs
  match Switch.all.find? fun switch => switch.spelling == String.ofList name with
  | some switch => return .option switch given
  | none =>
      if ['-', '-'].isPrefixOf cs then
        match Switch.all.filter fun switch => name.isPrefixOf switch.spelling.toList with
        | [switch] => return .option switch given
        | [] => return if cs.contains ' ' then .value else .stray
        | switches => throw (ambiguous argument switches)
      else if isNegativeNumber cs || cs.contains ' ' then return .value
      else return .stray

/-- The complaint about an option's value. -/
def complaint (switch : Switch) (text : String) : String :=
  "argument " ++ switch.title ++ ": " ++ text

/-- A value read as a whole number. -/
def wholeValue (switch : Switch) (given : String) : Except String Int :=
  match Reading.integer given with
  | .ok n => .ok n
  | .error _ => .error (complaint switch ("invalid int value: " ++ Text.quoted given))

/-- A value read as a real. -/
def realValue (switch : Switch) (given : String) : Except String Float :=
  match Reading.real? given with
  | some x => .ok x
  | none => .error (complaint switch ("invalid float value: " ++ Text.quoted given))

/-- The request with the value of an option put in. -/
def Request.put (request : Request) (switch : Switch) (given : String) :
    Except String Request := do
  match switch with
  | .help => return request
  | .verbose => return { request with verbose := true }
  | .nodes => return { request with nodes := ← wholeValue switch given }
  | .density => return { request with density := ← realValue switch given }
  | .instances => return { request with instances := ← wholeValue switch given }
  | .seed => return { request with seed := ← wholeValue switch given }
  | .output => return { request with output := some given }

/-- What a command line asks for. -/
inductive Command where
  | run (request : Request)
  | help

/-- Reads arguments from left to right, keeping those that belong nowhere. -/
def readArguments (request : Request) (left : List String) :
    List (String × Word) → Except String Command
  | [] =>
      if left.isEmpty then .ok (.run request)
      else .error ("unrecognized arguments: " ++ String.intercalate " " left)
  | (argument, .value) :: rest => readArguments request (left ++ [argument]) rest
  | (argument, .stray) :: rest => readArguments request (left ++ [argument]) rest
  | (argument, .divider) :: rest =>
      readArguments request (left ++ argument :: rest.map Prod.fst) []
  | (_, .option switch (some given)) :: rest =>
      if switch.takesValue then do
        readArguments (← request.put switch given) left rest
      else .error (complaint switch ("ignored explicit argument " ++ Text.quoted given))
  | (_, .option switch none) :: rest =>
      if switch.takesValue then
        match rest with
        | (given, .value) :: others => do
            readArguments (← request.put switch given) left others
        | _ => .error (complaint switch "expected one argument")
      else if switch = .help then .ok .help
      else do readArguments (← request.put switch "") left rest

/-- How the arguments up to the divider read; behind it all of them are values. -/
def classify : List String → Except String (List (String × Word))
  | [] => .ok []
  | argument :: rest => do
      match ← Word.ofArgument argument with
      | .divider => return (argument, .divider) :: rest.map fun other => (other, .value)
      | word => return (argument, word) :: (← classify rest)

/-- What the arguments ask for, or the complaint about them. -/
def Command.ofArguments (arguments : List String) : Except String Command := do
  readArguments Request.usual [] (← classify arguments)

/-- The name under which the command complains. -/
def commandName : String := "compare_strategies.py"

/-- The last line of a complaint, without blanks at its end. -/
def errorLine (text : String) : String :=
  let cs := Text.trimWhere Text.isBlank (commandName ++ ": error: " ++ text).toList
  (Text.lines (String.ofList cs)).getLast?.getD ""

end CuttingPlanes.Benchmark
