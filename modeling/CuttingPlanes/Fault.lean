/-! Every way a computation of the library is refused, with the wording of each refusal. -/

namespace CuttingPlanes

/-- The four ways two values can be asked to stand in order. -/
inductive Relation where
  | less
  | atMost
  | greater
  | atLeast
  deriving DecidableEq, Repr

namespace Relation

/-- The sign under which a relation is named in messages. -/
def symbol : Relation → String
  | less => "<"
  | atMost => "<="
  | greater => ">"
  | atLeast => ">="

/-- Whether the relation accepts a pair standing in the given order. -/
def holds : Relation → Ordering → Bool
  | less, order => order == .lt
  | atMost, order => order != .gt
  | greater, order => order == .gt
  | atLeast, order => order != .lt

end Relation

/-- The cause of a refusal, carrying what its message shows. -/
inductive Fault where
  -- Values of the wrong kind for what is asked of them.
  | incomparable (relation : Relation) (left right : String)
  | unsupportedOperands (operator left right : String)
  | onlyConcatenates (kind other : String)
  | repeatedByNonInteger (kind : String)
  | noMagnitude (kind : String)
  | noRounding (kind : String)
  | noLength (kind : String)
  | notIterable (kind : String)
  | notUnpackable (kind : String)
  | tooManyToUnpack (expected : Nat)
  | tooFewToUnpack (expected found : Nat)
  | noMember (kind member : String)
  | noItemAssignment (kind : String)
  | unusableKey (kind : String)
  | notAnInteger (kind : String)
  | notAPosition (kind : String)
  | notATextPosition (kind : String)
  | notASlice
  | notReal (kind : String)
  | notFormattable (kind : String)
  | unsuitedArguments (callee : String)
  | unknownFormat (code kind : String)
  | badUpdateElement (position length : Nat)
  | badUpdateItem (position : Nat)
  | badSeed
  | leftOverText
  | tooFewForForm
  | unnamedNumber
  | takenArgument (callee argument : String)
  | unnamedArgument
  | notText (kind : String)
  | notAPath (kind : String)
  -- Text and numbers that do not convert.
  | unreadableReal (shown : String)
  | unreadableInteger (shown : String)
  | tooManyDigits (count : Nat)
  | integerTooLarge
  | quotientTooLarge
  | infiniteInteger
  | undefinedInteger
  | divisionByZero
  -- Forms that cannot be filled in.
  | unfinishedForm
  | gapTooWide
  | tooManyPlaces
  | unknownLetter (letter code : String) (position : Nat)
  -- Positions, counts and keys that cannot be served.
  | outOfRange
  | outOfTextRange
  | positionTooLarge
  | repetitionTooLarge
  | textTooLong
  | countTooLarge
  | outOfMemory
  | missingKey (shown : String)
  -- Rules of the linear program.
  | objectiveSense (shown : String)
  | invertedBounds (lower upper : String)
  | rowSense (shown : String)
  | unknownColumn (column : String)
  | solverMissing
  -- Rules of the separation policies.
  | unknownPolicy (shown : String)
  -- Rules of graphs and spanning-tree problems.
  | noNodes
  | unknownNode (left right : String)
  | selfLoop (node : String)
  | labelCount
  | directed
  | missingNode
  | negativeNodeCount (count : String)
  | nullGraph
  -- Rules of files and of the command line.
  | noSuchFile (path : String)
  | fileExists (path : String)
  | notDirectory (path : String)
  | isDirectory (path : String)
  | nameTooLong (path : String)
  | embeddedNull
  | noHome
  | badVariable
  | badVariableName
  -- A refusal that a supplied action brings along, with its kind and its text.
  | foreign (kind message : String)
  deriving DecidableEq, Repr

namespace Fault

/-- The text shown for a fault. -/
def message : Fault → String
  | incomparable relation left right =>
      s!"'{relation.symbol}' not supported between instances of '{left}' and '{right}'"
  | unsupportedOperands operator left right =>
      s!"unsupported operand type(s) for {operator}: '{left}' and '{right}'"
  | onlyConcatenates kind other => s!"can only concatenate {kind} (not \"{other}\") to {kind}"
  | repeatedByNonInteger kind => s!"can't multiply sequence by non-int of type '{kind}'"
  | noMagnitude kind => s!"bad operand type for abs(): '{kind}'"
  | noRounding kind => s!"type {kind} doesn't define __round__ method"
  | noLength kind => s!"object of type '{kind}' has no len()"
  | notIterable kind => s!"'{kind}' object is not iterable"
  | notUnpackable kind => s!"cannot unpack non-iterable {kind} object"
  | tooManyToUnpack expected => s!"too many values to unpack (expected {expected})"
  | tooFewToUnpack expected found =>
      s!"not enough values to unpack (expected {expected}, got {found})"
  | noMember kind member => s!"'{kind}' object has no attribute '{member}'"
  | noItemAssignment kind => s!"'{kind}' object does not support item assignment"
  | unusableKey kind => s!"unhashable type: '{kind}'"
  | notAnInteger kind => s!"'{kind}' object cannot be interpreted as an integer"
  | notAPosition kind => s!"list indices must be integers or slices, not {kind}"
  | notATextPosition kind => s!"string indices must be integers, not '{kind}'"
  | notASlice => "slice indices must be integers or None or have an __index__ method"
  | notReal kind => s!"float() argument must be a string or a real number, not '{kind}'"
  | notFormattable kind => s!"unsupported format string passed to {kind}.__format__"
  | unsuitedArguments callee => s!"{callee}(): incompatible function arguments"
  | unknownFormat code kind => s!"Unknown format code '{code}' for object of type '{kind}'"
  | badUpdateElement position length =>
      s!"dictionary update sequence element #{position} has length {length}; 2 is required"
  | badUpdateItem position =>
      s!"cannot convert dictionary update sequence element #{position} to a sequence"
  | badSeed => "The only supported seed types are: None,\nint, float, str, bytes, and bytearray."
  | leftOverText => "not all arguments converted during string formatting"
  | tooFewForForm => "not enough arguments for format string"
  | unnamedNumber => "format requires a mapping"
  | takenArgument callee argument => s!"{callee}() got multiple values for argument '{argument}'"
  | unnamedArgument => "keywords must be strings"
  | notText kind => s!"str expected, not {kind}"
  | notAPath kind => s!"expected str, bytes or os.PathLike object, not {kind}"
  | unreadableReal shown => s!"could not convert string to float: {shown}"
  | unreadableInteger shown => s!"invalid literal for int() with base 10: {shown}"
  | tooManyDigits count =>
      "Exceeds the limit (4300 digits) for integer string conversion: value has " ++
        s!"{count} digits; use sys.set_int_max_str_digits() to increase the limit"
  | integerTooLarge => "int too large to convert to float"
  | quotientTooLarge => "integer division result too large for a float"
  | infiniteInteger => "cannot convert float infinity to integer"
  | undefinedInteger => "cannot convert float NaN to integer"
  | divisionByZero => "float division by zero"
  | unfinishedForm => "incomplete format"
  | gapTooWide => "width too big"
  | tooManyPlaces => "precision too big"
  | unknownLetter letter code position =>
      s!"unsupported format character '{letter}' (0x{code}) at index {position}"
  | outOfRange => "list index out of range"
  | outOfTextRange => "string index out of range"
  | positionTooLarge => "cannot fit 'int' into an index-sized integer"
  | repetitionTooLarge => "cannot fit 'int' into an index-sized integer"
  | textTooLong => "repeated string is too long"
  | countTooLarge => "Python int too large to convert to C ssize_t"
  | outOfMemory => ""
  | missingKey shown => shown
  | objectiveSense shown => s!"Objective sense must be 'min' or 'max', got {shown}"
  | invertedBounds lower upper => s!"Column bounds are inverted: [{lower}, {upper}]"
  | rowSense shown => s!"Row sense must be one of ('<=', '>=', '='), got {shown}"
  | unknownColumn column => s!"Row references unknown column {column}"
  | solverMissing => "HiGHS is not available. Install it with: pip install highspy"
  | unknownPolicy shown =>
      s!"Unknown separation strategy {shown}; expected 'max', 'first' or 'random'"
  | noNodes => "num_nodes must be at least 1"
  | unknownNode left right => s!"Edge ({left}, {right}) references an unknown node"
  | selfLoop node => s!"Self-loop on node {node} is not allowed"
  | labelCount => "node_labels must have one entry per node"
  | directed => "Spanning trees are defined on undirected graphs"
  | missingNode => "None cannot be a node"
  | negativeNodeCount count => s!"Negative number of nodes not valid: {count}"
  | nullGraph => "Connectivity is undefined for the null graph."
  | noSuchFile path => s!"[Errno 2] No such file or directory: {path}"
  | fileExists path => s!"[Errno 17] File exists: {path}"
  | notDirectory path => s!"[Errno 20] Not a directory: {path}"
  | isDirectory path => s!"[Errno 21] Is a directory: {path}"
  | nameTooLong path => s!"[Errno 36] File name too long: {path}"
  | embeddedNull => "embedded null byte"
  | noHome => "Could not determine home directory."
  | badVariable => "[Errno 22] Invalid argument"
  | badVariableName => "illegal environment variable name"
  | foreign _ message => message

end Fault

/-- What kind of thing is wrong, whatever the details. -/
inductive Nature where
  /-- A value is of the wrong kind. -/
  | mismatch
  /-- A value is of the right kind and still refused. -/
  | unacceptable
  | noSuchMember
  | tooLarge
  | zeroDivisor
  | noSuchPosition
  | noSuchKey
  | outOfMemory
  | noSolver
  | badGraph
  | emptyGraph
  | noSuchFile
  | fileExists
  | notDirectory
  | isDirectory
  | systemRefusal
  | noHome
  /-- A nature that a supplied action names itself. -/
  | named (kind : String)
  deriving DecidableEq, Repr

/-- The nature of a fault. -/
def Fault.nature : Fault → Nature
  | incomparable .. | unsupportedOperands .. | onlyConcatenates .. | repeatedByNonInteger ..
  | noMagnitude .. | noRounding .. | noLength .. | notIterable .. | notUnpackable ..
  | noItemAssignment .. | unsuitedArguments .. | unusableKey .. | notAnInteger .. | notAPosition .. | notATextPosition ..
  | notASlice | notReal .. | notFormattable .. | badUpdateItem .. | badSeed | leftOverText
  | tooFewForForm | unnamedNumber | takenArgument .. | unnamedArgument | notText _
  | notAPath _ => .mismatch
  | noMember .. => .noSuchMember
  | integerTooLarge | quotientTooLarge | infiniteInteger | repetitionTooLarge | textTooLong
  | countTooLarge => .tooLarge
  | divisionByZero => .zeroDivisor
  | outOfRange | outOfTextRange | positionTooLarge => .noSuchPosition
  | missingKey _ => .noSuchKey
  | outOfMemory => .outOfMemory
  | solverMissing => .noSolver
  | negativeNodeCount _ => .badGraph
  | nullGraph => .emptyGraph
  | noSuchFile _ => .noSuchFile
  | fileExists _ => .fileExists
  | notDirectory _ => .notDirectory
  | isDirectory _ => .isDirectory
  | nameTooLong _ | badVariable => .systemRefusal
  | noHome => .noHome
  | foreign kind _ => .named kind
  | _ => .unacceptable

end CuttingPlanes
