import CuttingPlanes.Proofs.Number.Reading
import CuttingPlanes.Proofs.Settings.Tolerances
import CuttingPlanes.Settings.File

/-! Lines of settings give back the names and values that they were written from. -/

namespace CuttingPlanes.Settings

/-- Text that can stand between double quotes on one line. -/
structure IsQuotable (s : String) : Prop where
  unquoted : '"' ∉ s.toList
  unbroken : Text.IsUnbroken s

/-- A name that can stand in front of an equals sign on one line. -/
structure IsLineName (name : String) : Prop where
  undivided : '=' ∉ name.toList
  unbroken : Text.IsUnbroken name
  bare : Text.HasBareEnds Text.isBlank name.toList
  uncommented : name.toList.head? ≠ some '#'

/-- Characters that can stand behind an equals sign and end a line that opens no section. -/
structure IsLineValue (cs : List Char) : Prop where
  some : cs ≠ []
  bare : Text.HasBareEnds Text.isBlank cs
  unclosed : cs.getLast? ≠ .some ']'

/-- Between double quotes stands the text that is read. -/
theorem readValue_quoted {s : String} (unquoted : '"' ∉ s.toList) :
    readValue ("\"" ++ s ++ "\"").toList = .ok (.text s) := by
  have chars : ("\"" ++ s ++ "\"").toList = ['"'] ++ s.toList ++ ['"'] := by simp
  have bare : Text.HasBareEnds (· == '"') s.toList := by
    refine .of_forall fun c member => beq_eq_false_iff_ne.2 ?_
    rintro rfl
    exact unquoted member
  have inner : Text.trimWhere (· == '"') (['"'] ++ s.toList ++ ['"']) = s.toList :=
    Text.trimWhere_append bare (by simp) (by simp)
  rw [chars, readValue, inner, String.ofList_toList]
  rfl

/-- No number begins as quoted text does. -/
theorem head?_ne_quote {cs : List Char} (written : ∀ c ∈ cs, c ∈ Layout.numerals) :
    (cs.head? == some '"') = false := by
  rw [beq_eq_false_iff_ne]
  intro first
  exact absurd (written _ (List.mem_of_head? first)) (by decide)

/-- A whole number looks whole. -/
theorem looksWhole_integer (n : Int) : looksWhole (Layout.integer n).toList = true := by
  have digital c : c ∈ Layout.digits n.natAbs → c.isDigit = true := Layout.isDigit_of_mem_digits
  have behind : (Layout.integer n).toList.dropWhile (· == '-') = Layout.digits n.natAbs := by
    rw [Layout.toList_integer_eq]
    refine Text.dropWhile_append (fun c member => ?_) fun c first => ?_
    · split at member
      · simpa using member
      · cases member
    · -- The hyphen is no digit.
      rw [beq_eq_false_iff_ne]
      rintro rfl
      cases digital '-' (List.mem_of_head? first)
  have all : (Layout.digits n.natAbs).all Text.isDigit = true :=
    List.all_eq_true.2 fun c member => Text.isDigit_of_isDigit (digital c member)
  simp [looksWhole, behind, all, Layout.digits_ne_nil]

/-- A real does not look whole, since its mark is no digit. -/
theorem looksWhole_of_isReal {cs : List Char} (real : Layout.IsReal cs) :
    looksWhole cs = false := by
  obtain ⟨mark, member, marks⟩ := real.marked
  have plain : ∀ c ∈ Layout.marks, c ≠ '-' ∧ Text.isDigit c = false :=
    Text.forall_mem_of_all (by decide +kernel)
  obtain ⟨different, other⟩ := plain mark marks
  -- The mark is still there when the hyphens in front are dropped.
  have kept : mark ∈ cs.dropWhile (· == '-') := by
    rw [← List.takeWhile_append_dropWhile (p := (· == '-')) (l := cs), List.mem_append] at member
    exact member.resolve_left fun hyphen => different (by simpa using List.mem_takeWhile_imp hyphen)
  have odd : (cs.dropWhile (· == '-')).all Text.isDigit = false :=
    List.all_eq_false.2 ⟨mark, kept, by simp [other]⟩
  simp [looksWhole, odd]

/-- A whole number that is read back is read back as a value. -/
theorem readValue_integer {n : Int} (back : Reading.integer (Layout.integer n) = .ok n) :
    readValue (Layout.integer n).toList = .ok (.int n) := by
  have unquoted := head?_ne_quote fun c => @Layout.mem_numerals_of_mem_integer n c
  simp [readValue, unquoted, looksWhole_integer, back]

/-- A double that is read back is read back as a value. -/
theorem readValue_shortest {x : Float} (back : Reading.real? (Layout.shortest x) = some x) :
    readValue (Layout.shortest x).toList = .ok (.float x) := by
  have real := Layout.isReal_shortest x
  have unquoted := head?_ne_quote real.written
  simp [readValue, unquoted, looksWhole_of_isReal real, Datum.toFloat, back]

/-- Quoted text can stand at the end of a line. -/
theorem isLineValue_quoted (s : String) : IsLineValue ("\"" ++ s ++ "\"").toList := by
  have chars : ("\"" ++ s ++ "\"").toList = ('"' :: s.toList) ++ ['"'] := by simp
  have quote : Text.isBlank '"' = false := by decide +kernel
  rw [chars]
  refine ⟨List.cons_ne_nil _ _, .enclosed quote quote s.toList, ?_⟩
  rw [List.getLast?_concat]
  decide

/-- A number can stand at the end of a line. -/
theorem isLineValue_of_numerals {cs : List Char} (some : cs ≠ [])
    (written : ∀ c ∈ cs, c ∈ Layout.numerals) : IsLineValue cs := by
  have plain : ∀ c ∈ Layout.numerals, Text.isBlank c = false :=
    Text.forall_mem_of_all (by decide +kernel)
  refine ⟨some, .of_forall fun c member => plain c (written c member), fun last => ?_⟩
  exact absurd (written _ (List.mem_of_getLast? last)) (by decide)

/-- No section is opened by a line with a value at its end. -/
theorem sectionName?_append {front cs : List Char} (valued : IsLineValue cs) :
    sectionName? (front ++ cs) = none := by
  rw [sectionName?, List.getLast?_append_of_ne_nil _ valued.some,
    beq_eq_false_iff_ne.2 valued.unclosed, Bool.and_false]
  rfl

namespace Parsed

/-- An empty line says nothing. -/
theorem line_empty (parsed : Parsed) : parsed.line "" = .ok parsed := rfl

/-- A comment says nothing. -/
theorem line_comment (parsed : Parsed) (text : String) :
    parsed.line ("#" ++ text) = .ok parsed := by
  have chars : ("#" ++ text).toList = '#' :: text.toList := by simp
  have first := Text.head?_trimWhere (show Text.isBlank '#' = false by decide +kernel) text.toList
  simp [line, chars, first, pure, Except.pure]

/-- A name in square brackets opens a section. -/
theorem line_heading (parsed : Parsed) (name : String) :
    parsed.line ("[" ++ name ++ "]") = .ok { parsed with heading := some name } := by
  have chars : ("[" ++ name ++ "]").toList = ('[' :: name.toList) ++ [']'] := by simp
  have bare : Text.HasBareEnds Text.isBlank (('[' :: name.toList) ++ [']']) :=
    .enclosed (by decide +kernel) (by decide +kernel) name.toList
  have opens : sectionName? (('[' :: name.toList) ++ [']']) = some name := by
    rw [sectionName?, List.getLast?_concat]
    simp
  simp only [line, chars, Text.trimWhere_of_bare bare, opens]
  rfl

/--
Without the blanks around it, a line keeps its equals sign in front of the value; what is in front
of the sign is the name, with a blank behind it where the name is not empty.
-/
theorem exists_front {name : String} {value : List Char} (named : IsLineName name)
    (valued : IsLineValue value) :
    ∃ front, Text.trimWhere Text.isBlank (name.toList ++ ' ' :: '=' :: ' ' :: value) =
        front ++ '=' :: ' ' :: value ∧
      '=' ∉ front ∧ Text.trimWhere Text.isBlank front = name.toList ∧ front.head? ≠ some '#' := by
  have blank : ∀ c ∈ [' '], Text.isBlank c = true := List.forall_mem_singleton.2 (by decide +kernel)
  have last : ∀ c ∈ ('=' :: ' ' :: value).getLast?, Text.isBlank c = false := by
    rw [show '=' :: ' ' :: value = ['=', ' '] ++ value from rfl,
      List.getLast?_append_of_ne_nil _ valued.some]
    exact valued.bare.last
  by_cases empty : name.toList = []
  · -- The blank in front of the sign is dropped.
    refine ⟨[], ?_, by simp, empty.symm ▸ rfl, by simp⟩
    have bare : Text.HasBareEnds Text.isBlank ('=' :: ' ' :: value) := by
      refine ⟨?_, last⟩
      rintro _ ⟨⟩
      decide +kernel
    simpa [empty] using Text.trimWhere_append bare blank (by simp : ∀ c ∈ [], _)
  · refine ⟨name.toList ++ [' '], ?_, by simpa using named.undivided, ?_, ?_⟩
    · have bare : Text.HasBareEnds Text.isBlank (name.toList ++ ' ' :: '=' :: ' ' :: value) :=
        .append empty (List.cons_ne_nil _ _) named.bare.head (by simpa using last)
      simpa using Text.trimWhere_of_bare bare
    · simpa using @Text.trimWhere_append _ [] _ _ named.bare nofun blank
    · rw [List.head?_append_of_ne_nil _ empty]
      exact named.uncommented

/-- A line with a name and a value puts the value as it is read under the name. -/
theorem line_entry (parsed : Parsed) {name value : String} (named : IsLineName name)
    (valued : IsLineValue value.toList) :
    parsed.line (name ++ " = " ++ value) = readValue value.toList >>= parsed.put name := by
  have chars : (name ++ " = " ++ value).toList =
      name.toList ++ ' ' :: '=' :: ' ' :: value.toList := by
    simp
  obtain ⟨front, trimmed, undivided, bare, uncommented⟩ := exists_front named valued
  have first : (front ++ '=' :: ' ' :: value.toList).head? ≠ some '#' := by
    cases front with
    | nil => simp
    | cons c rest => exact uncommented
  have unopened : sectionName? (front ++ '=' :: ' ' :: value.toList) = none := by
    rw [show front ++ '=' :: ' ' :: value.toList = (front ++ ['=', ' ']) ++ value.toList by simp]
    exact sectionName?_append valued
  have read : Text.trimWhere Text.isBlank (' ' :: value.toList) = value.toList := by
    simpa using @Text.trimWhere_append _ [' '] _ [] valued.bare
      (List.forall_mem_singleton.2 (by decide +kernel)) nofun
  have some : (front ++ '=' :: ' ' :: value.toList).isEmpty = false := by simp
  have divided : (front ++ '=' :: ' ' :: value.toList).contains '=' = true := by simp
  -- The first equals sign is the one behind the name.
  simp only [line, chars, trimmed, some, beq_eq_false_iff_ne.2 first, unopened, divided,
    Text.takeWhile_ne_append undivided, Text.dropWhile_ne_append undivided, bare,
    List.drop_succ_cons, List.drop_zero, read, String.ofList_toList]
  rfl

/-- Quoted text is put under its name. -/
theorem line_quoted (parsed : Parsed) {name s : String} (named : IsLineName name)
    (unquoted : '"' ∉ s.toList) :
    parsed.line (name ++ " = " ++ ("\"" ++ s ++ "\"")) = parsed.put name (.text s) := by
  rw [line_entry parsed named (isLineValue_quoted s), readValue_quoted unquoted]
  rfl

/-- A whole number is put under its name. -/
theorem line_integer (parsed : Parsed) {name : String} {n : Int} (named : IsLineName name)
    (back : Reading.integer (Layout.integer n) = .ok n) :
    parsed.line (name ++ " = " ++ Layout.integer n) = parsed.put name (.int n) := by
  have some : (Layout.integer n).toList ≠ [] := by
    rw [Layout.toList_integer_eq]
    exact List.append_ne_nil_of_right_ne_nil _ (Layout.digits_ne_nil _)
  rw [line_entry parsed named
    (isLineValue_of_numerals some fun c => Layout.mem_numerals_of_mem_integer),
    readValue_integer back]
  rfl

/-- A double is put under its name. -/
theorem line_shortest (parsed : Parsed) {name : String} {x : Float} (named : IsLineName name)
    (back : Reading.real? (Layout.shortest x) = some x) :
    parsed.line (name ++ " = " ++ Layout.shortest x) = parsed.put name (.float x) := by
  have real := Layout.isReal_shortest x
  have some : (Layout.shortest x).toList ≠ [] := real.marked.elim fun c found =>
    List.ne_nil_of_mem found.1
  rw [line_entry parsed named (isLineValue_of_numerals some real.written), readValue_shortest back]
  rfl

/-- Outside the section of the tolerances a value is put among the others. -/
theorem put_value {parsed : Parsed} {name : String} (outside : parsed.heading ≠ some tolerancesName)
    (ordinary : name ≠ tolerancesName) (value : Datum) :
    parsed.put name value =
      .ok { parsed with values := Association.insert name value parsed.values } := by
  simp [put, outside, ordinary, pure, Except.pure]

/-- In the section of the tolerances a double is put among these. -/
theorem put_tolerance {parsed : Parsed} {known : List (String × Datum)}
    (inside : parsed.heading = some tolerancesName) (held : parsed.tolerances = .ofWords known)
    (name : String) (x : Float) :
    parsed.put name (.float x) =
      .ok { parsed with tolerances := .ofWords (Association.insert name (.float x) known) } := by
  simp [put, inside, held, Tolerances.set_ofWords, Datum.toFloat, Datum.numeral?,
    Datum.Numeral.toFloat, bind, Except.bind, pure, Except.pure]

/-- The line of a tolerance. -/
def toleranceLine (entry : String × Float) : String :=
  entry.1 ++ " = " ++ Layout.shortest entry.2

/-- Lines of tolerances in their section put them all, one after another. -/
theorem foldlM_toleranceLine {entries : List (String × Float)}
    (named : ∀ entry ∈ entries, IsLineName entry.1)
    (back : ∀ entry ∈ entries, Reading.real? (Layout.shortest entry.2) = some entry.2)
    {parsed : Parsed} {known : List (String × Datum)}
    (inside : parsed.heading = some tolerancesName) (held : parsed.tolerances = .ofWords known) :
    (entries.map toleranceLine).foldlM line parsed =
      .ok { parsed with
        tolerances := .ofWords (Association.updated known (Tolerances.reals entries)) } := by
  -- The section stays the same, so that every line meets the tolerances of the lines before it.
  induction entries generalizing parsed known with
  | nil => simp [Tolerances.reals, Association.updated, held.symm, pure, Except.pure]
  | cons entry rest ih =>
    rw [List.forall_mem_cons] at named back
    have first : parsed.line (toleranceLine entry) = _ :=
      (line_shortest parsed named.1 back.1).trans (put_tolerance inside held entry.1 entry.2)
    rw [List.map_cons, List.foldlM_cons, first]
    exact ih named.2 back.2 inside rfl

end Parsed

end CuttingPlanes.Settings
