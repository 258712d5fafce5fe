import CuttingPlanes.Proofs.Files.Tree
import CuttingPlanes.Proofs.Settings.File
import CuttingPlanes.Proofs.Text.Upper
import CuttingPlanes.Settings.Desk

/-! Settings come back from their own entries, and from the files that they are saved in. -/

namespace CuttingPlanes

namespace Settings

/-- The seed that settings are made with, before it is read. -/
def startingSeed (environment : Environment) (given : Given) : Except Fault Datum :=
  given.seed.elim (environmentSeed environment) .ok

/-- Settings are made of what is given, once a seed is found and read. -/
theorem make_eq (environment : Environment) (given : Given) :
    make environment given = do
      let seed ← startingSeed environment given
      let read ← normalSeed seed
      return {
        logLevel := Text.upper (given.logLevel.getD (environmentLevel environment)).plain
        defaultStrategy := given.defaultStrategy.getD usualStrategy
        seed := read
        tolerances := given.tolerances.getD Tolerances.usual } := by
  obtain ⟨level, strategy, seed, tolerances⟩ := given
  cases seed <;> rfl

/-- Settings as they come about: from what is given, and by tolerances that are put into them. -/
inductive IsMade : Settings → Prop where
  | make {environment : Environment} {given : Given} {settings : Settings}
      (made : make environment given = .ok settings) : IsMade settings
  | withTolerance {settings changed : Settings} {name value : Datum} (before : IsMade settings)
      (put : settings.withTolerance name value = .ok changed) : IsMade changed

/--
Settings that a file can hold, with doubles as their tolerances. Of the seed and of these doubles it
is taken that reading undoes writing.
-/
structure IsWritable (settings : Settings) (entries : List (String × Float)) : Prop where
  plain : ∀ c ∈ settings.logLevel.toList, Text.isPlain c = true
  level : IsQuotable settings.logLevel
  strategy : ∃ s, settings.defaultStrategy = .text s ∧ IsQuotable s
  seed : settings.seed = .nothing ∨
    ∃ n, settings.seed = .int n ∧ Reading.integer (Layout.integer n) = .ok n
  tolerances : settings.tolerances = .ofWords (Tolerances.reals entries)
  distinct : (entries.map Prod.fst).Nodup
  names : ∀ entry ∈ entries, IsLineName entry.1
  reals : ∀ entry ∈ entries, Reading.real? (Layout.shortest entry.2) = some entry.2

/-- Settings that answer as others do, whatever tolerance they are asked for. -/
structure AnswersAs (settings others : Settings) : Prop where
  logLevel : settings.logLevel = others.logLevel
  defaultStrategy : settings.defaultStrategy = others.defaultStrategy
  seed : settings.seed = others.seed
  tolerance : ∀ name, settings.tolerance name = others.tolerance name

/-- The level of reports is in capitals from the start. -/
theorem IsMade.exists_upper {settings : Settings} (made : settings.IsMade) :
    ∃ s, settings.logLevel = Text.upper s := by
  induction made with
  | make made =>
    obtain ⟨_, -, made⟩ := bind_eq_ok.1 (make_eq _ _ ▸ made)
    obtain ⟨_, -, ⟨⟩⟩ := bind_eq_ok.1 made
    exact ⟨_, rfl⟩
  | withTolerance _ put ih =>
    -- Another tolerance leaves the level alone.
    obtain ⟨_, -, ⟨⟩⟩ := bind_eq_ok.1 put
    exact ih

/-- The seed of an environment is a whole number or none, and needs no reading. -/
theorem normalSeed_of_environmentSeed {environment : Environment} {seed : Datum}
    (valid : environmentSeed environment = .ok seed) : normalSeed seed = .ok seed := by
  unfold environmentSeed at valid
  split at valid
  case h_1 s _ =>
    split at valid
    case isTrue =>
      cases valid
      rfl
    case isFalse =>
      rw [← bind_pure_comp] at valid
      obtain ⟨_, -, ⟨⟩⟩ := bind_eq_ok.1 valid
      rfl
  case h_2 =>
    cases valid
    rfl

/-- Where the seed of the environment is valid, there are usual settings. -/
theorem exists_usual {environment : Environment} {seed : Datum}
    (valid : environmentSeed environment = .ok seed) :
    ∃ settings, usual environment = .ok settings :=
  ⟨_, (make_eq _ _).trans (bind_eq_ok.2 ⟨seed, valid,
    bind_eq_ok.2 ⟨seed, normalSeed_of_environmentSeed valid, rfl⟩⟩)⟩

/-- What is given describes settings: a seed may be left out where they have none. -/
structure Given.Describes (given : Given) (settings : Settings) : Prop where
  logLevel : given.logLevel = some (.text settings.logLevel)
  defaultStrategy : given.defaultStrategy = some settings.defaultStrategy
  seed : given.seed.getD .nothing = settings.seed
  tolerances : given.tolerances = some settings.tolerances

/-- The names of the values that are no tolerances can stand in front of equals signs. -/
theorem isLineName_known :
    ∀ name ∈ ["log_level", "default_strategy", "seed"],
      IsLineName name ∧ name ≠ tolerancesName := by
  have plain : ∀ name ∈ ["log_level", "default_strategy", "seed"],
      '=' ∉ name.toList ∧ Text.IsUnbroken name ∧
        (name.toList.all fun c => Text.isBlank c = false) = true ∧
          name.toList.head? ≠ some '#' ∧ name ≠ tolerancesName := by
    decide +kernel
  intro name member
  obtain ⟨undivided, unbroken, bare, uncommented, ordinary⟩ := plain name member
  exact ⟨⟨undivided, unbroken, .of_forall (Text.forall_mem_of_all bare), uncommented⟩, ordinary⟩

/-- What has been read of a file in front of the values that are no tolerances. -/
def opened (values : List (String × Datum)) : Parsed := ⟨values, .held [], some "general"⟩

/-- A value that is no tolerance is put among the others. -/
theorem put_opened {name : String} (ordinary : name ≠ tolerancesName)
    (values : List (String × Datum)) (value : Datum) :
    (opened values).put name value = .ok (opened (Association.insert name value values)) :=
  Parsed.put_value (by simp [opened, tolerancesName]) ordinary value

/-- A line with quoted text puts it among the values. -/
theorem line_opened_quoted {name s : String}
    (known : name ∈ ["log_level", "default_strategy", "seed"]) (unquoted : '"' ∉ s.toList)
    (values : List (String × Datum)) :
    (opened values).line (name ++ " = \"" ++ s ++ "\"") =
      .ok (opened (Association.insert name (.text s) values)) := by
  obtain ⟨named, ordinary⟩ := isLineName_known name known
  have divided : name ++ " = \"" ++ s ++ "\"" = name ++ " = " ++ ("\"" ++ s ++ "\"") := by
    rw [show " = \"" = " = " ++ "\"" by decide]
    simp only [String.append_assoc]
  rw [divided, Parsed.line_quoted (opened values) named unquoted]
  exact put_opened ordinary values _

/-- The line of a seed puts it among the values. -/
theorem line_opened_seed {n : Int} (back : Reading.integer (Layout.integer n) = .ok n)
    (values : List (String × Datum)) :
    (opened values).line ("seed = " ++ Layout.integer n) =
      .ok (opened (Association.insert "seed" (.int n) values)) := by
  obtain ⟨named, ordinary⟩ := isLineName_known "seed" (by simp)
  exact (Parsed.line_integer (opened values) named back).trans (put_opened ordinary values _)

/-- The lines of a file in front of the tolerances. -/
def headLines (settings : Settings) : List String :=
  [ "# OpenRG Configuration", "", "[general]",
    "log_level = \"" ++ settings.logLevel ++ "\"",
    "default_strategy = \"" ++ settings.defaultStrategy.plain ++ "\"" ] ++
  (if settings.seed.isNothing then [] else ["seed = " ++ settings.seed.plain]) ++
  ["", "[tolerances]"]

/-- The values in a file that are no tolerances. -/
def headValues (settings : Settings) : List (String × Datum) :=
  [("log_level", .text settings.logLevel), ("default_strategy", settings.defaultStrategy)] ++
    if settings.seed.isNothing then [] else [("seed", settings.seed)]

section Written

variable {settings : Settings} {entries : List (String × Float)}
  (writable : settings.IsWritable entries)
include writable

/-- The seed of settings needs no reading. -/
theorem IsWritable.normalSeed_seed : normalSeed settings.seed = .ok settings.seed := by
  rcases writable.seed with none | ⟨n, whole, -⟩
  · rw [none]
    rfl
  · rw [whole]
    rfl

/-- What describes settings makes settings that answer alike, in any environment that is valid. -/
theorem exists_ofEntries (made : settings.IsMade) {environment : Environment} {seed : Datum}
    (valid : environmentSeed environment = .ok seed) {given : Given}
    (described : given.Describes settings) :
    ∃ again, ofEntries environment given = .ok again ∧ again.AnswersAs settings := by
  obtain ⟨others, usually⟩ := exists_usual valid
  have capital : Text.upper settings.logLevel = settings.logLevel := by
    obtain ⟨s, same⟩ := made.exists_upper
    have plain := writable.plain
    rw [same] at plain ⊢
    exact Text.upper_upper plain
  have merged : (given.tolerances.getD (.held [])).overUsual = .ok (.ofWords
      (Association.updated Tolerances.usualWords (Tolerances.reals entries))) := by
    rw [described.tolerances, Option.getD_some, writable.tolerances]
    exact Tolerances.overUsual_ofWords _
  have again : ofEntries environment given = .ok ⟨settings.logLevel, settings.defaultStrategy,
      settings.seed, .ofWords (Association.updated Tolerances.usualWords
        (Tolerances.reals entries))⟩ := by
    refine bind_eq_ok.2 ⟨others, usually, bind_eq_ok.2 ⟨_, merged, (make_eq _ _).trans ?_⟩⟩
    refine bind_eq_ok.2 ⟨settings.seed, congrArg Except.ok described.seed,
      bind_eq_ok.2 ⟨settings.seed, writable.normalSeed_seed, ?_⟩⟩
    simp [described.logLevel, described.defaultStrategy, Datum.plain, capital, pure, Except.pure]
  refine ⟨_, again, rfl, rfl, rfl, fun name => ?_⟩
  unfold tolerance
  rw [writable.tolerances]
  refine Tolerances.get_overUsual ?_ name
  rw [Tolerances.fst_reals]
  exact writable.distinct

/-- The tolerances are entries, whichever member is asked of them. -/
theorem IsWritable.entriesFor (member : String) :
    settings.tolerances.entriesFor member =
      .ok ((Tolerances.reals entries).map fun entry => (.text entry.1, entry.2)) := by
  rw [writable.tolerances]
  rfl

/-- The entries of settings describe them. -/
theorem exists_toEntries : ∃ given, settings.toEntries = .ok given ∧ given.Describes settings :=
  ⟨_, bind_eq_ok.2 ⟨_, writable.entriesFor "copy", rfl⟩, rfl, rfl, rfl,
    congrArg some writable.tolerances.symm⟩

/-- The lines of a file are those in front of the tolerances and one for each of these. -/
theorem fileLines_eq :
    settings.fileLines = .ok (settings.headLines ++ entries.map Parsed.toleranceLine) := by
  rw [fileLines, Tolerances.listed, writable.entriesFor]
  simp [headLines, Tolerances.reals, Parsed.toleranceLine, Function.comp_def, Datum.plain,
    Datum.shown, bind, Except.bind, pure, Except.pure]

/-- The lines in front of the tolerances give their values and open the last section. -/
theorem foldlM_headLines :
    settings.headLines.foldlM Parsed.line Parsed.start =
      .ok ⟨settings.headValues, .held [], some tolerancesName⟩ := by
  obtain ⟨s, strategy, quotable⟩ := writable.strategy
  have comment : Parsed.start.line "# OpenRG Configuration" = .ok Parsed.start :=
    Parsed.line_comment Parsed.start " OpenRG Configuration"
  have general : Parsed.start.line "[general]" = .ok (opened []) :=
    Parsed.line_heading Parsed.start "general"
  have level : (opened []).line ("log_level = \"" ++ settings.logLevel ++ "\"") = _ :=
    line_opened_quoted (by simp : "log_level" ∈ _) writable.level.unquoted []
  have policy (values) : (opened values).line ("default_strategy = \"" ++ s ++ "\"") = _ :=
    line_opened_quoted (by simp : "default_strategy" ∈ _) quotable.unquoted values
  have tolerances (values) : (opened values).line "[tolerances]" =
      .ok ⟨values, .held [], some tolerancesName⟩ :=
    Parsed.line_heading (opened values) "tolerances"
  rcases writable.seed with none | ⟨n, whole, back⟩
  · simp [headLines, headValues, strategy, none, Datum.plain, Datum.isNothing, comment, general,
      level, policy, tolerances, Parsed.line_empty, Association.insert, bind, Except.bind, pure,
      Except.pure]
  · simp [headLines, headValues, strategy, whole, Datum.plain, Datum.shown, Datum.isNothing,
      comment, general, level, policy, tolerances, line_opened_seed back, Parsed.line_empty,
      Association.insert, bind, Except.bind, pure, Except.pure]

/-- No line of a file has a break in it. -/
theorem unbroken_lines :
    ∀ line ∈ settings.headLines ++ entries.map Parsed.toleranceLine, Text.IsUnbroken line := by
  have numeric : ∀ c ∈ Layout.numerals, Text.isLineBreak c = false :=
    Text.forall_mem_of_all (by decide)
  obtain ⟨s, strategy, quotable⟩ := writable.strategy
  have quoted {opening inner : String} (fixed : Text.IsUnbroken opening)
      (unbroken : Text.IsUnbroken inner) : Text.IsUnbroken (opening ++ inner ++ "\"") :=
    (fixed.append unbroken).append (by decide)
  have first : ∀ line ∈ settings.headLines, Text.IsUnbroken line := by
    refine List.forall_mem_append.2 ⟨List.forall_mem_append.2 ⟨?_, ?_⟩, by decide⟩
    · simp only [List.forall_mem_cons, strategy, Datum.plain]
      exact ⟨by decide, by decide, by decide, quoted (by decide) writable.level.unbroken,
        quoted (by decide) quotable.unbroken, nofun⟩
    · rcases writable.seed with none | ⟨n, whole, -⟩
      · rw [none]
        nofun
      · rw [whole]
        refine List.forall_mem_singleton.2 (.append (by decide) fun c member => ?_)
        exact numeric c (Layout.mem_numerals_of_mem_integer member)
  refine List.forall_mem_append.2 ⟨first, fun line member => ?_⟩
  obtain ⟨entry, listed, rfl⟩ := List.mem_map.1 member
  refine ((writable.names entry listed).unbroken.append (by decide)).append fun c written => ?_
  exact numeric c ((Layout.isReal_shortest entry.2).written c written)

/-- The text of settings describes them when it is read. -/
theorem exists_givenInFile :
    ∃ text given, settings.toFile = .ok text ∧ givenInFile text = .ok given ∧
      given.Describes settings := by
  have lines := Text.lines_unlines (by simp [headLines]) (unbroken_lines writable)
  have tolerances : (entries.map Parsed.toleranceLine).foldlM Parsed.line
      ⟨settings.headValues, .held [], some tolerancesName⟩ =
        .ok ⟨settings.headValues, settings.tolerances, some tolerancesName⟩ := by
    have distinct := writable.distinct
    rw [← Tolerances.fst_reals] at distinct
    have same : Association.updated [] (Tolerances.reals entries) = Tolerances.reals entries :=
      Association.ofPairs_of_nodup distinct
    have empty : (⟨settings.headValues, .held [], some tolerancesName⟩ : Parsed).tolerances =
        .ofWords [] := rfl
    rw [Parsed.foldlM_toleranceLine writable.names writable.reals rfl empty, same,
      writable.tolerances]
  have read : (settings.headLines ++ entries.map Parsed.toleranceLine).foldlM Parsed.line
      Parsed.start = .ok ⟨settings.headValues, settings.tolerances, some tolerancesName⟩ := by
    rw [List.foldlM_append, foldlM_headLines writable]
    exact tolerances
  refine ⟨_, _, bind_eq_ok.2 ⟨_, fileLines_eq writable, rfl⟩,
    bind_eq_ok.2 ⟨_, lines.symm ▸ read, rfl⟩, rfl, rfl, ?_, rfl⟩
  -- A seed that is absent has no line.
  rcases writable.seed with none | ⟨n, whole, -⟩
  · simp [headValues, none, Datum.isNothing, Parsed.given, Association.find?]
  · simp [headValues, whole, Datum.isNothing, Parsed.given, Association.find?]

end Written

/-- Settings are loaded from the file that a path leads to. -/
theorem load_of_get {environment : Environment} {tree : FileTree} {path : Option Files.Path}
    {text : String} (led : tree.get (path.getD usualPath) = .ok (.file text))
    (homed : path = none → ∃ own, userPath environment = .ok own) :
    load environment tree path = ofFile environment text := by
  have there := FileTree.has_of_get led
  have read := FileTree.read_of_get led
  cases path with
  | some path =>
    simp only [Option.getD_some] at there read
    simp [load, there, read, bind, Except.bind, pure, Except.pure]
  | none =>
    obtain ⟨own, home⟩ := homed rfl
    simp only [Option.getD_none] at there read
    simp [load, firstPlace, home, there, read, bind, Except.bind, pure, Except.pure]

end Settings

namespace Desk

/-- Work on the files leaves the rest of the desk as it is. -/
theorem meets_onFiles {action : Action FileTree Unit} {desk : Desk} {given : Unit → Desk → Prop}
    {failed : Interrupt → Desk → Prop} :
    (onFiles action).Meets desk given failed ↔
      action.Meets desk.files (fun value files => given value { desk with files })
        fun cause files => failed cause { desk with files } := Iff.rfl

/-- Saving writes the text of the settings, or leaves everything as it is when that is refused. -/
theorem meets_save {settings : Settings} {text : String} (made : settings.toFile = .ok text)
    (path : Option Files.Path) (desk : Desk) :
    (save settings path).Meets desk
      (fun _ after => desk.files.write (path.getD Settings.usualPath) text = .ok after.files)
      fun cause after => after = desk ∧ ∃ fault, cause = .raised fault ∧
        desk.files.write (path.getD Settings.usualPath) text = .error fault := by
  simp only [save, made, Action.ofExcept_ok, pure_bind, Action.meets_bind, meets_onFiles,
    FileTree.meets_change, Action.meets_get, Action.meets_ofExcept, Action.meets_pure]
  cases written : desk.files.write (path.getD Settings.usualPath) text with
  | error fault => exact ⟨trivial, fault, rfl, rfl⟩
  | ok files =>
    -- Nothing is refused any more when the text is read again.
    obtain ⟨found, read⟩ := FileTree.exists_read_of_write written
    simp only [read]

end Desk

namespace Settings

/--
Settings come back from their own entries and from a file that they are saved in, with the same
answers, whatever level and whatever valid seed the environment asks for. Only the files may refuse
to save them, and only what holds no text does not give them back.
-/
theorem come_back {settings : Settings} {entries : List (String × Float)} (made : settings.IsMade)
    (writable : settings.IsWritable entries) {environment : Environment} {seed : Datum}
    (valid : environmentSeed environment = .ok seed) :
    (∃ given again, settings.toEntries = .ok given ∧ ofEntries environment given = .ok again ∧
      again.AnswersAs settings) ∧
    ∀ (desk : Desk) (path : Option Files.Path),
      desk.files.get (path.getD usualPath) ≠ .ok .sink →
      (path = none → ∃ own, userPath environment = .ok own) →
      (Desk.save settings path).Meets desk
        (fun _ after => ∃ again, load environment after.files path = .ok again ∧
          again.AnswersAs settings)
        fun cause after => after = desk ∧ ∃ text fault, cause = .raised fault ∧
          settings.toFile = .ok text ∧
            desk.files.write (path.getD usualPath) text = .error fault := by
  constructor
  · obtain ⟨given, copied, described⟩ := exists_toEntries writable
    obtain ⟨again, back, answers⟩ := exists_ofEntries writable made valid described
    exact ⟨given, again, copied, back, answers⟩
  · intro desk path held homed
    obtain ⟨text, given, written, read, described⟩ := exists_givenInFile writable
    obtain ⟨again, back, answers⟩ := exists_ofEntries writable made valid described
    refine (Desk.meets_save written path desk).imp ?_ ?_
    · intro _ after saved
      refine ⟨again, ?_, answers⟩
      rcases FileTree.get_of_write saved with led | ⟨-, sink⟩
      · rw [load_of_get led homed]
        exact bind_eq_ok.2 ⟨given, read, back⟩
      · exact absurd sink held
    · rintro cause after ⟨same, fault, raised, refused⟩
      exact ⟨same, text, fault, raised, written, refused⟩

/-- Settings with a negative seed, and with a tolerance of their own in place of the usual ones. -/
def gapped : Settings :=
  ⟨"DEBUG", .text "first", .int (-5),
    .ofWords (Tolerances.reals [("gap", Binary64.nearest (1 / 4))])⟩

theorem isMade_gapped : gapped.IsMade := by
  have capital : Text.upper "debug" = "DEBUG" := by decide +kernel
  have given : make [] ⟨some (.text "debug"), some (.text "first"), some (.int (-5)),
      some (.held [])⟩ = .ok ⟨"DEBUG", .text "first", .int (-5), .held []⟩ := by
    rw [← capital]
    rfl
  have put : withTolerance ⟨"DEBUG", .text "first", .int (-5), .held []⟩ (.text "gap")
      (.float (Binary64.nearest (1 / 4))) = .ok gapped := rfl
  exact .withTolerance (.make given) put

theorem isWritable_gapped : gapped.IsWritable [("gap", Binary64.nearest (1 / 4))] where
  plain := Text.forall_mem_of_all (by decide)
  level := ⟨by decide, by decide⟩
  strategy := ⟨"first", rfl, by decide, by decide⟩
  seed := .inr ⟨-5, rfl, Reading.integer_integer (by decide)⟩
  tolerances := rfl
  distinct := by decide
  names := List.forall_mem_singleton.2
    ⟨by decide, by decide, .of_forall (Text.forall_mem_of_all (by decide +kernel)), by decide⟩
  reals := List.forall_mem_singleton.2 (by decide +kernel)

/-- Settings with a tolerance of their own come back though the environment asks for others. -/
theorem gapped_come_back :
    (∃ given again, gapped.toEntries = .ok given ∧
      ofEntries [("OPENRG_LOG_LEVEL", "error"), ("OPENRG_SEED", "")] given = .ok again ∧
        again.AnswersAs gapped) ∧
    (Desk.save gapped (some ⟨"", ["openrg.toml"]⟩)).Meets (Desk.inEnvironment [])
      (fun _ after => ∃ again,
        load [("OPENRG_LOG_LEVEL", "error"), ("OPENRG_SEED", "")] after.files
          (some ⟨"", ["openrg.toml"]⟩) = .ok again ∧ again.AnswersAs gapped)
      fun cause after => after = Desk.inEnvironment [] ∧ ∃ text fault, cause = .raised fault ∧
        gapped.toFile = .ok text ∧
          FileTree.standard.write ⟨"", ["openrg.toml"]⟩ text = .error fault := by
  have free : (Desk.inEnvironment []).files.get ⟨"", ["openrg.toml"]⟩ ≠ .ok .sink := by
    intro led
    obtain ⟨place, placed, found⟩ := bind_eq_ok.1 led
    obtain ⟨_, -, followed⟩ := bind_eq_ok.1 placed
    obtain rfl : ["tmp", "openrg", "work", "openrg.toml"] = place := Except.ok.inj followed
    cases found
  obtain ⟨entries, files⟩ := come_back isMade_gapped isWritable_gapped (rfl : environmentSeed
    [("OPENRG_LOG_LEVEL", "error"), ("OPENRG_SEED", "")] = .ok .nothing)
  exact ⟨entries, files (Desk.inEnvironment []) (some ⟨"", ["openrg.toml"]⟩) free nofun⟩

end Settings

end CuttingPlanes
