import CuttingPlanes.Text.Blank
import CuttingPlanes.Text.Lines
import Mathlib.Data.List.Basic

/-! Lines that are joined can be cut apart again, and what is put around text can be dropped. -/

namespace CuttingPlanes.Text

/-- What a check of every character says of each of them. -/
theorem forall_mem_of_all {holds : Char → Prop} [DecidablePred holds] {cs : List Char}
    (all : (cs.all fun c => holds c) = true) : ∀ c ∈ cs, holds c := by
  simpa using all

/-- Text that is one line: no character of it ends a line. -/
def IsUnbroken (s : String) : Prop := ∀ c ∈ s.toList, isLineBreak c = false

instance (s : String) : Decidable (IsUnbroken s) :=
  decidable_of_iff (s.toList.all fun c => !isLineBreak c) (by simp [IsUnbroken])

/-- Unbroken text behind unbroken text is unbroken. -/
theorem IsUnbroken.append {left right : String} (first : IsUnbroken left)
    (second : IsUnbroken right) : IsUnbroken (left ++ right) := by
  intro c member
  rw [String.toList_append] at member
  exact (List.mem_append.1 member).elim (first c) (second c)

/-- Text before a line feed is a line of its own, behind what has been read of it. -/
theorem linesFrom_append {cs : List Char} (unbroken : ∀ c ∈ cs, isLineBreak c = false)
    (read rest : List Char) :
    linesFrom read (cs ++ '\n' :: rest) = (read.reverse ++ cs) :: linesFrom [] rest := by
  induction cs generalizing read with
  | nil => simp [linesFrom, isLineBreak]
  | cons c cs ih =>
    have passed : isLineBreak c = false := unbroken c List.mem_cons_self
    -- A carriage return would end the line.
    have different : c ≠ '\r' := by
      rintro rfl
      cases passed
    rw [List.cons_append, linesFrom, passed, if_neg Bool.false_ne_true,
      ih (fun other member => unbroken other (List.mem_cons_of_mem c member))]
    · simp
    · exact fun rest same => absurd same different

/-- Lines that are joined, with a line feed behind the last one as behind the others. -/
theorem toList_unlines (first : String) (rest : List String) :
    (unlines (first :: rest) ++ "\n").toList =
      (first :: rest).flatMap fun line => line.toList ++ ['\n'] := by
  induction rest generalizing first with
  | nil => simp [unlines]
  | cons second rest ih =>
    have later := ih second
    simp only [unlines, String.toList_append] at later ⊢
    rw [String.intercalate_cons_cons, String.toList_append, String.toList_append,
      List.flatMap_cons, ← later]
    simp

/-- Lines that are joined are cut apart again. -/
theorem lines_unlines {lines : List String} (some : lines ≠ [])
    (unbroken : ∀ line ∈ lines, IsUnbroken line) :
    Text.lines (unlines lines ++ "\n") = lines := by
  -- Line by line, what stands before the next line feed is the next line.
  have cut : linesFrom [] (lines.flatMap fun line => line.toList ++ ['\n']) =
      lines.map String.toList := by
    clear some
    induction lines with
    | nil => rfl
    | cons line rest ih =>
      rw [List.flatMap_cons, List.append_assoc]
      refine (linesFrom_append (unbroken line List.mem_cons_self) [] _).trans ?_
      exact congrArg (line.toList :: ·)
        (ih fun other member => unbroken other (List.mem_cons_of_mem line member))
  obtain ⟨first, rest, rfl⟩ := List.exists_cons_of_ne_nil some
  rw [Text.lines, toList_unlines, cut, List.map_map]
  simp [Function.comp_def]

/-- Characters of which neither the first nor the last is one that a test accepts. -/
structure HasBareEnds (drops : Char → Bool) (cs : List Char) : Prop where
  head : ∀ c ∈ cs.head?, drops c = false
  last : ∀ c ∈ cs.getLast?, drops c = false

/-- Characters none of which a test accepts have bare ends. -/
theorem HasBareEnds.of_forall {drops : Char → Bool} {cs : List Char}
    (kept : ∀ c ∈ cs, drops c = false) : HasBareEnds drops cs where
  head c first := kept c (List.mem_of_mem_head? first)
  last c final := kept c (List.mem_of_mem_getLast? final)

/-- Characters in front of others have bare ends where the outer ends of both are bare. -/
theorem HasBareEnds.append {drops : Char → Bool} {front back : List Char} (first : front ≠ [])
    (second : back ≠ []) (head : ∀ c ∈ front.head?, drops c = false)
    (last : ∀ c ∈ back.getLast?, drops c = false) : HasBareEnds drops (front ++ back) where
  head := by rwa [List.head?_append_of_ne_nil front first]
  last := by rwa [List.getLast?_append_of_ne_nil front second]

/-- Characters between two that are kept have bare ends. -/
theorem HasBareEnds.enclosed {drops : Char → Bool} {first last : Char}
    (opening : drops first = false) (closing : drops last = false) (inner : List Char) :
    HasBareEnds drops (first :: inner ++ [last]) :=
  .append (List.cons_ne_nil first inner) (List.cons_ne_nil last [])
    (by simpa using opening) (by simpa using closing)

/-- What is dropped in front of a bare head is all that is dropped. -/
theorem dropWhile_append {drops : Char → Bool} {before cs : List Char}
    (dropped : ∀ c ∈ before, drops c = true) (bare : ∀ c ∈ cs.head?, drops c = false) :
    (before ++ cs).dropWhile drops = cs := by
  rw [List.dropWhile_append_of_pos dropped]
  cases cs with
  | nil => rfl
  | cons c cs => exact List.dropWhile_cons_of_neg (by simp [bare c rfl])

/-- Characters in front of one that is not among them end where it first stands. -/
theorem takeWhile_ne_append {c : Char} {front : List Char} (absent : c ∉ front) (rest : List Char) :
    (front ++ c :: rest).takeWhile (· != c) = front := by
  rw [List.takeWhile_append_of_pos fun other member => by
    simpa using ne_of_mem_of_not_mem member absent]
  simp

/-- A character that is not among those in front of it begins what is behind them. -/
theorem dropWhile_ne_append {c : Char} {front : List Char} (absent : c ∉ front) (rest : List Char) :
    (front ++ c :: rest).dropWhile (· != c) = c :: rest :=
  dropWhile_append (fun other member => by simpa using ne_of_mem_of_not_mem member absent)
    (by simp)

/-- Characters with bare ends are left of what is dropped on either side of them. -/
theorem trimWhere_append {drops : Char → Bool} {before cs after : List Char}
    (bare : HasBareEnds drops cs) (front : ∀ c ∈ before, drops c = true)
    (back : ∀ c ∈ after, drops c = true) : trimWhere drops (before ++ cs ++ after) = cs := by
  cases cs with
  | nil =>
    -- All of it is dropped at once.
    have all : ∀ c ∈ before ++ after, drops c = true := fun c member =>
      (List.mem_append.1 member).elim (front c) (back c)
    have none : (before ++ after).dropWhile drops = [] := by
      simpa using @dropWhile_append drops _ [] all nofun
    rw [trimWhere, List.append_nil, none]
    rfl
  | cons c rest =>
    have ahead : (before ++ (c :: rest ++ after)).dropWhile drops = c :: rest ++ after :=
      dropWhile_append front bare.head
    have behind : ∀ last ∈ (c :: rest).reverse.head?, drops last = false := by
      rw [List.head?_reverse]
      exact bare.last
    rw [trimWhere, List.append_assoc, ahead, List.reverse_append,
      dropWhile_append (by simpa using back) behind, List.reverse_reverse]

/-- Characters with bare ends stay as they are. -/
theorem trimWhere_of_bare {drops : Char → Bool} {cs : List Char} (bare : HasBareEnds drops cs) :
    trimWhere drops cs = cs := by
  simpa using @trimWhere_append drops [] cs [] bare nofun nofun

/-- A bare head stays in front. -/
theorem head?_trimWhere {drops : Char → Bool} {c : Char} (bare : drops c = false)
    (rest : List Char) : (trimWhere drops (c :: rest)).head? = some c := by
  rw [trimWhere, List.dropWhile_cons_of_neg (by simp [bare]), List.reverse_cons,
    List.dropWhile_append, List.head?_reverse]
  split <;> simp [bare]

end CuttingPlanes.Text
