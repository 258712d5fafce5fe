import CuttingPlanes.Number.Reading
import CuttingPlanes.Proofs.Text.Lines
import Mathlib.Data.List.TakeWhile

/-! How numbers look when they are written, and how whole numbers are read back. -/

namespace CuttingPlanes

/-- What holds of the ten digits holds of every character that counts as a plain digit. -/
theorem forall_isDigit (holds : Char → Prop) (all : ∀ n < 10, holds (Nat.digitChar n)) {c : Char}
    (digit : c.isDigit = true) : holds c := by
  have codes : ∀ code < 58, 48 ≤ code → Char.ofNat code = Nat.digitChar (code - 48) := by decide
  obtain ⟨low, high⟩ := Char.isDigit_iff_toNat.1 digit
  have low : 48 ≤ c.toNat := low
  have high : c.toNat ≤ 57 := high
  rw [← Char.ofNat_toNat c, codes c.toNat (by omega) low]
  exact all _ (by omega)

namespace Text

/-- A plain digit has its own value among the digits of every script. -/
theorem digitValue?_of_isDigit {c : Char} (digit : c.isDigit = true) :
    ∃ value, digitValue? c = some value ∧ Nat.digitChar value = c :=
  have known : ∀ n < 10, digitValue? (Nat.digitChar n) = some n := by decide +kernel
  forall_isDigit (fun c => ∃ value, digitValue? c = some value ∧ Nat.digitChar value = c)
    (fun n small => ⟨n, known n small, rfl⟩) digit

theorem isDigit_of_isDigit {c : Char} (digit : c.isDigit = true) : isDigit c = true := by
  obtain ⟨value, known, -⟩ := digitValue?_of_isDigit digit
  simp [isDigit, known]

end Text

namespace Layout

/-- The characters that numbers are written with. -/
def numerals : List Char := "0123456789-+.einfa".toList

/-- The characters of which every written real has one, and no written whole number. -/
def marks : List Char := ['.', 'e', 'n']

theorem isDigit_of_mem_digits {n : Nat} {c : Char} (member : c ∈ digits n) : c.isDigit = true :=
  Nat.isDigit_of_mem_toDigits (by decide) (by decide) member

theorem digits_ne_nil (n : Nat) : digits n ≠ [] := Nat.toDigits_ne_nil

theorem mem_numerals_of_isDigit {c : Char} (digit : c.isDigit = true) : c ∈ numerals :=
  forall_isDigit (· ∈ numerals) (by decide) digit

/-- A whole number is written by its digits, behind a hyphen when it is negative. -/
theorem toList_integer_eq (n : Int) :
    (integer n).toList = (if n < 0 then ['-'] else []) ++ digits n.natAbs := by
  unfold integer
  split <;> simp

theorem eq_or_isDigit_of_mem_integer {n : Int} {c : Char} (member : c ∈ (integer n).toList) :
    c = '-' ∨ c.isDigit = true := by
  rw [toList_integer_eq] at member
  rcases List.mem_append.1 member with hyphen | digit
  · split at hyphen
    · exact .inl (List.mem_singleton.1 hyphen)
    · cases hyphen
  · exact .inr (isDigit_of_mem_digits digit)

theorem mem_numerals_of_mem_integer {n : Int} {c : Char} (member : c ∈ (integer n).toList) :
    c ∈ numerals := by
  rcases eq_or_isDigit_of_mem_integer member with rfl | digit
  · decide
  · exact mem_numerals_of_isDigit digit

/-- Characters as they stand in a written real: all of numbers, and one of them a mark. -/
structure IsReal (cs : List Char) : Prop where
  written : ∀ c ∈ cs, c ∈ numerals
  marked : ∃ c ∈ cs, c ∈ marks

/-- A minus sign in front of a real leaves it one. -/
theorem IsReal.signed {cs : List Char} (real : IsReal cs) (negative : Bool) :
    IsReal (Layout.signed negative cs).toList := by
  cases negative with
  | false => simpa [Layout.signed] using real
  | true =>
    rw [Layout.signed, if_pos rfl, String.toList_ofList]
    obtain ⟨c, member, mark⟩ := real.marked
    exact ⟨List.forall_mem_cons.2 ⟨by decide, real.written⟩, c, List.mem_cons_of_mem _ member, mark⟩

section Digits

variable {cs : List Char} (digital : ∀ c ∈ cs, c.isDigit = true)
include digital

/-- Digits around a point are a real. -/
theorem isReal_positional (leading : Int) : IsReal (positional cs leading) := by
  have written c (member : c ∈ cs) : c ∈ numerals := mem_numerals_of_isDigit (digital c member)
  have zeros : ∀ count, ∀ c ∈ List.replicate count '0', c ∈ numerals := by
    intro count c member
    rw [List.eq_of_mem_replicate member]
    decide
  unfold positional
  split
  · refine ⟨?_, '.', by simp, by decide⟩
    exact List.forall_mem_cons.2 ⟨by decide, List.forall_mem_cons.2 ⟨by decide,
      List.forall_mem_append.2 ⟨zeros _, written⟩⟩⟩
  · dsimp only
    refine ⟨?_, '.', by simp, by decide⟩
    refine List.forall_mem_append.2 ⟨List.forall_mem_append.2
      ⟨fun c member => written c (List.mem_of_mem_take member), zeros _⟩, ?_⟩
    refine List.forall_mem_cons.2 ⟨by decide, ?_⟩
    -- A point that would end the number has a zero behind it.
    split
    · exact List.forall_mem_singleton.2 (by decide)
    · exact fun c member => written c (List.mem_of_mem_drop member)

/-- Digits with an exponent are a real. -/
theorem isReal_scientific (leading : Int) : IsReal (scientific cs leading) := by
  have written c (member : c ∈ cs) : c ∈ numerals := mem_numerals_of_isDigit (digital c member)
  unfold scientific padZeros
  dsimp only
  refine ⟨?_, 'e', by simp, by decide⟩
  refine List.forall_mem_append.2 ⟨List.forall_mem_append.2
    ⟨fun c member => written c (List.mem_of_mem_take member), ?_⟩, ?_⟩
  · -- The point is left out where no digit follows it.
    split
    · nofun
    · exact List.forall_mem_cons.2 ⟨by decide,
        fun c member => written c (List.mem_of_mem_drop member)⟩
  · refine List.forall_mem_cons.2 ⟨by decide, List.forall_mem_cons.2 ⟨?_, ?_⟩⟩
    · split <;> decide
    · refine List.forall_mem_append.2 ⟨fun c member => ?_, fun c member =>
        mem_numerals_of_isDigit (isDigit_of_mem_digits member)⟩
      rw [List.eq_of_mem_replicate member]
      decide

end Digits

/-- Every double is written as a real, whatever its size. -/
theorem isReal_shortest (x : Float) : IsReal (shortest x).toList := by
  unfold shortest
  split
  · exact ⟨Text.forall_mem_of_all (by decide), 'n', by decide, by decide⟩
  · exact IsReal.signed ⟨Text.forall_mem_of_all (by decide), 'n', by decide, by decide⟩ _
  · split
    · exact IsReal.signed ⟨Text.forall_mem_of_all (by decide), '.', by decide, by decide⟩ _
    · refine IsReal.signed ?_ _
      unfold decimal
      dsimp only
      split
      · exact isReal_positional (fun c => isDigit_of_mem_digits) _
      · exact isReal_scientific (fun c => isDigit_of_mem_digits) _

end Layout

namespace Reading

/-- Digits and hyphens are read as they stand. -/
theorem plain_eq {s : String} (known : ∀ c ∈ s.toList, c = '-' ∨ c.isDigit = true) :
    plain s = s.toList := by
  have bare : ∀ c ∈ s.toList, isPadding c = false := by
    intro c member
    rcases known c member with rfl | digit
    · decide +kernel
    · exact forall_isDigit (isPadding · = false) (by decide +kernel) digit
  rw [plain, Text.trimWhere_of_bare (.of_forall bare)]
  refine (List.map_congr_left fun c member => ?_).trans (List.map_id _)
  rcases known c member with rfl | digit
  · decide +kernel
  · obtain ⟨value, known, same⟩ := Text.digitValue?_of_isDigit digit
    rw [known]
    exact same

/-- The sign of a whole number stands in front of its digits. -/
theorem sign_integer (n : Int) :
    sign (Layout.integer n).toList = (decide (n < 0), Layout.digits n.natAbs) := by
  rw [Layout.toList_integer_eq]
  split
  case isTrue negative => simp [sign, negative]
  case isFalse positive =>
    rw [decide_eq_false positive, List.nil_append]
    -- No digit is taken for a sign.
    have digital c : c ∈ Layout.digits n.natAbs → c.isDigit = true := Layout.isDigit_of_mem_digits
    unfold sign
    split
    case h_1 rest same => cases digital '-' (by simp [same])
    case h_2 rest same => cases digital '+' (by simp [same])
    case h_3 => rfl

/-- Digits have no underscores that could be dropped. -/
theorem dropUnderscores_of_isDigit {cs : List Char} (digital : ∀ c ∈ cs, c.isDigit = true)
    (afterDigit : Bool) : dropUnderscores afterDigit cs = some cs := by
  induction cs generalizing afterDigit with
  | nil => rfl
  | cons c rest ih =>
    rw [dropUnderscores, ih fun other member => digital other (List.mem_cons_of_mem c member)]
    · rfl
    · rintro rfl
      cases digital '_' List.mem_cons_self

/-- The digits of a number are read as that number. -/
theorem digits?_digits (n : Nat) : digits? (Layout.digits n) = some n := by
  have digital : (Layout.digits n).all Char.isDigit = true :=
    List.all_eq_true.2 fun c => Layout.isDigit_of_mem_digits
  have value : number (Layout.digits n) = n := Nat.ofDigitChars_toDigits (by decide) (by decide)
  simp [digits?, digital, value, Layout.digits_ne_nil]

/-- A whole number is read back as it was written, however long. -/
theorem integer?_integer (n : Int) : integer? (Layout.integer n) = some n := by
  rw [integer?, plain_eq fun c => Layout.eq_or_isDigit_of_mem_integer, sign_integer]
  simp only [dropUnderscores_of_isDigit fun c => Layout.isDigit_of_mem_digits, Option.bind_eq_bind,
    Option.bind_some, digits?_digits, Option.pure_def, decide_eq_true_eq]
  split <;> congr 1 <;> omega

/-- All digits of a whole number are counted. -/
theorem leadingDigits?_integer (n : Int) :
    leadingDigits? (Layout.integer n) = some (Layout.digits n.natAbs) := by
  have digital c : c ∈ Layout.digits n.natAbs → c.isDigit = true := Layout.isDigit_of_mem_digits
  rw [leadingDigits?, plain_eq fun c => Layout.eq_or_isDigit_of_mem_integer, sign_integer,
    List.takeWhile_eq_self_iff.2 fun c member => by simp [digital c member],
    dropUnderscores_of_isDigit digital]

/-- A whole number is read back unless it has too many digits. -/
theorem integer_integer {n : Int} (few : (Layout.digits n.natAbs).length ≤ greatestLength) :
    integer (Layout.integer n) = .ok n := by
  rw [integer, leadingDigits?_integer, integer?_integer]
  exact if_neg (Nat.not_lt.2 few)

end Reading

end CuttingPlanes
