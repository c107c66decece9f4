import Mathlib.Data.List.Forall2
import Mathlib.Data.List.TakeWhile
import Rollout.Proofs.Numerals
import Rollout.Strategy

/-!
# Words and numbers as they may be written

A word of the program's own vocabulary may be written in letters of either case, and some of them
with blanks around. A number is written in decimal digits, perhaps after a plus sign. Here is said
which texts these are without folding, trimming or reading any, and that folding, trimming and
reading find exactly them.
-/

namespace Rollout.Text

/-- A letter, small as it stands or as a capital. -/
def SameLetter (c letter : Char) : Prop := c = letter ∨ c = letter.toUpper

def EitherCase (word : String) (written : List Char) : Prop :=
  List.Forall₂ SameLetter written word.toList

/-- Small letters that no character but their own capital is folded to. The Kelvin sign is folded
to the letter that is left out. -/
def PlainLetter (letter : Char) : Prop :=
  97 ≤ letter.toNat ∧ letter.toNat ≤ 122 ∧ letter ≠ 'k'

instance : DecidablePred PlainLetter := fun _ => inferInstanceAs (Decidable (_ ∧ _ ∧ _))

theorem plainLetter_of_all {letters : List Char}
    (all : (letters.all fun letter => decide (PlainLetter letter)) = true) :
    ∀ letter ∈ letters, PlainLetter letter :=
  fun letter mem => of_decide_eq_true (List.all_eq_true.mp all letter mem)

theorem toNat_toLower (c : Char) :
    c.toLower.toNat = if 65 ≤ c.toNat ∧ c.toNat ≤ 90 then c.toNat + 32 else c.toNat := by
  delta Char.toLower
  simp only [ge_iff_le, UInt32.le_iff_toNat_le, Char.toNat]
  split <;> rename_i range
  · have capital : 65 ≤ c.val.toNat ∧ c.val.toNat ≤ 90 := range
    rw [if_pos capital]
    change (c.val + 32).toNat = _
    rw [UInt32.toNat_add]
    change (c.val.toNat + 32) % 4294967296 = _
    omega
  · exact (if_neg range).symm

theorem toNat_toUpper (c : Char) :
    c.toUpper.toNat = if 97 ≤ c.toNat ∧ c.toNat ≤ 122 then c.toNat - 32 else c.toNat := by
  delta Char.toUpper
  simp only [UInt32.le_iff_toNat_le, Char.toNat]
  split <;> rename_i range
  · have small : 97 ≤ c.val.toNat ∧ c.val.toNat ≤ 122 := range
    rw [if_pos small, UInt32.toNat_add]
    change (c.val.toNat + 4294967264) % 4294967296 = _
    omega
  · exact (if_neg range).symm

theorem foldChar_eq_iff {c letter : Char} (plain : PlainLetter letter) :
    foldChar c = letter ↔ SameLetter c letter := by
  obtain ⟨low, high, other⟩ := plain
  have capital : letter.toUpper.toNat = letter.toNat - 32 := by
    rw [toNat_toUpper, if_pos ⟨low, high⟩]
  by_cases kelvin : c = '\u212a'
  · -- the Kelvin sign lies far above the small letters and their capitals
    have far : c.toNat = 8490 := by rw [kelvin]; rfl
    have folded : foldChar c = 'k' := if_pos kelvin
    rw [folded, SameLetter, ← Char.toNat_inj (c := c), ← Char.toNat_inj (c := c), capital]
    constructor
    · rintro rfl
      exact absurd rfl other
    · omega
  · have folded : foldChar c = c.toLower := if_neg kelvin
    rw [folded, SameLetter, ← Char.toNat_inj, ← Char.toNat_inj, ← Char.toNat_inj, capital,
      toNat_toLower]
    split <;> omega

theorem map_foldChar_eq_iff {written letters : List Char}
    (plain : ∀ letter ∈ letters, PlainLetter letter) :
    written.map foldChar = letters ↔ List.Forall₂ SameLetter written letters := by
  induction written generalizing letters with
  | nil => rw [List.map_nil, List.forall₂_nil_left_iff, eq_comm]
  | cons c written ih =>
    cases letters with
    | nil => simp
    | cons letter letters =>
      obtain ⟨first, rest⟩ := List.forall_mem_cons.mp plain
      rw [List.map_cons, List.cons_eq_cons, List.forall₂_cons, foldChar_eq_iff first, ih rest]

/-- Folding finds a word in letters of either case. -/
theorem fold_eq_iff {word s : String} (plain : ∀ letter ∈ word.toList, PlainLetter letter) :
    fold s = word ↔ EitherCase word s.toList := by
  rw [EitherCase, ← map_foldChar_eq_iff plain, fold, ← String.toList_inj, String.toList_map]

def Spells (word s : String) : Prop :=
  ∃ before written after, s.toList = before ++ written ++ after ∧
    (∀ c ∈ before, isBlank c = true) ∧ EitherCase word written ∧ ∀ c ∈ after, isBlank c = true

theorem not_isBlank_of_sameLetter {c letter : Char} (plain : PlainLetter letter)
    (same : SameLetter c letter) : isBlank c = false := by
  obtain ⟨low, high, _⟩ := plain
  have capital : letter.toUpper.toNat = letter.toNat - 32 := by
    rw [toNat_toUpper, if_pos ⟨low, high⟩]
  rw [Bool.eq_false_iff, isBlank, ne_eq, inRanges_iff]
  simp only [blankRanges, List.mem_cons, List.not_mem_nil, or_false, exists_eq_or_imp,
    exists_eq_left]
  rcases same with rfl | rfl <;> omega

/-- What is left of a text without the blanks at both of its ends. -/
theorem toList_trim {s : String} {before written after : List Char}
    (eq : s.toList = before ++ written ++ after) (blank : ∀ c ∈ before, isBlank c = true)
    (first : ∀ c ∈ written.head?, isBlank c = false)
    (last : ∀ c ∈ written.getLast?, isBlank c = false) (some : written ≠ [])
    (blank' : ∀ c ∈ after, isBlank c = true) : (trim s).toList = written := by
  have begins : s.toList.dropWhile isBlank = written ++ after := by
    rw [eq, List.append_assoc, List.dropWhile_append_of_pos blank]
    cases written with
    | nil => exact absurd rfl some
    | cons c written =>
      rw [List.cons_append, List.dropWhile_cons_of_neg (by simp [first c rfl])]
  have ends : (written ++ after).reverse.dropWhile isBlank = written.reverse := by
    rw [List.reverse_append, List.dropWhile_append_of_pos (by simpa using blank')]
    cases reversed : written.reverse with
    | nil => rfl
    | cons c rest =>
      have is_last : c ∈ written.getLast? := by
        rw [← List.head?_reverse, reversed]
        rfl
      rw [List.dropWhile_cons_of_neg (by simp [last c is_last])]
  rw [trim, String.toList_ofList, begins, ends, List.reverse_reverse]

/-- Trimming takes blanks away, and nothing else. -/
theorem trim_split (s : String) : ∃ before after, s.toList = before ++ (trim s).toList ++ after ∧
    (∀ c ∈ before, isBlank c = true) ∧ ∀ c ∈ after, isBlank c = true := by
  let rest := s.toList.dropWhile isBlank
  refine ⟨s.toList.takeWhile isBlank, (rest.reverse.takeWhile isBlank).reverse, ?_, ?_, ?_⟩
  · have ends : rest = (rest.reverse.dropWhile isBlank).reverse ++
        (rest.reverse.takeWhile isBlank).reverse := by
      rw [← List.reverse_append, List.takeWhile_append_dropWhile, List.reverse_reverse]
    rw [trim, String.toList_ofList, List.append_assoc, ← ends, List.takeWhile_append_dropWhile]
  · exact fun c mem => List.mem_takeWhile_imp mem
  · exact fun c mem => List.mem_takeWhile_imp (List.mem_reverse.mp mem)

/-- Folding what is left after trimming finds a word with blanks around it. -/
theorem fold_trim_eq_iff {word s : String} (plain : ∀ letter ∈ word.toList, PlainLetter letter)
    (some : word.toList ≠ []) : fold (trim s) = word ↔ Spells word s := by
  rw [fold_eq_iff plain]
  constructor
  · intro same
    obtain ⟨before, after, eq, blank, blank'⟩ := trim_split s
    exact ⟨before, _, after, eq, blank, same, blank'⟩
  · rintro ⟨before, written, after, eq, blank, same, blank'⟩
    have solid : ∀ c ∈ written, isBlank c = false := by
      intro c mem
      obtain ⟨i, bound, rfl⟩ := List.getElem_of_mem mem
      have bound' : i < word.toList.length := same.length_eq ▸ bound
      exact not_isBlank_of_sameLetter (plain _ (List.getElem_mem bound')) (same.get bound bound')
    have filled : written ≠ [] := by
      rintro rfl
      exact some (List.forall₂_nil_left_iff.mp same)
    rw [toList_trim eq blank (fun c mem => solid c (List.mem_of_mem_head? mem))
      (fun c mem => solid c (List.mem_of_getLast? mem)) filled blank']
    exact same

/-- A number in decimal, perhaps after a plus sign. -/
def Numeral (s : String) (n : Nat) : Prop :=
  ∃ digits, digits ≠ [] ∧ (∀ c ∈ digits, c.isDigit = true) ∧
    (s.toList = digits ∨ s.toList = '+' :: digits) ∧ Nat.ofDigitChars 10 digits 0 = n

/-- The first defect of a row of characters that should be a number below a bound, with the value
of what stands before it. -/
inductive FirstDefect (bound value : Nat) (row : List Char) : NumberError → Prop
  | character {digits : List Char} {c : Char} {rest : List Char} (eq : row = digits ++ c :: rest)
      (all : ∀ d ∈ digits, d.isDigit = true) (fits : Nat.ofDigitChars 10 digits value < bound)
      (other : c.isDigit = false) : FirstDefect bound value row .invalidDigit
  | size {digits : List Char} {c : Char} {rest : List Char} (eq : row = digits ++ c :: rest)
      (all : ∀ d ∈ digits, d.isDigit = true) (fits : Nat.ofDigitChars 10 digits value < bound)
      (digit : c.isDigit = true) (large : bound ≤ Nat.ofDigitChars 10 (digits ++ [c]) value) :
      FirstDefect bound value row .tooLarge

inductive Defective (bound : Nat) (s : String) : NumberError → Prop
  | empty (nothing : s.toList = []) : Defective bound s .empty
  | sign (alone : s.toList = ['+']) : Defective bound s .invalidDigit
  | signed {row : List Char} {cause : NumberError} (eq : s.toList = '+' :: row)
      (defect : FirstDefect bound 0 row cause) : Defective bound s cause
  | unsigned {cause : NumberError} (no : s.toList.head? ≠ some '+')
      (defect : FirstDefect bound 0 s.toList cause) : Defective bound s cause

section Digits

variable {bound value n : Nat} {row : List Char} {cause : NumberError}

theorem digitValue?_of_digit {c : Char} (digit : c.isDigit = true) :
    digitValue? c = some (c.toNat - '0'.toNat) := if_pos digit

theorem digitValue?_of_not_digit {c : Char} (other : c.isDigit = false) :
    digitValue? c = none := if_neg (by simp [other])

/-- What is read stands in the row, -/
theorem of_readDigits_eq_ok (fits : value < bound) (read : readDigits bound value row = .ok n) :
    (∀ c ∈ row, c.isDigit = true) ∧ Nat.ofDigitChars 10 row value = n ∧ n < bound := by
  induction row generalizing value with
  | nil =>
    cases read
    exact ⟨by simp, rfl, fits⟩
  | cons c row ih =>
    cases digit : c.isDigit with
    | false =>
      rw [readDigits, digitValue?_of_not_digit digit] at read
      cases read
    | true =>
      rw [readDigits, digitValue?_of_digit digit] at read
      dsimp only at read
      split at read
      · rename_i small
        obtain ⟨all, value_eq, below⟩ := ih small read
        exact ⟨List.forall_mem_cons.mpr ⟨digit, all⟩, value_eq, below⟩
      · cases read

/-- and where none is, it has a defect. -/
theorem firstDefect_of_readDigits (fits : value < bound)
    (failed : readDigits bound value row = .error cause) : FirstDefect bound value row cause := by
  induction row generalizing value with
  | nil => cases failed
  | cons c row ih =>
    cases digit : c.isDigit with
    | false =>
      rw [readDigits, digitValue?_of_not_digit digit] at failed
      cases failed
      exact .character (List.nil_append _).symm (by simp) fits digit
    | true =>
      rw [readDigits, digitValue?_of_digit digit] at failed
      dsimp only at failed
      split at failed
      · rename_i small
        cases ih small failed with
        | @character digits d rest eq all fits' other =>
          have longer : c :: row = (c :: digits) ++ d :: rest := congrArg (c :: ·) eq
          exact .character longer (List.forall_mem_cons.mpr ⟨digit, all⟩) fits' other
        | @size digits d rest eq all fits' digit' large =>
          have longer : c :: row = (c :: digits) ++ d :: rest := congrArg (c :: ·) eq
          exact .size longer (List.forall_mem_cons.mpr ⟨digit, all⟩) fits' digit' large
      · rename_i large
        cases failed
        exact .size (List.nil_append _).symm (by simp) fits digit (Nat.le_of_not_lt large)

/-- Reading digits goes on past those that fit. -/
theorem readDigits_append {digits rest : List Char} (all : ∀ d ∈ digits, d.isDigit = true)
    (fits : Nat.ofDigitChars 10 digits value < bound) :
    readDigits bound value (digits ++ rest) =
      readDigits bound (Nat.ofDigitChars 10 digits value) rest := by
  induction digits generalizing value with
  | nil => rfl
  | cons c digits ih =>
    obtain ⟨digit, all⟩ := List.forall_mem_cons.mp all
    rw [Nat.ofDigitChars_cons] at fits ⊢
    have small := Nat.lt_of_le_of_lt (le_ofDigitChars _ digits) fits
    rw [List.cons_append, readDigits, digitValue?_of_digit digit]
    dsimp only
    rw [if_pos small]
    exact ih all fits

theorem readDigits_of_firstDefect (defect : FirstDefect bound value row cause) :
    readDigits bound value row = .error cause := by
  cases defect with
  | character eq all fits other =>
    rw [eq, readDigits_append all fits, readDigits, digitValue?_of_not_digit other]
  | size eq all fits digit large =>
    rw [Nat.ofDigitChars_append, Nat.ofDigitChars_cons, Nat.ofDigitChars_nil] at large
    rw [eq, readDigits_append all fits, readDigits, digitValue?_of_digit digit]
    dsimp only
    rw [if_neg (Nat.not_lt.mpr large)]

end Digits

section Numbers

variable {bound n : Nat} {s : String} {cause : NumberError}

theorem FirstDefect.row_ne_nil {value : Nat} {row : List Char}
    (defect : FirstDefect bound value row cause) : row ≠ [] := by
  cases defect <;> simp [*]

theorem readNumber_signed {row : List Char} (eq : s.toList = '+' :: row) (some : row ≠ []) :
    readNumber bound s = readDigits bound 0 row := by
  obtain ⟨c, rest, rfl⟩ := List.exists_cons_of_ne_nil some
  simp only [readNumber, eq]

theorem readNumber_unsigned (nonempty : s.toList ≠ []) (no : s.toList.head? ≠ some '+') :
    readNumber bound s = readDigits bound 0 s.toList := by
  unfold readNumber
  split
  · rename_i nothing
    exact absurd nothing nonempty
  · rename_i signed
    exact absurd (by rw [signed]; rfl) no
  · rename_i signed
    exact absurd (by rw [signed]; rfl) no
  · rfl

/-- A text is empty, a plus sign, something after a plus sign, or something without one. -/
theorem readNumber_cases (bound : Nat) (s : String) :
    (s.toList = [] ∧ readNumber bound s = .error .empty) ∨
    (s.toList = ['+'] ∧ readNumber bound s = .error .invalidDigit) ∨
    (∃ row, row ≠ [] ∧ s.toList = '+' :: row ∧ readNumber bound s = readDigits bound 0 row) ∨
    (s.toList ≠ [] ∧ s.toList.head? ≠ some '+' ∧
      readNumber bound s = readDigits bound 0 s.toList) := by
  by_cases nothing : s.toList = []
  · exact .inl ⟨nothing, by simp only [readNumber, nothing]⟩
  by_cases no : s.toList.head? = some '+'
  · obtain ⟨row, eq⟩ := List.head?_eq_some_iff.mp no
    by_cases alone : row = []
    · rw [alone] at eq
      exact .inr (.inl ⟨eq, by simp only [readNumber, eq]⟩)
    · exact .inr (.inr (.inl ⟨row, alone, eq, readNumber_signed eq alone⟩))
  · exact .inr (.inr (.inr ⟨nothing, no, readNumber_unsigned nothing no⟩))

/-- A number below a bound is read exactly if the text writes one. -/
theorem readNumber_eq_ok_iff (positive : 0 < bound) :
    readNumber bound s = .ok n ↔ Numeral s n ∧ n < bound := by
  constructor
  · intro read
    rcases readNumber_cases bound s with ⟨_, empty⟩ | ⟨_, lone⟩ | ⟨row, some, eq, same⟩ |
      ⟨some, _, same⟩
    · cases empty.symm.trans read
    · cases lone.symm.trans read
    · obtain ⟨all, value, below⟩ := of_readDigits_eq_ok positive (same ▸ read)
      exact ⟨⟨row, some, all, .inr eq, value⟩, below⟩
    · obtain ⟨all, value, below⟩ := of_readDigits_eq_ok positive (same ▸ read)
      exact ⟨⟨s.toList, some, all, .inl rfl, value⟩, below⟩
  · rintro ⟨⟨digits, some, all, written, rfl⟩, below⟩
    rw [← readDigits_eq_ok all below]
    rcases written with eq | eq
    · obtain ⟨c, rest, rfl⟩ := List.exists_cons_of_ne_nil some
      exact readNumber_of_digits eq (all c List.mem_cons_self)
    · exact readNumber_signed eq some

/-- Otherwise the first defect is reported. -/
theorem readNumber_eq_error_iff (positive : 0 < bound) :
    readNumber bound s = .error cause ↔ Defective bound s cause := by
  constructor
  · intro failed
    rcases readNumber_cases bound s with ⟨nothing, empty⟩ | ⟨alone, lone⟩ | ⟨row, _, eq, same⟩ |
      ⟨_, no, same⟩
    · cases empty.symm.trans failed
      exact .empty nothing
    · cases lone.symm.trans failed
      exact .sign alone
    · exact .signed eq (firstDefect_of_readDigits positive (same ▸ failed))
    · exact .unsigned no (firstDefect_of_readDigits positive (same ▸ failed))
  · intro defective
    cases defective with
    | empty nothing => simp only [readNumber, nothing]
    | sign alone => simp only [readNumber, alone]
    | signed eq defect =>
      rw [readNumber_signed eq defect.row_ne_nil, readDigits_of_firstDefect defect]
    | unsigned no defect =>
      rw [readNumber_unsigned defect.row_ne_nil no, readDigits_of_firstDefect defect]

end Numbers

end Rollout.Text
