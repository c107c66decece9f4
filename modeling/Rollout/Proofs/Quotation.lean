import Mathlib.Tactic.IntervalCases
import Rollout.Json.Reading

/-!
# Strings between quotes

Between the quotes of a string a character stands for itself or is escaped: by a letter, by its
number, or, where the number has more than four digits in base sixteen, by two numbers. A string
is read exactly from the rows of characters that spell it in this way. Towards the reading, what
spells a character is scanned as one step. Away from it, the scanner is always somewhere inside
what spells the next character, and each further character brings it on or completes that one.
-/

namespace Rollout.Json

/-- A row of so many digits in base sixteen, with its value. -/
inductive HexRow : Nat → List Char → Nat → Prop
  | nil : HexRow 0 [] 0
  | snoc {count value d : Nat} {digits : List Char} {c : Char} : HexRow count digits value →
    hexValue? c = some d → HexRow (count + 1) (digits ++ [c]) (16 * value + d)

/-- The letters of the short escapes, each with what it stands for. -/
def shortEscapes : List (Char × Char) :=
  [('"', '"'), ('\\', '\\'), ('/', '/'), ('b', '\x08'), ('f', '\x0c'), ('n', '\n'), ('r', '\r'),
    ('t', '\t')]

def IsHigh (high : Nat) : Prop := 0xd800 ≤ high ∧ high ≤ 0xdbff

def IsLow (low : Nat) : Prop := 0xdc00 ≤ low ∧ low ≤ 0xdfff

def paired (high low : Nat) : Nat := 0x10000 + (high - 0xd800) * 0x400 + (low - 0xdc00)

inductive SpelledChar (c : Char) : List Char → Prop
  | plain : c ≠ '"' → c ≠ '\\' → ¬ c.toNat < 32 → SpelledChar c [c]
  | short {letter : Char} : (letter, c) ∈ shortEscapes → SpelledChar c ['\\', letter]
  | numeric {digits : List Char} : HexRow 4 digits c.toNat → SpelledChar c ('\\' :: 'u' :: digits)
  | pair {high low : Nat} {digits digits' : List Char} : HexRow 4 digits high → IsHigh high →
    HexRow 4 digits' low → IsLow low → c.toNat = paired high low →
      SpelledChar c ('\\' :: 'u' :: (digits ++ '\\' :: 'u' :: digits'))

inductive Spelled : List Char → List Char → Prop
  | nil : Spelled [] []
  | cons {c : Char} {text part row : List Char} : SpelledChar c part → Spelled text row →
    Spelled (c :: text) (part ++ row)

/-- The scanner knows these letters and no others. -/
theorem shortEscape?_eq_some_iff {letter c : Char} :
    shortEscape? letter = some c ↔ (letter, c) ∈ shortEscapes := by
  simp only [shortEscape?, shortEscapes, List.mem_cons, Prod.mk.injEq, List.not_mem_nil, or_false]
  grind

theorem letter_ne_u {letter c : Char} (short : (letter, c) ∈ shortEscapes) : letter ≠ 'u' := by
  rintro rfl
  rw [← shortEscape?_eq_some_iff] at short
  cases short

theorem hexValue?_lt {c : Char} {d : Nat} (digit : hexValue? c = some d) : d < 16 := by
  have low : '0'.toNat = 48 ∧ 'a'.toNat = 97 ∧ 'A'.toNat = 65 := by decide
  have high : '9'.toNat = 57 ∧ 'f'.toNat = 102 ∧ 'F'.toNat = 70 := by decide
  simp only [hexValue?, Char.le_def, UInt32.le_iff_toNat_le, Char.toNat_val] at digit
  split_ifs at digit <;> simp only [Option.some.injEq] at digit <;> omega

theorem HexRow.lt {count value : Nat} {digits : List Char} (row : HexRow count digits value) :
    value < 16 ^ count := by
  induction row with
  | nil => decide
  | snoc _ digit ih =>
    have last := hexValue?_lt digit
    rw [Nat.pow_succ]
    omega

/-- No character has the number of a half. -/
theorem not_half (c : Char) : ¬ IsHigh c.toNat ∧ ¬ IsLow c.toNat := by
  have valid := c.valid
  simp only [UInt32.isValidChar, Nat.isValidChar, Char.toNat_val] at valid
  simp only [IsHigh, IsLow]
  omega

theorem toNat_ofNat {n : Nat} (valid : n.isValidChar) : (Char.ofNat n).toNat = n := by
  rw [Char.ofNat, dif_pos valid]
  rfl

theorem toNat_ofNat_paired {high low : Nat} (first : IsHigh high) (second : IsLow low) :
    (Char.ofNat (paired high low)).toNat = paired high low := by
  obtain ⟨_, small⟩ := first
  obtain ⟨_, small'⟩ := second
  have above : 0xdfff < 0x10000 + (high - 0xd800) * 0x400 + (low - 0xdc00) := by omega
  have below : 0x10000 + (high - 0xd800) * 0x400 + (low - 0xdc00) < 0x110000 := by omega
  exact toNat_ofNat (.inr ⟨above, below⟩)

section

variable (text : List Char)

/-- A number of four digits gives its character. -/
theorem endEscape_toNat (c : Char) :
    endEscape true none c.toNat text = .ok (.plain, c :: text) := by
  have not_low : ¬ (0xdc00 ≤ c.toNat ∧ c.toNat ≤ 0xdfff) := (not_half c).2
  have not_high : ¬ (0xd800 ≤ c.toNat ∧ c.toNat ≤ 0xdbff) := (not_half c).1
  simp only [endEscape, if_neg not_low, if_neg not_high, Char.ofNat_toNat]
  rfl

/-- The first half of a pair gives nothing yet. -/
theorem endEscape_high {high : Nat} (first : IsHigh high) :
    endEscape true none high text = .ok (.backslashDue high, text) := by
  have not_low : ¬ (0xdc00 ≤ high ∧ high ≤ 0xdfff) := by
    have range := first.2
    omega
  have half : 0xd800 ≤ high ∧ high ≤ 0xdbff := first
  simp only [endEscape, if_neg not_low, if_pos half]
  rfl

/-- The second half gives the character of both. -/
theorem endEscape_low {high low : Nat} (second : IsLow low) :
    endEscape true (some high) low text = .ok (.plain, Char.ofNat (paired high low) :: text) :=
  if_pos second

end

/-- After a number the scanner has a character, or the first half of a pair. -/
theorem of_endEscape_none {value : Nat} {text text' : List Char} {state : StringState}
    (small : value < 0x10000) (ended : endEscape true none value text = .ok (state, text')) :
    (IsHigh value ∧ state = .backslashDue value ∧ text' = text) ∨
      ∃ c : Char, c.toNat = value ∧ state = .plain ∧ text' = c :: text := by
  by_cases high : IsHigh value
  · rw [endEscape_high text high] at ended
    cases ended
    exact .inl ⟨high, rfl, rfl⟩
  by_cases low : IsLow value
  · have refused : endEscape true none value text = .error .malformed := if_pos low
    rw [refused] at ended
    cases ended
  · have valid : value.isValidChar := by
      simp only [IsHigh, IsLow, Nat.isValidChar] at *
      omega
    have number := toNat_ofNat valid
    have char := endEscape_toNat text (Char.ofNat value)
    rw [number, ended] at char
    cases char
    exact .inr ⟨Char.ofNat value, number, rfl, rfl⟩

/-- After the second number of a pair it has a character. -/
theorem of_endEscape_some {high low : Nat} {text text' : List Char} {state : StringState}
    (first : IsHigh high) (ended : endEscape true (some high) low text = .ok (state, text')) :
    IsLow low ∧ ∃ c : Char, c.toNat = paired high low ∧ state = .plain ∧ text' = c :: text := by
  by_cases second : IsLow low
  · rw [endEscape_low text second] at ended
    cases ended
    exact ⟨second, _, toNat_ofNat_paired first second, rfl, rfl⟩
  · have refused : endEscape true (some high) low text = .error .malformed := if_neg second
    rw [refused] at ended
    cases ended

/-- Digits are taken up to the last one. -/
theorem scanString_digits (strict : Bool) (high : Option Nat) {count value : Nat}
    {digits : List Char} (row : HexRow count digits value) (few : count < 4)
    (text rest : List Char) : scanString strict (.digit 0 0 high) text (digits ++ rest) =
      scanString strict (.digit count value high) text rest := by
  induction row generalizing rest with
  | nil => rfl
  | @snoc count value d digits c _ digit ih =>
    have more : count < 3 := by omega
    rw [List.append_assoc, List.singleton_append, ih (by omega)]
    simp only [scanString, digit, if_pos more]

/-- With the fourth digit the number is complete. -/
theorem scanString_hexRow (strict : Bool) (high : Option Nat) {value : Nat} {digits : List Char}
    (row : HexRow 4 digits value) (text rest : List Char) :
    scanString strict (.digit 0 0 high) text (digits ++ rest) =
      match endEscape strict high value text with
      | .error fault => .error fault
      | .ok (state, text) => scanString strict state text rest := by
  cases row with
  | snoc row digit =>
    rw [List.append_assoc, List.singleton_append, scanString_digits strict high row (by decide)]
    simp only [scanString, digit]
    rfl

/-- One spelled character is one scanned character, which a lenient scan may lose. -/
theorem scanString_spelledChar (strict : Bool) {c : Char} {part : List Char}
    (spelled : SpelledChar c part) (text rest : List Char) :
    ∃ scanned, scanString strict .plain text (part ++ rest) =
      scanString strict .plain scanned rest ∧ (strict = true → scanned = c :: text) := by
  cases spelled with
  | plain quote backslash control =>
    refine ⟨c :: text, ?_, fun _ => rfl⟩
    simp [scanString, quote, backslash, control]
  | short short =>
    refine ⟨c :: text, ?_, fun _ => rfl⟩
    simp [scanString, letter_ne_u short, shortEscape?_eq_some_iff.mpr short]
  | @numeric digits row =>
    have opened : scanString strict .plain text ('\\' :: 'u' :: digits ++ rest) =
      scanString strict (.digit 0 0 none) text (digits ++ rest) := rfl
    rw [opened, scanString_hexRow strict none row]
    cases strict with
    | false => exact ⟨text, rfl, by simp⟩
    | true => exact ⟨c :: text, by rw [endEscape_toNat], fun _ => rfl⟩
  | @pair high low digits digits' row first row' second value =>
    have opened : scanString strict .plain text
        ('\\' :: 'u' :: (digits ++ '\\' :: 'u' :: digits') ++ rest) =
      scanString strict (.digit 0 0 none) text (digits ++ ('\\' :: 'u' :: (digits' ++ rest))) := by
      simp [scanString]
    rw [opened, scanString_hexRow strict none row]
    cases strict with
    | false =>
      have again : scanString false .plain text ('\\' :: 'u' :: (digits' ++ rest)) =
        scanString false (.digit 0 0 none) text (digits' ++ rest) := rfl
      refine ⟨text, ?_, by simp⟩
      simp only [endEscape, Bool.not_false, if_true]
      rw [again, scanString_hexRow false none row']
      rfl
    | true =>
      have again : scanString true (.backslashDue high) text ('\\' :: 'u' :: (digits' ++ rest)) =
        scanString true (.digit 0 0 (some high)) text (digits' ++ rest) := rfl
      have same : Char.ofNat (paired high low) = c := by rw [← value, Char.ofNat_toNat]
      refine ⟨c :: text, ?_, fun _ => rfl⟩
      rw [endEscape_high text first]
      dsimp only
      rw [again, scanString_hexRow true (some high) row', endEscape_low text second, same]

/-- A spelled text is scanned up to the quote that closes it. -/
theorem scanString_spelled (strict : Bool) {s row : List Char} (spelled : Spelled s row)
    (text rest : List Char) :
    ∃ scanned, scanString strict .plain text (row ++ '"' :: rest) = .ok (scanned, rest) ∧
      (strict = true → scanned = text.reverse ++ s) := by
  induction spelled generalizing text with
  | nil => exact ⟨text.reverse, by simp [scanString], by simp⟩
  | @cons c s part row char _ ih =>
    obtain ⟨next, first, same⟩ := scanString_spelledChar strict char text (row ++ '"' :: rest)
    obtain ⟨scanned, later, all⟩ := ih next
    refine ⟨scanned, ?_, fun on => ?_⟩
    · rw [List.append_assoc, first, later]
    · rw [all on, same on, List.reverse_cons, List.append_assoc]
      rfl

/-- Where a scan stands that has taken a part of what spells the next character. -/
inductive Pending : StringState → List Char → Prop
  | plain : Pending .plain []
  | escape : Pending .escape ['\\']
  | digit {count value : Nat} {digits : List Char} : HexRow count digits value → count < 4 →
    Pending (.digit count value none) ('\\' :: 'u' :: digits)
  | backslashDue {high : Nat} {digits : List Char} : HexRow 4 digits high → IsHigh high →
    Pending (.backslashDue high) ('\\' :: 'u' :: digits)
  | letterDue {high : Nat} {digits : List Char} : HexRow 4 digits high → IsHigh high →
    Pending (.letterDue high) ('\\' :: 'u' :: (digits ++ ['\\']))
  | lowDigit {high count value : Nat} {digits digits' : List Char} : HexRow 4 digits high →
    IsHigh high → HexRow count digits' value → count < 4 →
      Pending (.digit count value (some high)) ('\\' :: 'u' :: (digits ++ '\\' :: 'u' :: digits'))

/-- What one more character does to a scan that ends well: it closes the string, it brings the
next character of the text on, or it completes that character. -/
inductive Advance (state : StringState) (part text : List Char) (c : Char) (rest : List Char)
    (result : List Char × List Char) : Prop
  | closed : part = [] → c = '"' → result = (text.reverse, rest) →
    Advance state part text c rest result
  | further {next : StringState} : Pending next (part ++ [c]) →
    scanString true next text rest = .ok result → Advance state part text c rest result
  | complete {d : Char} : SpelledChar d (part ++ [c]) →
    scanString true .plain (d :: text) rest = .ok result → Advance state part text c rest result

/-- The scan of a digit, from what the digit makes of the number. -/
theorem scanString_digit {index value : Nat} {high : Option Nat} {text rest : List Char} {c : Char}
    {result : List Char × List Char} (few : index < 4)
    (scanned : scanString true (.digit index value high) text (c :: rest) = .ok result) :
    ∃ d, hexValue? c = some d ∧
      ((index + 1 < 4 ∧
          scanString true (.digit (index + 1) (16 * value + d) high) text rest = .ok result) ∨
        (index + 1 = 4 ∧ ∃ state text', endEscape true high (16 * value + d) text =
          .ok (state, text') ∧ scanString true state text' rest = .ok result)) := by
  rw [scanString] at scanned
  cases digit : hexValue? c with
  | none =>
    simp only [digit] at scanned
    split_ifs at scanned
  | some d =>
    simp only [digit] at scanned
    refine ⟨d, rfl, ?_⟩
    by_cases more : index < 3
    · rw [if_pos more] at scanned
      exact .inl ⟨by omega, scanned⟩
    · rw [if_neg more] at scanned
      cases ended : endEscape true high (16 * value + d) text with
      | error fault =>
        rw [ended] at scanned
        cases scanned
      | ok next =>
        rw [ended] at scanned
        exact .inr ⟨by omega, next.1, next.2, rfl, scanned⟩

/-- Each character of a string that is read advances the scan. -/
theorem advance_of_scanString {state : StringState} {part text rest : List Char} {c : Char}
    {result : List Char × List Char} (pending : Pending state part)
    (scanned : scanString true state text (c :: rest) = .ok result) :
    Advance state part text c rest result := by
  cases pending with
  | plain =>
    rw [scanString] at scanned
    split_ifs at scanned with quote backslash control
    · exact .closed rfl quote (Except.ok.inj scanned).symm
    · exact .further (backslash ▸ .escape) scanned
    · exact .complete (.plain quote backslash control) scanned
  | escape =>
    rw [scanString] at scanned
    split_ifs at scanned with letter
    · exact .further (letter ▸ .digit .nil (by decide)) scanned
    · cases short : shortEscape? c with
      | none =>
        rw [short] at scanned
        cases scanned
      | some d =>
        rw [short] at scanned
        exact .complete (.short (shortEscape?_eq_some_iff.mp short)) scanned
  | @digit count value digits row few =>
    obtain ⟨d, digit, ⟨more, scanned⟩ | ⟨last, next, text', ended, later⟩⟩ :=
      scanString_digit few scanned
    · exact .further (.digit (row.snoc digit) more) scanned
    · have row := last ▸ row.snoc digit
      rcases of_endEscape_none row.lt ended with ⟨high, rfl, rfl⟩ | ⟨e, number, rfl, rfl⟩
      · exact .further (.backslashDue row high) later
      · exact .complete (.numeric (number ▸ row)) later
  | backslashDue row high =>
    rw [scanString] at scanned
    split_ifs at scanned with backslash
    exact .further (backslash ▸ .letterDue row high) scanned
  | @letterDue high digits row first =>
    rw [scanString] at scanned
    split_ifs at scanned with letter
    refine .further ?_ scanned
    have pending := Pending.lowDigit row first .nil (by decide)
    simpa [letter] using pending
  | @lowDigit high count value digits digits' row first row' few =>
    obtain ⟨d, digit, ⟨more, scanned⟩ | ⟨last, next, text', ended, later⟩⟩ :=
      scanString_digit few scanned
    · refine .further ?_ scanned
      have pending := Pending.lowDigit row first (row'.snoc digit) more
      simpa using pending
    · have row' := last ▸ row'.snoc digit
      obtain ⟨second, e, number, rfl, rfl⟩ := of_endEscape_some first ended
      refine .complete ?_ later
      have spelled := SpelledChar.pair row first row' second number
      simpa using spelled

/-- What is scanned up to the closing quote spells what the scan adds to the text. -/
theorem spelled_of_scanString {state : StringState} {part text cs out rest : List Char}
    (pending : Pending state part) (scanned : scanString true state text cs = .ok (out, rest)) :
    ∃ s row, cs = row ++ '"' :: rest ∧ out = text.reverse ++ s ∧ Spelled s (part ++ row) := by
  induction cs generalizing state part text with
  | nil => cases state <;> cases scanned
  | cons c cs ih =>
    cases advance_of_scanString pending scanned with
    | closed clean quote result =>
      cases result
      exact ⟨[], [], by rw [quote]; rfl, by simp, by rw [clean]; exact .nil⟩
    | further pending scanned =>
      obtain ⟨s, row, rfl, rfl, spelled⟩ := ih pending scanned
      exact ⟨s, c :: row, rfl, rfl, by simpa using spelled⟩
    | @complete d char scanned =>
      obtain ⟨s, row, rfl, rfl, spelled⟩ := ih .plain scanned
      refine ⟨d :: s, c :: row, rfl, by simp, ?_⟩
      have all := Spelled.cons char spelled
      simpa using all

/-- A string is read exactly where it is spelled and the closing quote follows. -/
theorem readText_eq_ok_iff {cs rest : List Char} {s : String} :
    readText cs = .ok (.ok s, rest) ↔
      ∃ row, cs = row ++ '"' :: rest ∧ Spelled s.toList row := by
  constructor
  · intro reads
    rw [readText] at reads
    cases strict : scanString true .plain [] cs with
    | error fault =>
      rw [strict] at reads
      cases lenient : scanString false .plain [] cs <;> rw [lenient] at reads <;> cases reads
    | ok used =>
      obtain ⟨scanned, after⟩ := used
      obtain ⟨out, row, rfl, rfl, spelled⟩ := spelled_of_scanString .plain strict
      obtain ⟨passed, lenient, _⟩ := scanString_spelled false spelled [] after
      simp only [List.nil_append] at strict lenient
      rw [strict, lenient] at reads
      cases reads
      exact ⟨row, rfl, by simpa using spelled⟩
  · rintro ⟨row, rfl, spelled⟩
    obtain ⟨used, strict, same⟩ := scanString_spelled true spelled [] rest
    obtain ⟨passed, lenient, _⟩ := scanString_spelled false spelled [] rest
    rw [readText]
    simp [strict, lenient, same]

/-- Two numbers spell one character. -/
example : readText ['\\', 'u', 'D', '8', '3', '4', '\\', 'u', 'd', 'd', '1', 'e', '"', ','] =
    .ok (.ok "𝄞", [',']) := by rfl

def Blank (cs : List Char) : Prop := ∀ c ∈ cs, isSpace c = true

theorem skipSpace_append {before : List Char} (blank : Blank before) (cs : List Char) :
    skipSpace (before ++ cs) = skipSpace cs := by
  induction before with
  | nil => rfl
  | cons c before ih =>
    have space : isSpace c = true := blank c List.mem_cons_self
    rw [List.cons_append, skipSpace, if_pos space]
    exact ih fun d mem => blank d (List.mem_cons_of_mem _ mem)

/-- What is skipped is blank, and what is left does not begin with a blank. -/
theorem exists_skipSpace (cs : List Char) :
    ∃ before, cs = before ++ skipSpace cs ∧ Blank before := by
  induction cs with
  | nil => exact ⟨[], rfl, fun _ mem => absurd mem List.not_mem_nil⟩
  | cons c cs ih =>
    rw [skipSpace]
    split_ifs with space
    · obtain ⟨before, whole, blank⟩ := ih
      refine ⟨c :: before, ?_, List.forall_mem_cons.mpr ⟨space, blank⟩⟩
      rw [List.cons_append, ← whole]
    · exact ⟨[], rfl, fun _ mem => absurd mem List.not_mem_nil⟩

theorem skipSpace_eq_nil_iff {cs : List Char} : skipSpace cs = [] ↔ Blank cs := by
  constructor
  · intro skipped
    obtain ⟨before, whole, blank⟩ := exists_skipSpace cs
    rwa [whole, skipped, List.append_nil]
  · intro blank
    have skipped := skipSpace_append blank []
    rwa [List.append_nil] at skipped

/-- A quote stands behind the blanks. -/
theorem skipSpace_eq_quote_iff {cs rest : List Char} :
    skipSpace cs = '"' :: rest ↔ ∃ before, cs = before ++ '"' :: rest ∧ Blank before := by
  constructor
  · intro skipped
    obtain ⟨before, whole, blank⟩ := exists_skipSpace cs
    exact ⟨before, skipped ▸ whole, blank⟩
  · rintro ⟨before, rfl, blank⟩
    rw [skipSpace_append blank]
    rfl

section

variable {s : Except Fault String}

theorem readWord_ne_str {result : Reading} (other : result ≠ .str s) (word cs : List Char) :
    (readWord result word cs).1 ≠ .str s := by
  induction word generalizing cs with
  | nil => exact other
  | cons w word ih =>
    cases cs with
    | nil => rintro ⟨⟩
    | cons c cs =>
      rw [readWord]
      split_ifs
      · exact ih cs
      · rintro ⟨⟩

theorem digitDue_ne_str (cs : List Char) : digitDue cs ≠ .str s := by
  cases cs <;> rintro ⟨⟩

theorem readExponent_ne_str (t : NumberText) (cs : List Char) :
    (readExponent t cs).1 ≠ .str s := by
  unfold readExponent
  dsimp only
  split
  · exact digitDue_ne_str _
  · rintro ⟨⟩

theorem readAfterDigits_ne_str (t : NumberText) (cs : List Char) :
    (readAfterDigits t cs).1 ≠ .str s := by
  unfold readAfterDigits
  split
  · exact readExponent_ne_str t _
  · exact readExponent_ne_str t _
  · rintro ⟨⟩

theorem readFraction_ne_str (t : NumberText) (cs : List Char) :
    (readFraction t cs).1 ≠ .str s := by
  unfold readFraction
  split
  · split
    · exact digitDue_ne_str _
    · exact readAfterDigits_ne_str _ _
  · exact readAfterDigits_ne_str t _

/-- A number is not read as a string. -/
theorem readNumber_ne_str (negative : Bool) (cs : List Char) :
    (readNumber negative cs).1 ≠ .str s := by
  rw [readNumber]
  split
  · exact digitDue_ne_str _
  · rintro ⟨⟩
  · exact readFraction_ne_str _ _

theorem readValue_str {fuel : Nat} {cs text after : List Char}
    (quoted : skipSpace cs = '"' :: text) (found : readText text = .ok (s, after)) :
    readValue (fuel + 1) cs = (.str s, some after) := by
  rw [readValue]
  simp only [quoted, found]

/-- Where no string in quotes stands, none is read. -/
theorem readValue_ne_str {fuel : Nat} {cs : List Char}
    (other : ∀ text result, skipSpace cs = '"' :: text → readText text ≠ .ok result) :
    (readValue (fuel + 1) cs).1 ≠ .str s := by
  rw [readValue]
  split
  · rintro ⟨⟩
  · exact readWord_ne_str (by rintro ⟨⟩) _ _
  · exact readWord_ne_str (by rintro ⟨⟩) _ _
  · exact readWord_ne_str (by rintro ⟨⟩) _ _
  · rename_i quoted
    split
    · rename_i found
      exact absurd found (other _ _ quoted)
    · rintro ⟨⟩
  · split <;> rintro ⟨⟩
  · split <;> rintro ⟨⟩
  · exact readNumber_ne_str _ _
  · split
    · exact readNumber_ne_str _ _
    · rintro ⟨⟩

end

/-- A value is read as a string exactly where it is spelled between quotes, behind blanks. -/
theorem readValue_eq_str_iff {fuel : Nat} {cs : List Char} {s : String}
    {after : Option (List Char)} : readValue (fuel + 1) cs = (.str (.ok s), after) ↔
      ∃ before row rest, cs = before ++ '"' :: (row ++ '"' :: rest) ∧ Blank before ∧
        Spelled s.toList row ∧ after = some rest := by
  constructor
  · intro reads
    have root : (readValue (fuel + 1) cs).1 = .str (.ok s) := by rw [reads]
    by_cases stands : ∃ text result, skipSpace cs = '"' :: text ∧ readText text = .ok result
    · obtain ⟨text, ⟨used, rest⟩, quoted, found⟩ := stands
      rw [readValue_str quoted found] at reads
      cases reads
      obtain ⟨before, whole, blank⟩ := skipSpace_eq_quote_iff.mp quoted
      obtain ⟨row, rfl, spelled⟩ := readText_eq_ok_iff.mp found
      exact ⟨before, row, rest, whole, blank, spelled, rfl⟩
    · exact absurd root (readValue_ne_str fun text result quoted found =>
        stands ⟨text, result, quoted, found⟩)
  · rintro ⟨before, row, rest, whole, blank, spelled, rfl⟩
    exact readValue_str (skipSpace_eq_quote_iff.mpr ⟨before, whole, blank⟩)
      (readText_eq_ok_iff.mpr ⟨row, rfl, spelled⟩)

/-- A text that has a string between quotes, and blanks around it. -/
def Quotes (text s : String) : Prop :=
  ∃ before row after, text.toList = before ++ '"' :: (row ++ '"' :: after) ∧
    Blank before ∧ Spelled s.toList row ∧ Blank after

/-- A whole text is read as a string exactly where it quotes the string. -/
theorem read_eq_str_iff {text s : String} : read text = ⟨.str (.ok s), false⟩ ↔ Quotes text s := by
  rw [read]
  constructor
  · intro reads
    cases value : readValue (2 * text.toList.length + 2) text.toList with
    | mk root after =>
      rw [value] at reads
      cases after with
      | none =>
        cases reads
        obtain ⟨_, _, _, _, _, _, missing⟩ := readValue_eq_str_iff.mp value
        cases missing
      | some rest =>
        obtain ⟨rfl, nothing⟩ := Document.mk.inj reads
        obtain ⟨before, row, after, whole, blank, spelled, same⟩ := readValue_eq_str_iff.mp value
        obtain rfl := Option.some.inj same
        have skipped : skipSpace rest = [] := by simpa using nothing
        exact ⟨before, row, rest, whole, blank, spelled, skipSpace_eq_nil_iff.mp skipped⟩
  · rintro ⟨before, row, rest, whole, blank, spelled, blank'⟩
    have value : readValue (2 * text.toList.length + 2) text.toList =
        (.str (.ok s), some rest) :=
      readValue_eq_str_iff.mpr ⟨before, row, rest, whole, blank, spelled, rfl⟩
    have skipped := skipSpace_eq_nil_iff.mpr blank'
    simp only [value, skipped]
    rfl

end Rollout.Json
