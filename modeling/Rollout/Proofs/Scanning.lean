import Mathlib.Tactic.IntervalCases
import Rollout.Proofs.Quotation

/-!
# Strings and integers are read back

What is printed between quotes spells the text, whichever way a character is escaped, so the text
is read back. The digits of an integer are read back where no further digit, point or exponent
follows.
-/

namespace Rollout.Json

/-- The control characters have two digits in base sixteen after two zeros. -/
theorem hexadecimal4_of_lt {n : Nat} (control : n < 32) : ∃ high low : Char,
    (Text.hexadecimal4 n).toList = ['0', '0', high, low] ∧
      hexValue? high = some (n / 16) ∧ hexValue? low = some (n % 16) := by
  interval_cases n <;> exact ⟨_, _, rfl, rfl, rfl⟩

/-- How a character is printed: by a short escape, by its number, or as it is. -/
inductive Escaped (c : Char) : List Char → Prop
  | short {letter : Char} : letter ≠ 'u' → shortEscape? letter = some c →
    Escaped c ['\\', letter]
  | numeric : c.toNat < 32 → Escaped c ('\\' :: 'u' :: (Text.hexadecimal4 c.toNat).toList)
  | plain : c ≠ '"' → c ≠ '\\' → ¬ c.toNat < 32 → Escaped c [c]

theorem escaped_escapeChar (c : Char) : Escaped c (escapeChar c) := by
  rw [escapeChar]
  split_ifs with quote backslash backspace formFeed newline return' tab control
  · exact .short (by decide) (by rw [quote]; rfl)
  · exact .short (by decide) (by rw [backslash]; rfl)
  · exact .short (by decide) (by rw [backspace]; rfl)
  · exact .short (by decide) (by rw [formFeed]; rfl)
  · exact .short (by decide) (by rw [newline]; rfl)
  · exact .short (by decide) (by rw [return']; rfl)
  · exact .short (by decide) (by rw [tab]; rfl)
  · exact .numeric control
  · exact .plain quote backslash control

/-- A control character is spelled by its number. -/
theorem hexRow_of_lt {n : Nat} (control : n < 32) : HexRow 4 (Text.hexadecimal4 n).toList n := by
  obtain ⟨high, low, digits, first, second⟩ := hexadecimal4_of_lt control
  have zero : hexValue? '0' = some 0 := by decide
  have row := (((HexRow.nil.snoc zero).snoc zero).snoc first).snoc second
  have value : 16 * (n / 16) + n % 16 = n := Nat.div_add_mod n 16
  simpa [digits, value] using row

theorem Escaped.spelledChar {c : Char} {printed : List Char} (escaped : Escaped c printed) :
    SpelledChar c printed := by
  cases escaped with
  | short _ means => exact .short (shortEscape?_eq_some_iff.mp means)
  | numeric control => exact .numeric (hexRow_of_lt control)
  | plain quote backslash control => exact .plain quote backslash control

/-- What is printed for a text spells it. -/
theorem spelled_escape (s : List Char) : Spelled s (s.flatMap escapeChar) := by
  induction s with
  | nil => exact .nil
  | cons c s ih =>
    rw [List.flatMap_cons]
    exact .cons (escaped_escapeChar c).spelledChar ih

/-- A printed string is read back. -/
theorem readText_escape (s : String) (rest : List Char) :
    readText (s.toList.flatMap escapeChar ++ '"' :: rest) = .ok (.ok s, rest) :=
  readText_eq_ok_iff.mpr ⟨_, rfl, spelled_escape s.toList⟩

theorem toNat_of_isDigit {c : Char} (digit : c.isDigit = true) : 48 ≤ c.toNat ∧ c.toNat ≤ 57 := by
  simpa [Char.isDigit, UInt32.le_iff_toNat_le] using digit

/-- What may stand behind a value inside an array or object, or at the end of the text. -/
def Stops (rest : List Char) : Prop :=
  ∀ c ∈ rest.head?, c = ',' ∨ c = ']' ∨ c = '\x7d'

theorem takeDigits_append {digits rest : List Char} (all : ∀ c ∈ digits, c.isDigit = true)
    (stop : ∀ c ∈ rest.head?, c.isDigit = false) :
    takeDigits (digits ++ rest) = (digits.map fun c => c.toNat - 48, rest) := by
  induction digits with
  | nil =>
    cases rest with
    | nil => rfl
    | cons c rest =>
      have other : c.isDigit = false := stop c rfl
      simp [takeDigits, Text.digitValue?, other]
  | cons c digits ih =>
    have digit : c.isDigit = true := all c List.mem_cons_self
    have later := ih fun d mem => all d (List.mem_cons_of_mem _ mem)
    simp [takeDigits, Text.digitValue?, digit, later]

/-- The number that digits stand for behind those of another one. -/
def digitsValue (significand : Nat) (digits : List Nat) : Nat :=
  digits.foldl (fun value d => 10 * value + d) significand

theorem le_digitsValue (significand : Nat) (digits : List Nat) :
    significand ≤ digitsValue significand digits := by
  induction digits generalizing significand with
  | nil => exact le_refl _
  | cons d digits ih =>
    have later := ih (10 * significand + d)
    rw [digitsValue, List.foldl_cons, ← digitsValue]
    omega

/-- Digits that fit are all counted. -/
theorem appendDigits_eq (significand : Nat) (digits : List Nat)
    (fits : digitsValue significand digits < UInt64.size) :
    appendDigits significand digits = (digitsValue significand digits, []) := by
  induction digits generalizing significand with
  | nil => rfl
  | cons d digits ih =>
    have step : digitsValue significand (d :: digits) =
        digitsValue (10 * significand + d) digits := rfl
    rw [step] at fits
    have small : 10 * significand + d < UInt64.size :=
      lt_of_le_of_lt (le_digitsValue _ digits) fits
    rw [appendDigits, if_pos small, step]
    exact ih _ fits

def decimalDigits (n : Nat) : List Nat := (Nat.toDigits 10 n).map fun c => c.toNat - 48

theorem digitsValue_decimalDigits (n : Nat) : digitsValue 0 (decimalDigits n) = n := by
  have value : Nat.ofDigitChars 10 (Nat.toDigits 10 n) 0 = n :=
    Nat.ofDigitChars_toDigits (by decide) (by decide)
  rw [Nat.ofDigitChars_eq_foldl] at value
  rw [digitsValue, decimalDigits, List.foldl_map]
  exact value

/-- The first digit of a positive number is not zero. -/
theorem decimalDigits_of_pos {n : Nat} (pos : 0 < n) :
    ∃ d rest, decimalDigits n = (d + 1) :: rest := by
  induction n using Nat.strongRecOn with
  | ind n ih =>
    rw [decimalDigits, Nat.toDigits_eq_if (by decide)]
    by_cases small : n < 10
    · rw [if_pos small]
      refine ⟨n - 1, [], ?_⟩
      interval_cases n <;> rfl
    · rw [if_neg small]
      obtain ⟨d, rest, first⟩ := ih (n / 10) (by omega) (by omega)
      rw [decimalDigits] at first
      exact ⟨d, _, by rw [List.map_append, first, List.cons_append]⟩

/-- The digits of a number end where no digit, point or exponent follows. -/
theorem readNumber_toDigits (negative : Bool) (n : Nat) {rest : List Char} (stops : Stops rest) :
    readNumber negative (Nat.toDigits 10 n ++ rest) =
      (.num (NumberText.value ⟨negative, decimalDigits n, [], none⟩), some rest) := by
  have taken : takeDigits (Nat.toDigits 10 n ++ rest) = (decimalDigits n, rest) := by
    refine takeDigits_append (fun c mem => ?_) fun c mem => ?_
    · exact Nat.isDigit_of_mem_toDigits (by decide) (by decide) mem
    · rcases stops c mem with rfl | rfl | rfl
      · decide
      · decide
      · decide
  have after : readFraction ⟨negative, decimalDigits n, [], none⟩ rest =
      (.num (NumberText.value ⟨negative, decimalDigits n, [], none⟩), some rest) := by
    cases rest with
    | nil => rfl
    | cons c rest =>
      rcases stops c rfl with rfl | rfl | rfl
      · rfl
      · rfl
      · rfl
  rw [readNumber, taken]
  rcases Nat.eq_zero_or_pos n with rfl | pos
  · exact after
  · obtain ⟨d, digits, first⟩ := decimalDigits_of_pos pos
    rw [first] at after ⊢
    exact after

/-- The digits of a natural number of 64 bits are read back. -/
theorem readNumber_natural {n : Nat} (fits : n < UInt64.size) {rest : List Char}
    (stops : Stops rest) : readNumber false (Nat.toDigits 10 n ++ rest) =
      (.num (.ok (.integer n)), some rest) := by
  have value := digitsValue_decimalDigits n
  have all := appendDigits_eq 0 (decimalDigits n) (by rwa [value])
  rw [readNumber_toDigits false n stops]
  simp [NumberText.value, all, value]

/-- The digits behind a minus sign are read back where the number has 63 bits. -/
theorem readNumber_negative {n : Nat} (pos : 0 < n) (fits : 2 * n ≤ UInt64.size)
    {rest : List Char} (stops : Stops rest) : readNumber true (Nat.toDigits 10 n ++ rest) =
      (.num (.ok (.integer (-n))), some rest) := by
  have value := digitsValue_decimalDigits n
  have all := appendDigits_eq 0 (decimalDigits n) (by rw [value]; omega)
  have nonzero : n ≠ 0 := by omega
  rw [readNumber_toDigits true n stops]
  simp [NumberText.value, all, value, fits, nonzero]

end Rollout.Json
