import Rollout.Id

/-!
# Numbers in decimal

A number that is written in plain decimal is read back wherever it lies below the bound, and so
is the version of a release.
-/

namespace Rollout

namespace Text

theorem le_ofDigitChars (value : Nat) (digits : List Char) :
    value ≤ Nat.ofDigitChars 10 digits value := by
  induction digits generalizing value with
  | nil => exact Nat.le_refl _
  | cons c digits ih =>
    rw [Nat.ofDigitChars_cons]
    have later := ih (10 * value + (c.toNat - '0'.toNat))
    omega

/-- Digits whose value stays below the bound are read as that value. -/
theorem readDigits_eq_ok {bound value : Nat} {digits : List Char}
    (all : ∀ c ∈ digits, c.isDigit = true) (fits : Nat.ofDigitChars 10 digits value < bound) :
    readDigits bound value digits = .ok (Nat.ofDigitChars 10 digits value) := by
  induction digits generalizing value with
  | nil => rfl
  | cons c digits ih =>
    have digit : digitValue? c = some (c.toNat - '0'.toNat) := if_pos (all c List.mem_cons_self)
    rw [Nat.ofDigitChars_cons] at fits ⊢
    have small : 10 * value + (c.toNat - '0'.toNat) < bound :=
      Nat.lt_of_le_of_lt (le_ofDigitChars _ digits) fits
    simp only [readDigits, digit, if_pos small]
    exact ih (fun d mem => all d (List.mem_cons_of_mem _ mem)) fits

/-- A text that starts with a digit has no sign to skip. -/
theorem readNumber_of_digits {bound : Nat} {s : String} {c : Char} {rest : List Char}
    (eq : s.toList = c :: rest) (digit : c.isDigit = true) :
    readNumber bound s = readDigits bound 0 (c :: rest) := by
  have unsigned : c ≠ '+' := by
    rintro rfl
    cases digit
  rw [readNumber, eq]
  split
  · rename_i empty
    cases empty
  · rename_i sign
    exact absurd (List.cons.inj sign).1 unsigned
  · rename_i sign
    exact absurd (List.cons.inj sign).1 unsigned
  · rfl

theorem toList_toString (n : Nat) : (toString n).toList = Nat.toDigits 10 n := by
  rw [Nat.toString_eq_repr, Nat.toList_repr]

/-- A number that is written in decimal is read back. -/
theorem readNumber_toString {bound n : Nat} (small : n < bound) :
    readNumber bound (toString n) = .ok n := by
  have all : ∀ c ∈ Nat.toDigits 10 n, c.isDigit = true := fun c mem =>
    Nat.isDigit_of_mem_toDigits (by decide) (by decide) mem
  have value : Nat.ofDigitChars 10 (Nat.toDigits 10 n) 0 = n := Nat.ofDigitChars_ten_toDigits
  have written := toList_toString n
  obtain ⟨c, rest, digits⟩ := List.exists_cons_of_ne_nil (Nat.toDigits_ne_nil (n := n) (b := 10))
  rw [digits] at all value written
  rw [readNumber_of_digits written (all c List.mem_cons_self)]
  rw [readDigits_eq_ok all (by rwa [value]), value]

end Text

/-- The version of a release is read back from its text. -/
theorem Version.parse_toText (v : Version) : Version.parse v.toText = .ok v := by
  have read : Text.readNumber UInt32.size v.toText = .ok v.number.toNat :=
    Text.readNumber_toString v.number.toNat_lt
  rw [Version.parse, read]
  exact congrArg (fun number => Except.ok (Version.mk number)) UInt32.ofNat_toNat

end Rollout
