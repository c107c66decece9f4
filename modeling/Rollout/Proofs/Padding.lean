import Rollout.Pass
import Rollout.Proofs.Numerals
import Rollout.Proofs.Scanning

/-!
# Numbers of equal width

The position of a step is shown before the total of all steps and has as many digits as the
total has, with zeros in front where it needs fewer. So all positions among one total have the
same length, each of them tells its step, and in the order of their bytes they come as the steps
do. That the digits suffice rests on the position being at most the total; it is also why the
position does not overflow where the total does not.
-/

namespace Rollout

namespace Text

def bytes (s : String) : List UInt8 := s.toUTF8.data.toList

def byte (c : Char) : UInt8 := UInt8.ofNat c.toNat

theorem toNat_byte {c : Char} (ascii : c.toNat < 128) : (byte c).toNat = c.toNat :=
  UInt8.toNat_ofNat_of_lt' (Nat.lt_trans ascii (by decide))

/-- A text of the first 128 characters has a byte for every character. -/
theorem bytes_eq_map {s : String} (ascii : ∀ c ∈ s.toList, c.toNat < 128) :
    bytes s = s.toList.map byte := by
  have encoded : s.toUTF8 = (s.toList.flatMap String.utf8EncodeChar).toByteArray :=
    String.utf8Encode_toList.symm
  have single : ∀ c ∈ s.toList, String.utf8EncodeChar c = [byte c] := fun c mem =>
    if_pos (Nat.le_of_lt_succ (ascii c mem))
  rw [bytes, encoded, List.data_toByteArray, List.toList_toArray, List.flatMap_def,
    List.map_congr_left single, ← List.flatMap_def, ← List.map_eq_flatMap]

theorem map_byte_lt_iff {row other : List Char} (ascii : ∀ c ∈ row, c.toNat < 128)
    (ascii' : ∀ c ∈ other, c.toNat < 128) : row.map byte < other.map byte ↔ row < other := by
  induction row generalizing other with
  | nil => cases other <;> simp
  | cons c row ih =>
    cases other with
    | nil => simp
    | cons d other =>
      obtain ⟨first, rest⟩ := List.forall_mem_cons.mp ascii
      obtain ⟨first', rest'⟩ := List.forall_mem_cons.mp ascii'
      have before : byte c < byte d ↔ c < d := by
        rw [UInt8.lt_iff_toNat_lt, toNat_byte first, toNat_byte first']
        exact Iff.rfl
      have same : byte c = byte d ↔ c = d := by
        rw [← UInt8.toNat_inj, toNat_byte first, toNat_byte first', Char.toNat_inj]
      rw [List.map_cons, List.map_cons, List.cons_lt_cons_iff, List.cons_lt_cons_iff, before, same,
        ih rest rest']

/-- Texts of the first 128 characters are in the order of their bytes. -/
theorem bytes_lt_iff {s t : String} (ascii : ∀ c ∈ s.toList, c.toNat < 128)
    (ascii' : ∀ c ∈ t.toList, c.toNat < 128) : bytes s < bytes t ↔ s.toList < t.toList := by
  rw [bytes_eq_map ascii, bytes_eq_map ascii', map_byte_lt_iff ascii ascii']

/-- The first digit of a row counts as often as there are numbers with the digits behind it. -/
theorem ofDigitChars_cons_zero (c : Char) (row : List Char) :
    Nat.ofDigitChars 10 (c :: row) 0 =
      10 ^ row.length * (c.toNat - 48) + Nat.ofDigitChars 10 row 0 := by
  rw [Nat.ofDigitChars_cons, Nat.ofDigitChars_eq_ofDigitChars_zero, Nat.mul_zero, Nat.zero_add]
  rfl

theorem ofDigitChars_lt {row : List Char} (digits : ∀ c ∈ row, c.isDigit = true) :
    Nat.ofDigitChars 10 row 0 < 10 ^ row.length := by
  induction row with
  | nil => decide
  | cons c row ih =>
    obtain ⟨digit, rest⟩ := List.forall_mem_cons.mp digits
    have below := ih rest
    have range := Json.toNat_of_isDigit digit
    have most : 10 ^ row.length * (c.toNat - 48) ≤ 10 ^ row.length * 9 :=
      Nat.mul_le_mul_left _ (by omega)
    rw [ofDigitChars_cons_zero, List.length_cons, Nat.pow_succ]
    omega

/-- Of two numbers in a base the one with the greater leading digit is greater; what follows
counts where these are the same. -/
theorem leading_lt_iff {base x y u v : Nat} (small : u < base) (small' : v < base) :
    base * x + u < base * y + v ↔ x < y ∨ x = y ∧ u < v := by
  rcases Nat.lt_trichotomy x y with less | rfl | more
  · have step : base * x + base ≤ base * y := Nat.mul_le_mul_left base less
    constructor
    · exact fun _ => .inl less
    · omega
  · omega
  · have step : base * y + base ≤ base * x := Nat.mul_le_mul_left base more
    omega

/-- Rows of equally many digits are in the order of the numbers that they stand for. -/
theorem row_lt_iff {row other : List Char} (digits : ∀ c ∈ row, c.isDigit = true)
    (digits' : ∀ c ∈ other, c.isDigit = true) (same : row.length = other.length) :
    row < other ↔ Nat.ofDigitChars 10 row 0 < Nat.ofDigitChars 10 other 0 := by
  induction row generalizing other with
  | nil =>
    obtain rfl := List.length_eq_zero_iff.mp same.symm
    simp
  | cons c row ih =>
    cases other with
    | nil => cases same
    | cons d other =>
      obtain ⟨digit, rest⟩ := List.forall_mem_cons.mp digits
      obtain ⟨digit', rest'⟩ := List.forall_mem_cons.mp digits'
      have same : row.length = other.length := Nat.succ.inj same
      have below : Nat.ofDigitChars 10 row 0 < 10 ^ other.length := same ▸ ofDigitChars_lt rest
      have range := Json.toNat_of_isDigit digit
      have range' := Json.toNat_of_isDigit digit'
      have before : c < d ↔ c.toNat - 48 < d.toNat - 48 := by
        have lt : c < d ↔ c.toNat < d.toNat := Iff.rfl
        rw [lt]
        omega
      have equal : c = d ↔ c.toNat - 48 = d.toNat - 48 := by
        rw [← Char.toNat_inj]
        omega
      rw [List.cons_lt_cons_iff, ih rest rest' same, before, equal, ofDigitChars_cons_zero,
        ofDigitChars_cons_zero, same, leading_lt_iff below (ofDigitChars_lt rest')]

/-- Lists of the same length are told apart before what follows them. -/
theorem append_lt_append_iff {row other : List Char} (same : row.length = other.length)
    (after : List Char) : row ++ after < other ++ after ↔ row < other := by
  induction row generalizing other with
  | nil =>
    obtain rfl := List.length_eq_zero_iff.mp same.symm
    simp
  | cons c row ih =>
    cases other with
    | nil => cases same
    | cons d other =>
      rw [List.cons_append, List.cons_append, List.cons_lt_cons_iff, List.cons_lt_cons_iff,
        ih (Nat.succ.inj same)]

/-- A row that writes a number in decimal, with no zero in front of other digits. -/
structure Decimal (n : Nat) (row : List Char) : Prop where
  digits : ∀ c ∈ row, c.isDigit = true
  value : Nat.ofDigitChars 10 row 0 = n
  nonempty : row ≠ []
  plain : row.head? = some '0' → row = ['0']

theorem decimal_toDigits (n : Nat) : Decimal n (Nat.toDigits 10 n) where
  digits c mem := Nat.isDigit_of_mem_toDigits (by decide) (by decide) mem
  value := Nat.ofDigitChars_ten_toDigits
  nonempty := Nat.toDigits_ne_nil
  plain zero := by
    rcases Nat.eq_zero_or_pos n with rfl | pos
    · rfl
    · obtain ⟨d, rest, first⟩ := Json.decimalDigits_of_pos pos
      obtain ⟨row, eq⟩ := List.head?_eq_some_iff.mp zero
      rw [Json.decimalDigits, eq] at first
      cases first

theorem length_toString (n : Nat) : (toString n).length = (Nat.toDigits 10 n).length := by
  rw [← String.length_toList, toList_toString]

/-- A row of digits that stands for a number and has a given width. -/
structure Row (width n : Nat) (row : List Char) : Prop where
  digits : ∀ c ∈ row, c.isDigit = true
  value : Nat.ofDigitChars 10 row 0 = n
  length : row.length = width

/-- A number fills any width that its digits do not exceed. -/
theorem row_zeroPadded {width n : Nat} (pos : 0 < width) (fits : n < 10 ^ width) :
    Row width n (zeroPadded width n).toList := by
  have short : (Nat.toDigits 10 n).length ≤ width :=
    (Nat.length_toDigits_le_iff (by decide) pos).mpr fits
  have chars : (zeroPadded width n).toList =
      List.replicate (width - (Nat.toDigits 10 n).length) '0' ++ Nat.toDigits 10 n := by
    rw [zeroPadded, String.toList_append, String.toList_ofList, toList_toString, length_toString]
  rw [chars]
  refine ⟨fun c mem => ?_, ?_, ?_⟩
  · rcases List.mem_append.mp mem with zero | digit
    · rw [List.eq_of_mem_replicate zero]
      rfl
    · exact (decimal_toDigits n).digits c digit
  · rw [Nat.ofDigitChars_append, Nat.ofDigitChars_replicate_zero, Nat.mul_zero,
      (decimal_toDigits n).value]
  · rw [List.length_append, List.length_replicate]
    omega

end Text

section

variable {n m total : Nat}

/-- The position of a step, as many digits as the total has. -/
def positionRow (n total : Nat) : List Char :=
  (Text.zeroPadded (Nat.toDigits 10 total).length (n + 1)).toList

theorem toList_formatIndex (n total : Nat) : (formatIndex n total).toList =
    '[' :: (positionRow n total ++ '/' :: Nat.toDigits 10 total ++ [']']) := by
  rw [formatIndex, Text.length_toString]
  simp only [String.toList_append, Text.toList_toString, positionRow]
  simp

/-- The total has room for the position of every step. -/
theorem row_positionRow (step : n < total) :
    Text.Row (Nat.toDigits 10 total).length (n + 1) (positionRow n total) := by
  have fits : total < 10 ^ (Nat.toDigits 10 total).length :=
    (Nat.length_toDigits_le_iff (by decide) Nat.length_toDigits_pos).mp (Nat.le_refl _)
  exact Text.row_zeroPadded Nat.length_toDigits_pos (by omega)

theorem ascii_formatIndex (step : n < total) :
    ∀ c ∈ (formatIndex n total).toList, c.toNat < 128 := by
  have digit : ∀ c : Char, c.isDigit = true → c.toNat < 128 := fun c digit => by
    have range := Json.toNat_of_isDigit digit
    omega
  rw [toList_formatIndex]
  simp only [List.forall_mem_cons, List.forall_mem_append]
  exact ⟨by decide, ⟨fun c mem => digit c ((row_positionRow step).digits c mem), by decide,
    fun c mem => digit c ((Text.decimal_toDigits total).digits c mem)⟩, by decide,
    fun _ mem => absurd mem List.not_mem_nil⟩

structure ShownAt (n total : Nat) (text : String) : Prop where
  /-- It does not go over 64 bits. -/
  fits : (UInt64.ofNat n + 1).toNat = n + 1
  /-- It stands before the total, in as many digits. -/
  layout : ∃ position all, text.toList = '[' :: (position ++ '/' :: all ++ [']']) ∧
    Text.Decimal total all ∧ Text.Row all.length (n + 1) position

theorem shownAt_formatIndex (bounded : total < UInt64.size) (step : n < total) :
    ShownAt n total (formatIndex n total) where
  fits := by
    have small : n + 1 < UInt64.size := Nat.lt_of_le_of_lt step bounded
    rw [UInt64.toNat_add, UInt64.toNat_ofNat_of_lt' (by omega)]
    exact Nat.mod_eq_of_lt small
  layout := ⟨_, _, toList_formatIndex n total, Text.decimal_toDigits total, row_positionRow step⟩

theorem length_formatIndex (step : n < total) :
    (formatIndex n total).length = 2 * (Nat.toDigits 10 total).length + 3 := by
  have row := (row_positionRow step).length
  rw [← String.length_toList, toList_formatIndex]
  simp only [List.length_cons, List.length_append, row, List.length_nil]
  omega

theorem bytes_formatIndex_lt_iff (first : n < total) (second : m < total) :
    Text.bytes (formatIndex n total) < Text.bytes (formatIndex m total) ↔ n < m := by
  have row := row_positionRow first
  have row' := row_positionRow second
  have same : (positionRow n total).length = (positionRow m total).length :=
    row.length.trans row'.length.symm
  rw [Text.bytes_lt_iff (ascii_formatIndex first) (ascii_formatIndex second), toList_formatIndex,
    toList_formatIndex, List.cons_lt_cons_self, List.append_assoc, List.append_assoc,
    Text.append_lt_append_iff same, Text.row_lt_iff row.digits row'.digits same, row.value,
    row'.value, Nat.add_lt_add_iff_right]

end

structure InStep (total : Nat) : Prop where
  /-- Each is shown, -/
  shown : ∀ n, n < total → ShownAt n total (formatIndex n total)
  /-- all are equally long, -/
  length : ∀ n m, n < total → m < total →
    (formatIndex n total).length = (formatIndex m total).length
  /-- no two are the same, -/
  distinct : ∀ n m, n < total → m < total → formatIndex n total = formatIndex m total → n = m
  /-- and their bytes are in the order of the steps. -/
  order : ∀ n m, n < total → m < total →
    (Text.bytes (formatIndex n total) < Text.bytes (formatIndex m total) ↔ n < m)

theorem formatIndex_inStep (total : Nat) (bounded : total < UInt64.size) : InStep total where
  shown _ step := shownAt_formatIndex bounded step
  length n m first second := by rw [length_formatIndex first, length_formatIndex second]
  distinct n m first second same := by
    rcases Nat.lt_trichotomy n m with less | equal | more
    · have before := (bytes_formatIndex_lt_iff first second).mpr less
      rw [same] at before
      exact absurd before (List.lt_irrefl _)
    · exact equal
    · have before := (bytes_formatIndex_lt_iff second first).mpr more
      rw [same] at before
      exact absurd before (List.lt_irrefl _)
  order _ _ first second := bytes_formatIndex_lt_iff first second

namespace Rehearsal

/-- As many steps as can be counted: the last position is the total, the first is mostly zeros. -/
theorem countlessSteps_inStep :
    18446744073709551615 < UInt64.size ∧ InStep 18446744073709551615 ∧
      formatIndex 0 18446744073709551615 = "[00000000000000000001/18446744073709551615]" ∧
      formatIndex 18446744073709551614 18446744073709551615 =
        "[18446744073709551615/18446744073709551615]" :=
  ⟨by decide, formatIndex_inStep 18446744073709551615 (by decide), by decide +kernel,
    by decide +kernel⟩

end Rehearsal

end Rollout
