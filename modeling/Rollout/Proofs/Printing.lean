import Mathlib.Tactic.IntervalCases
import Rollout.Proofs.Scanning
import Rollout.Proofs.Shown

/-!
# Compact texts are read back

The compact text of a value whose numbers are integers is read as a reading that shows the
value, by induction on the value. The text is long enough as fuel for reading it.
-/

namespace Rollout.Json

theorem toList_quote (s : String) :
    (quote s).toList = '"' :: (s.toList.flatMap escapeChar ++ ['"']) := by
  simp [quote, String.toList_append]

theorem toList_compact_str (s : String) :
    (compact (.str s)).toList = '"' :: (s.toList.flatMap escapeChar ++ ['"']) := by
  rw [compact, toList_quote]

theorem toList_compact_arr (items : List Json) :
    (compact (.arr items)).toList = '[' :: ((compactItems items).toList ++ [']']) := by
  simp [compact, String.toList_append]

theorem toList_compact_obj (members : List (String × Json)) :
    (compact (.obj members)).toList = '\x7b' :: ((compactMembers members).toList ++ ['\x7d']) := by
  simp [compact, String.toList_append]

theorem toList_compactItems_cons (item next : Json) (items : List Json) :
    (compactItems (item :: next :: items)).toList =
      (compact item).toList ++ ',' :: (compactItems (next :: items)).toList := by
  simp [compactItems, String.toList_append]

def membersChars (key : String) (value : Json) (members : List (String × Json)) : List Char :=
  key.toList.flatMap escapeChar ++ '"' :: ':' :: ((compact value).toList ++
    match members with
    | [] => []
    | _ :: _ => ',' :: (compactMembers members).toList)

theorem toList_compactMembers_cons (key : String) (value : Json)
    (members : List (String × Json)) :
    (compactMembers ((key, value) :: members)).toList =
      '"' :: membersChars key value members := by
  cases members with
  | nil => simp [compactMembers, membersChars, toList_quote, String.toList_append]
  | cons member members =>
    simp [compactMembers, membersChars, toList_quote, String.toList_append]

/-- An integer is printed as its digits, behind a sign where it is negative. -/
theorem toList_toText_integer (z : Int) :
    (Number.integer z).toText.toList =
      if z < 0 then '-' :: Nat.toDigits 10 z.natAbs else Nat.toDigits 10 z.natAbs := by
  have digits : ∀ n : Nat, n.repr.toList = Nat.toDigits 10 n := by
    intro n
    rw [Nat.repr_eq_ofList_toDigits, String.toList_ofList]
  rw [Number.toText, Int.toString_eq_repr]
  cases z with
  | ofNat n => simp [Int.repr, digits]
  | negSucc n => simp [Int.repr, digits, String.toList_append]

theorem skipSpace_cons {c : Char} (solid : isSpace c = false) (rest : List Char) :
    skipSpace (c :: rest) = c :: rest := by
  simp [skipSpace, solid]

/-- Digits begin with a digit. -/
theorem toDigits_eq_cons (n : Nat) :
    ∃ c rest, Nat.toDigits 10 n = c :: rest ∧ c.isDigit = true := by
  cases digits : Nat.toDigits 10 n with
  | nil => exact absurd digits Nat.toDigits_ne_nil
  | cons c rest =>
    have mem : c ∈ Nat.toDigits 10 n := by
      rw [digits]
      exact List.mem_cons_self
    exact ⟨c, rest, rfl, Nat.isDigit_of_mem_toDigits (by decide) (by decide) mem⟩

/-- A digit is one of ten characters. -/
theorem mem_of_isDigit {c : Char} (digit : c.isDigit = true) :
    c ∈ ['0', '1', '2', '3', '4', '5', '6', '7', '8', '9'] := by
  obtain ⟨low, high⟩ := toNat_of_isDigit digit
  rw [← Char.ofNat_toNat c]
  generalize c.toNat = n at low high
  interval_cases n <;> decide

theorem digit_solid {c : Char} (digit : c.isDigit = true) : isSpace c = false ∧ c ≠ ']' := by
  have all : ∀ c ∈ ['0', '1', '2', '3', '4', '5', '6', '7', '8', '9'],
      isSpace c = false ∧ c ≠ ']' := by simp [isSpace]
  exact all c (mem_of_isDigit digit)

/-- A value begins with neither a blank nor a closing bracket. -/
theorem compact_eq_cons {j : Json} (integral : j.Integral) :
    ∃ c rest, (compact j).toList = c :: rest ∧ isSpace c = false ∧ c ≠ ']' := by
  cases integral with
  | null => exact ⟨'n', ['u', 'l', 'l'], by decide, by decide, by decide⟩
  | bool b =>
    cases b with
    | false => exact ⟨'f', ['a', 'l', 's', 'e'], by decide, by decide, by decide⟩
    | true => exact ⟨'t', ['r', 'u', 'e'], by decide, by decide, by decide⟩
  | @num z low high =>
    obtain ⟨c, rest, digits, digit⟩ := toDigits_eq_cons z.natAbs
    rw [compact, toList_toText_integer, digits]
    by_cases negative : z < 0
    · exact ⟨'-', c :: rest, by rw [if_pos negative], by decide, by decide⟩
    · exact ⟨c, rest, by rw [if_neg negative], digit_solid digit⟩
  | str s => exact ⟨'"', _, toList_compact_str s, by decide, by decide⟩
  | arr _ => exact ⟨'[', _, toList_compact_arr _, by decide, by decide⟩
  | obj _ => exact ⟨'\x7b', _, toList_compact_obj _, by decide, by decide⟩

theorem compactItems_eq_cons {item : Json} (integral : item.Integral) (items : List Json) :
    ∃ c rest, (compactItems (item :: items)).toList = c :: rest ∧ isSpace c = false ∧ c ≠ ']' := by
  obtain ⟨c, rest, first, solid⟩ := compact_eq_cons integral
  cases items with
  | nil => exact ⟨c, rest, first, solid⟩
  | cons next items =>
    rw [toList_compactItems_cons, first]
    exact ⟨c, _, rfl, solid⟩

theorem readValue_digit {c : Char} (digit : c.isDigit = true) (fuel : Nat) (rest : List Char) :
    readValue (fuel + 1) (c :: rest) = readNumber false (c :: rest) := by
  have mem := mem_of_isDigit digit
  simp only [List.mem_cons, List.not_mem_nil, or_false] at mem
  rcases mem with rfl | rfl | rfl | rfl | rfl | rfl | rfl | rfl | rfl | rfl <;> rfl

/-- An integer is read back. -/
theorem readValue_integer {z : Int} (low : -2 ^ 63 ≤ z) (high : z < 2 ^ 64) (fuel : Nat)
    {rest : List Char} (stops : Stops rest) :
    readValue (fuel + 1) ((compact (.num (.integer z))).toList ++ rest) =
      (.num (.ok (.integer z)), some rest) := by
  have size : UInt64.size = 2 ^ 64 := rfl
  rw [compact, toList_toText_integer]
  by_cases negative : z < 0
  · have value : (-(z.natAbs : Int)) = z := by omega
    have read := readNumber_negative (n := z.natAbs) (by omega) (by omega) stops
    rw [value] at read
    rw [if_pos negative]
    exact read
  · have value : (z.natAbs : Int) = z := by omega
    have read := readNumber_natural (n := z.natAbs) (by omega) stops
    obtain ⟨c, digits, first, digit⟩ := toDigits_eq_cons z.natAbs
    rw [value, first] at read
    rw [if_neg negative, first]
    exact (readValue_digit digit fuel _).trans read

/-- Behind the bracket of an array its items are read, if there are any. -/
theorem readValue_arr {cs : List Char} {c : Char} {chars : List Char} (first : cs = c :: chars)
    (solid : isSpace c = false) (opens : c ≠ ']') (fuel : Nat) :
    readValue (fuel + 1) ('[' :: cs) =
      (.arr (readItems fuel cs).1 (readItems fuel cs).2.1, (readItems fuel cs).2.2) := by
  rw [readValue]
  simp only [skipSpace_cons (c := '[') (by decide), first, skipSpace_cons solid]
  split
  · rename_i empty
    cases empty
  · rename_i closed
    exact absurd (List.cons.inj closed).1 opens
  · rfl

/-- Behind the bracket of an object its members are read, if there are any. -/
theorem readValue_obj (cs : List Char) (fuel : Nat) :
    readValue (fuel + 1) ('\x7b' :: '"' :: cs) =
      (.obj (readMembers fuel cs).1 (readMembers fuel cs).2.1, (readMembers fuel cs).2.2) := by
  rfl

section

variable {fuel : Nat} {cs rest : List Char} {r : Reading}

theorem readItems_last (read : readValue fuel cs = (r, some (']' :: rest))) :
    readItems (fuel + 1) cs = ([r], .closed, some rest) := by
  rw [readItems, read]
  rfl

theorem readItems_more {more : List Char} {c : Char} {chars : List Char}
    (read : readValue fuel cs = (r, some (',' :: more))) (first : more = c :: chars)
    (solid : isSpace c = false) (opens : c ≠ ']') :
    readItems (fuel + 1) cs =
      (r :: (readItems fuel more).1, (readItems fuel more).2.1, (readItems fuel more).2.2) := by
  rw [readItems, read]
  simp only [skipSpace_cons (c := ',') (by decide), first, skipSpace_cons solid]
  split
  · rename_i empty
    cases empty
  · rename_i closed
    exact absurd (List.cons.inj closed).1 opens
  · rfl

variable {key : Except Fault String} {value : List Char}

theorem readMembers_last (named : readText cs = .ok (key, ':' :: value))
    (read : readValue fuel value = (r, some ('\x7d' :: rest))) :
    readMembers (fuel + 1) cs = ([(key, r)], .closed, some rest) := by
  rw [readMembers, named]
  simp only [skipSpace_cons (c := ':') (by decide), read,
    skipSpace_cons (c := '\x7d') (by decide)]

theorem readMembers_more (named : readText cs = .ok (key, ':' :: value))
    (read : readValue fuel value = (r, some (',' :: '"' :: rest))) :
    readMembers (fuel + 1) cs = ((key, r) :: (readMembers fuel rest).1,
      (readMembers fuel rest).2.1, (readMembers fuel rest).2.2) := by
  rw [readMembers, named]
  simp only [skipSpace_cons (c := ':') (by decide), read,
    skipSpace_cons (c := ',') (by decide), skipSpace_cons (c := '"') (by decide)]

end

theorem stops_comma (rest : List Char) : Stops (',' :: rest) := by
  rintro c ⟨⟩
  exact .inl rfl

theorem stops_bracket (rest : List Char) : Stops (']' :: rest) := by
  rintro c ⟨⟩
  exact .inr (.inl rfl)

theorem stops_brace (rest : List Char) : Stops ('\x7d' :: rest) := by
  rintro c ⟨⟩
  exact .inr (.inr rfl)

mutual

/-- A printed value is read back up to its end. -/
theorem readValue_compact (j : Json) (integral : j.Integral) (fuel : Nat) (rest : List Char)
    (enough : (compact j).toList.length ≤ fuel) (stops : Stops rest) :
    ∃ r, readValue fuel ((compact j).toList ++ rest) = (r, some rest) ∧ j.ShownBy r := by
  obtain ⟨c, chars, first, _⟩ := compact_eq_cons integral
  have some : 1 ≤ (compact j).toList.length := by simp [first]
  obtain ⟨fuel, rfl⟩ : ∃ n, fuel = n + 1 := ⟨fuel - 1, by omega⟩
  cases j with
  | null => exact ⟨.null, rfl, rfl⟩
  | bool b =>
    cases b with
    | false => exact ⟨.bool false, rfl, rfl⟩
    | true => exact ⟨.bool true, rfl, rfl⟩
  | num n =>
    cases integral with
    | num low high => exact ⟨_, readValue_integer low high fuel stops, rfl⟩
  | str s =>
    refine ⟨.str (.ok s), ?_, rfl⟩
    have text := readText_escape s rest
    rw [toList_compact_str]
    simp only [List.cons_append, List.append_assoc, List.nil_append]
    rw [readValue]
    simp only [skipSpace_cons (c := '"') (by decide), text]
  | arr items =>
    cases items with
    | nil => exact ⟨.arr [] .closed, rfl, [], .closed, rfl, rfl, rfl⟩
    | cons item items =>
      cases integral with
      | arr integral =>
        have opens := compactItems_eq_cons (integral item List.mem_cons_self) items
        obtain ⟨c, chars, first, solid, open'⟩ := opens
        rw [toList_compact_arr] at enough ⊢
        simp only [List.length_cons, List.length_append, List.length_nil] at enough
        obtain ⟨rs, read, shown⟩ :=
          readItems_compact (item :: items) (by simp) integral fuel rest (by omega)
        refine ⟨.arr rs .closed, ?_, rs, .closed, rfl, rfl, shown⟩
        simp only [List.cons_append, List.append_assoc, List.nil_append]
        rw [readValue_arr (by rw [first, List.cons_append]) solid open', read]
  | obj members =>
    cases members with
    | nil => exact ⟨.obj [] .closed, rfl, [], [], .closed, rfl, rfl, .refl _, rfl⟩
    | cons member members =>
      cases integral with
      | obj integral =>
        have text := toList_compactMembers_cons member.1 member.2 members
        rw [toList_compact_obj, text] at enough ⊢
        simp only [List.length_cons, List.length_append, List.length_nil] at enough
        obtain ⟨ms, read, shown⟩ :=
          readMembers_compact (member :: members) integral _ text fuel rest (by omega)
        refine ⟨.obj ms .closed, ?_, ms, ms, .closed, rfl, rfl, .refl _, shown⟩
        simp only [List.cons_append, List.append_assoc, List.nil_append]
        rw [readValue_obj, read]

theorem readItems_compact (items : List Json) (nonempty : items ≠ [])
    (integral : ∀ item ∈ items, item.Integral) (fuel : Nat) (rest : List Char)
    (enough : (compactItems items).toList.length < fuel) :
    ∃ rs, readItems fuel ((compactItems items).toList ++ ']' :: rest) =
      (rs, .closed, some rest) ∧ ItemsShownBy items rs := by
  obtain ⟨fuel, rfl⟩ : ∃ n, fuel = n + 1 := ⟨fuel - 1, by omega⟩
  cases items with
  | nil => exact absurd rfl nonempty
  | cons item items =>
    have head : item.Integral := integral item List.mem_cons_self
    cases items with
    | nil =>
      rw [compactItems] at enough ⊢
      obtain ⟨r, read, shown⟩ :=
        readValue_compact item head fuel (']' :: rest) (by omega) (stops_bracket rest)
      exact ⟨[r], readItems_last read, r, [], rfl, shown, rfl⟩
    | cons next items =>
      have later : ∀ item ∈ next :: items, item.Integral :=
        fun item mem => integral item (List.mem_cons_of_mem _ mem)
      rw [toList_compactItems_cons] at enough ⊢
      simp only [List.length_cons, List.length_append] at enough
      obtain ⟨r, read, shown⟩ := readValue_compact item head fuel
        (',' :: ((compactItems (next :: items)).toList ++ ']' :: rest)) (by omega) (stops_comma _)
      obtain ⟨rs, reads, all⟩ :=
        readItems_compact (next :: items) (by simp) later fuel rest (by omega)
      obtain ⟨c, chars, first, solid, open'⟩ :=
        compactItems_eq_cons (later next List.mem_cons_self) items
      refine ⟨r :: rs, ?_, r, rs, rfl, shown, all⟩
      rw [List.append_assoc, List.cons_append]
      rw [readItems_more read (by rw [first, List.cons_append]) solid open', reads]

theorem readMembers_compact (members : List (String × Json))
    (integral : ∀ member ∈ members, member.2.Integral) (chars : List Char)
    (text : (compactMembers members).toList = '"' :: chars) (fuel : Nat) (rest : List Char)
    (enough : chars.length < fuel) :
    ∃ ms, readMembers fuel (chars ++ '\x7d' :: rest) = (ms, .closed, some rest) ∧
      MembersShownBy members ms := by
  obtain ⟨fuel, rfl⟩ : ∃ n, fuel = n + 1 := ⟨fuel - 1, by omega⟩
  cases members with
  | nil => cases text
  | cons member members =>
    obtain ⟨key, value⟩ := member
    have head : value.Integral := integral (key, value) List.mem_cons_self
    rw [toList_compactMembers_cons] at text
    obtain rfl := (List.cons.inj text).2
    cases members with
    | nil =>
      simp only [membersChars, List.append_nil, List.length_append, List.length_cons] at enough ⊢
      obtain ⟨r, read, shown⟩ :=
        readValue_compact value head fuel ('\x7d' :: rest) (by omega) (stops_brace rest)
      have named := readText_escape key (':' :: ((compact value).toList ++ '\x7d' :: rest))
      simp only [List.append_assoc, List.cons_append]
      exact ⟨[(.ok key, r)], readMembers_last named read, r, [], rfl, shown, rfl⟩
    | cons next members =>
      have later : ∀ member ∈ next :: members, member.2.Integral :=
        fun member mem => integral member (List.mem_cons_of_mem _ mem)
      have text := toList_compactMembers_cons next.1 next.2 members
      simp only [membersChars, List.length_append, List.length_cons] at enough ⊢
      rw [text] at enough ⊢
      simp only [List.length_cons] at enough
      obtain ⟨r, read, shown⟩ := readValue_compact value head fuel
        (',' :: '"' :: (membersChars next.1 next.2 members ++ '\x7d' :: rest)) (by omega)
        (stops_comma _)
      obtain ⟨ms, reads, all⟩ :=
        readMembers_compact (next :: members) later _ text fuel rest (by omega)
      have named := readText_escape key (':' :: ((compact value).toList ++
        ',' :: '"' :: (membersChars next.1 next.2 members ++ '\x7d' :: rest)))
      simp only [List.append_assoc, List.cons_append]
      refine ⟨(.ok key, r) :: ms, ?_, r, ms, rfl, shown, all⟩
      rw [readMembers_more named read, reads]

end

/-- A text that spells a value, and nothing behind it. -/
def Spells (text : String) (j : Json) : Prop :=
  ∃ r, read text = ⟨r, false⟩ ∧ j.ShownBy r

/-- A text of which nothing is left is read as what its characters are read as. -/
theorem read_eq {text : String} {r : Reading}
    (reads : readValue (2 * text.toList.length + 2) text.toList = (r, some [])) :
    read text = ⟨r, false⟩ := by
  rw [read]
  simp only [reads]
  rfl

/-- The compact text of a value spells it. -/
theorem compact_spells {j : Json} (integral : j.Integral) : Spells (compact j) j := by
  obtain ⟨r, reads, shown⟩ := readValue_compact j integral
    (2 * (compact j).toList.length + 2) [] (by omega) (by simp [Stops])
  rw [List.append_nil] at reads
  exact ⟨r, read_eq reads, shown⟩

end Rollout.Json
