import Mathlib.Algebra.Group.Int.Defs
import Rollout.Json.Decoder

/-!
# Readings that show a value

A value can be written in many ways: blanks stand anywhere between its parts, characters are
escaped or not, and the members of an object come in any order. A reading shows a value if all
parts are there once and nothing is wrong with any of them, however the text spells them.
-/

namespace Rollout.Json

/-- Every number is held as an integer of 64 bits, signed or unsigned. -/
inductive Integral : Json → Prop
  | null : Integral .null
  | bool (b : Bool) : Integral (.bool b)
  | num {z : Int} : -2 ^ 63 ≤ z → z < 2 ^ 64 → Integral (.num (.integer z))
  | str (s : String) : Integral (.str s)
  | arr {items : List Json} : (∀ item ∈ items, Integral item) → Integral (.arr items)
  | obj {members : List (String × Json)} : (∀ member ∈ members, Integral member.2) →
    Integral (.obj members)

/-- Members are in key order on every level, and the levels do not go beyond a depth. -/
inductive Kept : Nat → Json → Prop
  | null {depth : Nat} : Kept depth .null
  | bool {depth : Nat} (b : Bool) : Kept depth (.bool b)
  | num {depth : Nat} (n : Number) : Kept depth (.num n)
  | str {depth : Nat} (s : String) : Kept depth (.str s)
  | arr {depth : Nat} {items : List Json} : (∀ item ∈ items, Kept depth item) →
    Kept (depth + 1) (.arr items)
  | obj {depth : Nat} {members : List (String × Json)} : KeysIncrease members →
    (∀ member ∈ members, Kept depth member.2) → Kept (depth + 1) (.obj members)

/-- Induction over the parts of a reading. -/
theorem Reading.induction {motive : Reading → Prop} (null : motive .null)
    (bool : ∀ b, motive (.bool b)) (num : ∀ n, motive (.num n)) (str : ∀ s, motive (.str s))
    (arr : ∀ items tail, (∀ item ∈ items, motive item) → motive (.arr items tail))
    (obj : ∀ members tail, (∀ member ∈ members, motive member.2) → motive (.obj members tail))
    (broken : ∀ gap, motive (.broken gap)) (r : Reading) : motive r := by
  cases r with
  | null => exact null
  | bool b => exact bool b
  | num n => exact num n
  | str s => exact str s
  | arr items tail =>
    exact arr items tail fun item mem =>
      Reading.induction null bool num str arr obj broken item
  | obj members tail =>
    exact obj members tail fun member mem =>
      Reading.induction null bool num str arr obj broken member.2
  | broken gap => exact broken gap
termination_by sizeOf r
decreasing_by
  · have smaller := List.sizeOf_lt_of_mem mem
    simp only [Reading.arr.sizeOf_spec]
    omega
  · have smaller := List.sizeOf_lt_of_mem mem
    have part : sizeOf member = 1 + sizeOf member.1 + sizeOf member.2 := rfl
    simp only [Reading.obj.sizeOf_spec]
    omega
mutual

/-- Whether a reading shows a value. The members of an object may stand in any order. -/
def ShownBy : Json → Reading → Prop
  | .null, r => r = .null
  | .bool b, r => r = .bool b
  | .num n, r => r = .num (.ok n)
  | .str s, r => r = .str (.ok s)
  | .arr values, r => ∃ items tail, r = .arr items tail ∧ tail.finish = .ok () ∧
    ItemsShownBy values items
  | .obj values, r => ∃ members ordered tail, r = .obj members tail ∧ tail.finish = .ok () ∧
    members.Perm ordered ∧ MembersShownBy values ordered

def ItemsShownBy : List Json → List Reading → Prop
  | [], items => items = []
  | value :: values, items => ∃ item rest, items = item :: rest ∧ ShownBy value item ∧
    ItemsShownBy values rest

def MembersShownBy : List (String × Json) → List (Except Fault String × Reading) → Prop
  | [], members => members = []
  | (key, value) :: values, members => ∃ r rest, members = (.ok key, r) :: rest ∧
    ShownBy value r ∧ MembersShownBy values rest

end

mutual

/-- A value at hand is shown by its reading. -/
theorem shownBy_ofJson (j : Json) : j.ShownBy (.ofJson j) := by
  cases j with
  | null => rfl
  | bool b => rfl
  | num n => rfl
  | str s => rfl
  | arr items => exact ⟨_, .complete, rfl, rfl, itemsShownBy_readings items⟩
  | obj members => exact ⟨_, _, .complete, rfl, rfl, .refl _, membersShownBy_readings members⟩

theorem itemsShownBy_readings (items : List Json) : ItemsShownBy items (readingsOfItems items) := by
  cases items with
  | nil => rfl
  | cons item items => exact ⟨_, _, rfl, shownBy_ofJson item, itemsShownBy_readings items⟩

theorem membersShownBy_readings (members : List (String × Json)) :
    MembersShownBy members (readingsOfMembers members) := by
  cases members with
  | nil => rfl
  | cons member members =>
    obtain ⟨key, value⟩ := member
    exact ⟨_, _, rfl, shownBy_ofJson value, membersShownBy_readings members⟩

end

end Rollout.Json
