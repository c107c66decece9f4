import Rollout.Proofs.Members

/-!
# Values that are kept as they are

What is not understood is kept as a value. A reading that shows a value is kept as that value,
and whatever is kept has its members in key order and no more levels than it may have.
-/

namespace Rollout.Json

/-- The members of an object are kept in a dictionary. -/
theorem membersToJson_eq (depth : Nat) (sofar : Dict Json)
    (members : List (Except Fault String × Reading)) :
    membersToJson depth sofar.entries members =
      (foldMembers (takeEntry (Reading.toJson depth)) sofar members).map Dict.entries := by
  induction members generalizing sofar with
  | nil => rfl
  | cons member members ih =>
    obtain ⟨key, r⟩ := member
    rw [membersToJson, foldMembers]
    cases key with
    | error fault => rfl
    | ok key =>
      cases value : r.toJson depth with
      | error e => simp [takeEntry, value, Decoded.ofFault, bind, Except.bind, Except.map]
      | ok value' =>
        simp only [takeEntry, value, Decoded.ofFault, bind, Except.bind]
        exact ih (sofar.insert key value')

theorem toJson_obj_eq_ok_iff {depth : Nat} {members : List (Except Fault String × Reading)}
    {tail : Tail} {j : Json} : Reading.toJson (depth + 1) (.obj members tail) = .ok j ↔
      ∃ entries, foldMembers (takeEntry (Reading.toJson depth)) ∅ members = .ok entries ∧
        tail.finish = .ok () ∧ j = .obj entries.entries := by
  have fold := membersToJson_eq depth ∅ members
  have steps : Reading.toJson (depth + 1) (.obj members tail) =
      (membersToJson depth (∅ : Dict Json).entries members >>= fun members =>
        tail.finish >>= fun _ => .ok (.obj members)) := by
    rw [Reading.toJson]
    rfl
  rw [steps, fold, bind_eq_ok_iff]
  constructor
  · rintro ⟨values, kept, rest⟩
    obtain ⟨closed, done⟩ := check_eq_ok_iff.mp rest
    obtain ⟨entries, folded, rfl⟩ := map_eq_ok_iff.mp kept
    exact ⟨entries, folded, closed, (Except.ok.inj done).symm⟩
  · rintro ⟨entries, folded, closed, rfl⟩
    exact ⟨entries.entries, by rw [folded]; rfl, check_eq_ok_iff.mpr ⟨closed, rfl⟩⟩

mutual

/-- A reading that shows a value is kept as that value. -/
theorem toJson_of_shownBy (j : Json) {depth : Nat} (kept : Kept depth j) {r : Reading}
    (shown : j.ShownBy r) : r.toJson depth = .ok j := by
  cases j with
  | null =>
    obtain rfl := shown
    rfl
  | bool b =>
    obtain rfl := shown
    rfl
  | num n =>
    obtain rfl := shown
    rfl
  | str s =>
    obtain rfl := shown
    rfl
  | arr values =>
    obtain ⟨items, tail, rfl, closed, shown⟩ := shown
    cases kept with
    | arr kept =>
      have items := itemsToJson_of_shownBy values kept shown
      simp [Reading.toJson, enter, items, closed, bind_eq_ok_iff]
  | obj values =>
    cases kept with
    | @obj depth _ increasing kept =>
      have reads := memberToJson_of_shownBy values kept
      have same : (Dict.mk values increasing).entries.map (fun entry => (entry.1, id entry.2)) =
          values := List.map_id values
      have read : dict any (depth + 1) r = .ok (Dict.mk values increasing) :=
        dict_of_shownBy (fun entry mem r shown => reads entry mem shown) (by rwa [same])
      obtain ⟨members, _, tail, rfl, _⟩ := shown
      obtain ⟨folded, closed⟩ := dict_eq_ok_iff.mp read
      exact toJson_obj_eq_ok_iff.mpr ⟨_, folded, closed, rfl⟩

theorem itemsToJson_of_shownBy (values : List Json) {depth : Nat}
    (kept : ∀ value ∈ values, Kept depth value) {items : List Reading}
    (shown : ItemsShownBy values items) : itemsToJson depth items = .ok values := by
  cases values with
  | nil =>
    obtain rfl := shown
    rfl
  | cons value values =>
    obtain ⟨item, rest, rfl, first, later⟩ := shown
    have first := toJson_of_shownBy value (kept value List.mem_cons_self) first
    have later := itemsToJson_of_shownBy values
      (fun other mem => kept other (List.mem_cons_of_mem _ mem)) later
    simp [itemsToJson, first, later, bind_eq_ok_iff]

theorem memberToJson_of_shownBy (values : List (String × Json)) {depth : Nat}
    (kept : ∀ value ∈ values, Kept depth value.2) :
    ∀ value ∈ values, ∀ {r : Reading}, value.2.ShownBy r → r.toJson depth = .ok value.2 := by
  cases values with
  | nil => simp
  | cons value values =>
    obtain ⟨key, value⟩ := value
    have first : Kept depth value := kept (key, value) List.mem_cons_self
    have later := memberToJson_of_shownBy values
      fun other mem => kept other (List.mem_cons_of_mem _ mem)
    intro member mem r shown
    rcases List.mem_cons.mp mem with rfl | mem
    · exact toJson_of_shownBy value first shown
    · exact later member mem shown

end

theorem itemsToJson_eq_ok_iff {depth : Nat} {items : List Reading} {values : List Json} :
    itemsToJson depth items = .ok values ↔
      List.Forall₂ (fun item value => item.toJson depth = .ok value) items values := by
  induction items generalizing values with
  | nil => simp [itemsToJson, eq_comm]
  | cons item items ih =>
    simp only [itemsToJson, bind_eq_ok_iff, List.forall₂_cons_left_iff, ih, Except.ok.injEq]
    constructor
    · rintro ⟨value, first, rest, later, rfl⟩
      exact ⟨value, rest, first, later, rfl⟩
    · rintro ⟨value, rest, first, later, rfl⟩
      exact ⟨value, first, rest, later, rfl⟩

theorem toJson_arr_eq_ok_iff {depth : Nat} {items : List Reading} {tail : Tail} {j : Json} :
    Reading.toJson (depth + 1) (.arr items tail) = .ok j ↔
      ∃ values, List.Forall₂ (fun item value => item.toJson depth = .ok value) items values ∧
        tail.finish = .ok () ∧ j = .arr values := by
  have steps : Reading.toJson (depth + 1) (.arr items tail) =
      (itemsToJson depth items >>= fun values => tail.finish >>= fun _ => .ok (.arr values)) := by
    rw [Reading.toJson]
    rfl
  rw [steps, bind_eq_ok_iff]
  simp only [itemsToJson_eq_ok_iff, check_eq_ok_iff, Except.ok.injEq, eq_comm (a := j)]

/-- What is kept of a reading is in key order and not too deep. -/
theorem kept_of_toJson {r : Reading} {depth : Nat} {j : Json} (read : r.toJson depth = .ok j) :
    Kept depth j := by
  induction r using Reading.induction generalizing depth j with
  | null =>
    cases read
    exact .null
  | bool b =>
    cases read
    exact .bool b
  | num n =>
    cases n with
    | error fault => cases read
    | ok n =>
      cases read
      exact .num n
  | str s =>
    cases s with
    | error fault => cases read
    | ok s =>
      cases read
      exact .str s
  | arr items tail ih =>
    cases depth with
    | zero => cases read
    | succ depth =>
      obtain ⟨values, each, _, rfl⟩ := toJson_arr_eq_ok_iff.mp read
      refine .arr fun value mem => ?_
      obtain ⟨item, found, read⟩ := exists_of_mem_right each mem
      exact ih item found read
  | obj members tail ih =>
    cases depth with
    | zero => cases read
    | succ depth =>
      obtain ⟨entries, folded, _, rfl⟩ := toJson_obj_eq_ok_iff.mp read
      refine .obj entries.increasing fun entry mem => ?_
      obtain ⟨r, last, read⟩ := (takeEntry_fills entry.1).exists_lastMember rfl folded
        (Dict.mem_entries_iff.mp mem)
      exact ih _ (mem_of_lastMember last) read
  | broken gap => cases read

end Rollout.Json
