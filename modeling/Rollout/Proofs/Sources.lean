import Rollout.Proofs.Records

/-!
# Where what was decoded stands in a text

A record that may be written as an object or as an array has each of its parts in one place of
the reading, and a dictionary has the value of a key in the last member of that key. Whatever
was decoded was decoded from there.
-/

namespace Rollout

open Json

namespace Json

def Reading.member? (key : String) : Reading → Option Reading
  | .obj members _ => lastMember key members
  | _ => none

/-- The part of a record: a member where the record is written as an object, an item where it is
written as an array. -/
def Reading.part? (name : String) (index : Nat) : Reading → Option Reading
  | .obj members _ => lastMember name members
  | .arr items _ => items[index]?
  | _ => none

theorem mismatch_ne_ok {α : Type} {expected : String} {r : Reading} {a : α} :
    mismatch expected r ≠ .ok a := by
  rw [mismatch]
  split
  · rintro ⟨⟩
  · rintro ⟨⟩

theorem required_eq_ok_iff {α : Type} {name : String} {slot : Option α} {a : α} :
    required name slot = .ok a ↔ slot = some a := by
  cases slot with
  | none => simp [required]
  | some b => simp [required]

theorem requiredItem_eq_ok {α : Type} {index : Nat} {expected : String} {d : Decoder α}
    {depth : Nat} {items rest : List Reading} {tail : Tail} {a : α}
    (taken : requiredItem index expected d depth items tail = .ok (a, rest)) :
    ∃ item, items = item :: rest ∧ d depth item = .ok a := by
  obtain ⟨next, found, decoded⟩ := bind_eq_ok_iff.mp taken
  cases items with
  | nil =>
    obtain ⟨_, done⟩ := check_eq_ok_iff.mp found
    obtain rfl := Except.ok.inj done
    cases decoded
  | cons item items =>
    obtain rfl := Except.ok.inj found
    obtain ⟨value, read, done⟩ := bind_eq_ok_iff.mp decoded
    cases done
    exact ⟨item, rfl, read⟩

/-- An item that may be left out is the next one, or there are no more. -/
theorem defaultItem_eq_ok {α : Type} {default : α} {d : Decoder α} {depth : Nat}
    {items rest : List Reading} {tail : Tail} {a : α}
    (taken : defaultItem default d depth items tail = .ok (a, rest)) :
    (items = [] ∧ rest = [] ∧ a = default) ∨
      ∃ item, items = item :: rest ∧ d depth item = .ok a := by
  obtain ⟨next, found, decoded⟩ := bind_eq_ok_iff.mp taken
  cases items with
  | nil =>
    obtain ⟨_, done⟩ := check_eq_ok_iff.mp found
    obtain rfl := Except.ok.inj done
    cases decoded
    exact .inl ⟨rfl, rfl, rfl⟩
  | cons item items =>
    obtain rfl := Except.ok.inj found
    obtain ⟨value, read, done⟩ := bind_eq_ok_iff.mp decoded
    cases done
    exact .inr ⟨item, rfl, read⟩

theorem rest_of_defaultItem {α : Type} {default : α} {d : Decoder α} {depth : Nat}
    {items rest : List Reading} {tail : Tail} {a : α}
    (taken : defaultItem default d depth items tail = .ok (a, rest)) : rest = items.tail := by
  rcases defaultItem_eq_ok taken with ⟨rfl, rfl, _⟩ | ⟨item, rfl, _⟩
  · rfl
  · rfl

/-- Where a part may be left out or null, and has a value that it is related to otherwise. -/
inductive Optionally {α : Type} (R : Reading → α → Prop) : Option Reading → Option α → Prop
  | absent : Optionally R none none
  | null : Optionally R (some .null) none
  | present {r : Reading} {a : α} : R r a → Optionally R (some r) (some a)

theorem Optionally.imp {α : Type} {R S : Reading → α → Prop} {part : Option Reading}
    {value : Option α} (related : Optionally R part value) (weaker : ∀ r a, R r a → S r a) :
    Optionally S part value := by
  cases related with
  | absent => exact .absent
  | null => exact .null
  | present holds => exact .present (weaker _ _ holds)

theorem optionally_of_optional {α : Type} {d : Decoder α} {depth : Nat} {r : Reading}
    {value : Option α} (decoded : optional d depth r = .ok value) :
    Optionally (fun r a => d depth r = .ok a) (some r) value := by
  cases r with
  | null =>
    cases decoded
    exact .null
  | _ =>
    obtain ⟨a, read, rfl⟩ := map_eq_ok_iff.mp decoded
    exact .present read

/-- A member that may be left out, from the slot for it. -/
theorem optionally_of_slot {α : Type} {d : Decoder α} {depth : Nat} {part : Option Reading}
    {slot : Option (Option α)}
    (filled : Option.Rel (fun r value => optional d depth r = .ok value) part slot) :
    Optionally (fun r a => d depth r = .ok a) part (slot.getD none) := by
  cases filled with
  | none => exact .absent
  | some decoded => exact optionally_of_optional decoded

/-- An item that may be left out. -/
theorem optionally_of_defaultItem {α : Type} {d : Decoder α} {depth : Nat}
    {items rest : List Reading} {tail : Tail} {value : Option α}
    (taken : defaultItem none (optional d) depth items tail = .ok (value, rest)) :
    Optionally (fun r a => d depth r = .ok a) items[0]? value := by
  rcases defaultItem_eq_ok taken with ⟨rfl, _, rfl⟩ | ⟨item, rfl, decoded⟩
  · exact .absent
  · exact optionally_of_optional decoded

/-- A member that may occur once fills the slot for it, which no other member touches. -/
theorem fills_of_once {σ α : Type} {step : σ → String → Reading → Decoded σ} {name : String}
    {slot : σ → Option α} {d : Decoder α} {depth : Nat} (put : σ → Option α → σ)
    (takes : ∀ s r, step s name r = once name (slot s) d depth r >>= fun taken => .ok (put s taken))
    (slot_put : ∀ s taken, slot (put s taken) = taken)
    (leaves : ∀ {s key r t}, key ≠ name → step s key r = .ok t → slot t = slot s) :
    Fills step name slot (fun r a => d depth r = .ok a) where
  fills {s r t} taken := by
    rw [takes] at taken
    obtain ⟨value, first, done⟩ := bind_eq_ok_iff.mp taken
    cases done
    obtain ⟨_, a, read, rfl⟩ := once_eq_ok_iff.mp first
    exact ⟨a, slot_put s (some a), read⟩
  leaves := leaves

theorem forall₂_of_decodeItems {α : Type} {d : Reading → Decoded α} {items : List Reading}
    {as : List α} (decoded : decodeItems d items = .ok as) :
    List.Forall₂ (fun item a => d item = .ok a) items as := by
  induction items generalizing as with
  | nil =>
    cases decoded
    exact .nil
  | cons item items ih =>
    obtain ⟨a, read, rest⟩ := bind_eq_ok_iff.mp decoded
    obtain ⟨later, reads, done⟩ := bind_eq_ok_iff.mp rest
    cases done
    exact .cons read (ih reads)

/-- A list is decoded from an array, item by item. -/
theorem exists_of_list {α : Type} {d : Decoder α} {depth : Nat} {r : Reading} {as : List α}
    (decoded : list d (depth + 1) r = .ok as) : ∃ items tail, r = .arr items tail ∧
      List.Forall₂ (fun item a => d depth item = .ok a) items as := by
  cases r with
  | arr items tail =>
    obtain ⟨_, ⟨⟩, decoded⟩ := bind_eq_ok_iff.mp decoded
    obtain ⟨values, each, rest⟩ := bind_eq_ok_iff.mp decoded
    obtain ⟨_, done⟩ := check_eq_ok_iff.mp rest
    cases done
    exact ⟨items, tail, rfl, forall₂_of_decodeItems each⟩
  | _ =>
    rw [list] at decoded
    · exact absurd decoded mismatch_ne_ok
    · rintro _ _ ⟨⟩

/-- A dictionary is decoded from an object. -/
theorem exists_of_dict {α : Type} {d : Decoder α} {depth : Nat} {r : Reading} {entries : Dict α}
    (decoded : dict d (depth + 1) r = .ok entries) : ∃ members tail, r = .obj members tail ∧
      foldMembers (takeEntry (d depth)) ∅ members = .ok entries := by
  cases r with
  | obj members tail => exact ⟨members, tail, rfl, (dict_eq_ok_iff.mp decoded).1⟩
  | _ =>
    rw [dict] at decoded
    · exact absurd decoded mismatch_ne_ok
    · rintro _ _ ⟨⟩

/-- What is found in a dictionary was decoded from the last member of the key. -/
theorem find?_of_dict {α : Type} {d : Decoder α} {depth : Nat} {r : Reading} {entries : Dict α}
    (decoded : dict d (depth + 1) r = .ok entries) (key : String) :
    Option.Rel (fun r a => d depth r = .ok a) (r.member? key) (entries.find? key) := by
  obtain ⟨members, tail, rfl, folded⟩ := exists_of_dict decoded
  exact (takeEntry_fills key).rel rfl folded

/-- The values of a dictionary were decoded. -/
theorem forall_of_dict {α : Type} {d : Decoder α} {P : α → Prop} {depth : Nat} {r : Reading}
    {entries : Dict α} (decoded : dict d (depth + 1) r = .ok entries)
    (holds : ∀ r a, d depth r = .ok a → P a) : ∀ entry ∈ entries.entries, P entry.2 := by
  intro entry mem
  have found := Dict.mem_entries_iff.mp mem
  obtain ⟨r, _, read⟩ := exists_of_optionRel (find?_of_dict decoded entry.1) found
  exact holds r entry.2 read

end Json

namespace Config

/-- A configuration is decoded from an object. -/
theorem exists_of_decoder {depth : Nat} {r : Reading} {c : Config}
    (decoded : decoder (depth + 1) r = .ok c) : ∃ members tail draft, r = .obj members tail ∧
      foldMembers (step depth) {} members = .ok draft ∧ c = finish draft := by
  cases r with
  | obj members tail =>
    obtain ⟨_, ⟨⟩, decoded⟩ := bind_eq_ok_iff.mp decoded
    obtain ⟨draft, folded, rest⟩ := bind_eq_ok_iff.mp decoded
    obtain ⟨_, done⟩ := check_eq_ok_iff.mp rest
    exact ⟨members, tail, draft, rfl, folded, (Except.ok.inj done).symm⟩
  | _ =>
    rw [decoder] at decoded
    · exact absurd decoded mismatch_ne_ok
    · rintro _ _ ⟨⟩

/-- What is carried along changes only with a member that is not understood. -/
theorem extra_of_step {depth : Nat} {c next : Draft} {key : String} {r : Reading}
    (taken : step depth c key r = .ok next) :
    (key ∈ knownKeys ∧ next.extra = c.extra) ∨
      (key ∉ knownKeys ∧ ∃ value, r.toJson depth = .ok value ∧
        next.extra = c.extra.insert key value) := by
  rw [step] at taken
  split_ifs at taken with image guest mount metadata
  · obtain ⟨_, _, done⟩ := bind_eq_ok_iff.mp taken
    cases done
    exact .inl ⟨by simp [knownKeys, image], rfl⟩
  · obtain ⟨_, _, done⟩ := bind_eq_ok_iff.mp taken
    cases done
    exact .inl ⟨by simp [knownKeys, guest], rfl⟩
  · obtain ⟨_, _, done⟩ := bind_eq_ok_iff.mp taken
    cases done
    exact .inl ⟨by simp [knownKeys, mount], rfl⟩
  · obtain ⟨_, _, done⟩ := bind_eq_ok_iff.mp taken
    cases done
    exact .inl ⟨by simp [knownKeys, metadata], rfl⟩
  · obtain ⟨value, read, done⟩ := bind_eq_ok_iff.mp taken
    cases done
    exact .inr ⟨by simp [knownKeys, image, guest, mount, metadata], value, read, rfl⟩

/-- A configuration that was decoded can be written. -/
theorem carries_of_decoder {depth : Nat} {r : Reading} {c : Config}
    (decoded : decoder (depth + 1) r = .ok c) : c.Carries depth := by
  obtain ⟨members, tail, draft, rfl, folded, rfl⟩ := exists_of_decoder decoded
  refine foldMembers_induction
    (P := fun (c : Draft) => ∀ entry ∈ c.extra.entries, entry.1 ∉ knownKeys ∧ entry.2.Kept depth)
    ?_ (fun _ mem => absurd mem List.not_mem_nil) folded
  intro c key r next carried taken
  rcases extra_of_step taken with ⟨_, same⟩ | ⟨foreign, value, read, inserted⟩
  · rwa [same]
  · rw [inserted]
    intro entry mem
    rcases mem_insertEntry mem with rfl | mem
    · exact ⟨foreign, kept_of_toJson read⟩
    · exact carried entry mem

theorem step_fills_extra (depth : Nat) {key : String} (foreign : key ∉ knownKeys) :
    Fills (step depth) key (fun c => c.extra.find? key)
      (fun r value => r.toJson depth = .ok value) where
  fills taken := by
    rcases extra_of_step taken with ⟨known, _⟩ | ⟨_, value, read, inserted⟩
    · exact absurd known foreign
    · exact ⟨value, by simp [inserted, Dict.find?_insert], read⟩
  leaves apart taken := by
    rcases extra_of_step taken with ⟨_, same⟩ | ⟨_, value, _, inserted⟩
    · rw [same]
    · simp [inserted, Dict.find?_insert, Ne.symm apart]

/-- What is carried along under a key was read from the last member of the key. -/
theorem find?_extra_of_decoder {depth : Nat} {r : Reading} {c : Config}
    (decoded : decoder (depth + 1) r = .ok c) {key : String} (foreign : key ∉ knownKeys) :
    Option.Rel (fun r value => r.toJson depth = .ok value) (r.member? key)
      (c.extra.find? key) := by
  obtain ⟨members, tail, draft, rfl, folded, rfl⟩ := exists_of_decoder decoded
  exact (step_fills_extra depth foreign).rel rfl folded

theorem step_fills_mount (depth : Nat) : Fills (step depth) "mount" Draft.mount
    (fun r mount => optional Mount.decoder depth r = .ok mount) := by
  refine fills_of_once (fun c taken => { c with mount := taken }) (fun _ _ => rfl)
    (fun _ _ => rfl) fun apart taken => ?_
  simp only [step, if_neg apart] at taken
  split_ifs at taken <;>
    obtain ⟨_, _, done⟩ := bind_eq_ok_iff.mp taken <;>
    cases done <;> rfl

/-- The mount of a configuration was decoded from the member of that name. -/
theorem mount_of_decoder {depth : Nat} {r : Reading} {c : Config}
    (decoded : decoder (depth + 1) r = .ok c) :
    Optionally (fun r mount => Mount.decoder depth r = .ok mount) (r.member? "mount") c.mount := by
  obtain ⟨members, tail, draft, rfl, folded, rfl⟩ := exists_of_decoder decoded
  exact optionally_of_slot ((step_fills_mount depth).rel rfl folded)

end Config

theorem Mount.step_fills_volume (depth : Nat) : Fills (step depth) "volume" Draft.volume
    (fun r volume => optional (Id.decoder .volume) depth r = .ok volume) := by
  refine fills_of_once (fun m taken => { m with volume := taken }) (fun _ _ => rfl)
    (fun _ _ => rfl) fun apart taken => ?_
  simp only [step, if_neg apart] at taken
  split_ifs at taken <;>
    obtain ⟨_, _, done⟩ := bind_eq_ok_iff.mp taken <;>
    cases done <;> rfl

/-- The volume of a mount was decoded from its part of that name. -/
theorem Mount.volume_of_decoder {depth : Nat} {r : Reading} {m : Mount}
    (decoded : decoder (depth + 1) r = .ok m) :
    Optionally (fun r id => Id.decoder .volume depth r = .ok id) (r.part? "volume" 2)
      m.volume := by
  cases r with
  | obj members tail =>
    obtain ⟨_, ⟨⟩, decoded⟩ := bind_eq_ok_iff.mp decoded
    obtain ⟨draft, folded, rest⟩ := bind_eq_ok_iff.mp decoded
    obtain ⟨_, finished⟩ := check_eq_ok_iff.mp rest
    obtain ⟨path, _, done⟩ := bind_eq_ok_iff.mp finished
    cases done
    exact optionally_of_slot ((step_fills_volume depth).rel rfl folded)
  | arr items tail =>
    obtain ⟨_, ⟨⟩, decoded⟩ := bind_eq_ok_iff.mp decoded
    obtain ⟨⟨name, afterName⟩, first, decoded⟩ := bind_eq_ok_iff.mp decoded
    obtain ⟨⟨path, afterPath⟩, second, decoded⟩ := bind_eq_ok_iff.mp decoded
    obtain ⟨⟨volume, rest⟩, third, decoded⟩ := bind_eq_ok_iff.mp decoded
    obtain ⟨_, done⟩ := check_eq_ok_iff.mp decoded
    cases done
    have left := rest_of_defaultItem first
    obtain ⟨_, rfl, _⟩ := requiredItem_eq_ok second
    have next : items[2]? = afterPath[0]? := by
      rw [← List.getElem?_tail, ← left]
      rfl
    rw [Reading.part?, next]
    exact optionally_of_defaultItem third
  | _ =>
    rw [decoder] at decoded
    · exact absurd decoded mismatch_ne_ok
    · rintro _ _ ⟨⟩
    · rintro _ _ ⟨⟩

theorem Volume.leaves_of_step {depth : Nat} {v next : Draft} {key : String} {r : Reading}
    (taken : step depth v key r = .ok next) : (key ≠ "id" → next.id = v.id) ∧
      (key ≠ "attached_machine_id" → next.attachedTo = v.attachedTo) := by
  simp only [step] at taken
  split_ifs at taken with id name attached <;>
    obtain ⟨_, _, done⟩ := bind_eq_ok_iff.mp taken <;>
    cases done <;> simp [*]

theorem Volume.step_fills_id (depth : Nat) :
    Fills (step depth) "id" Draft.id (fun r id => Id.decoder .volume depth r = .ok id) :=
  fills_of_once (fun v taken => { v with id := taken }) (fun _ _ => rfl) (fun _ _ => rfl)
    fun apart taken => (leaves_of_step taken).1 apart

theorem Volume.step_fills_attachedTo (depth : Nat) :
    Fills (step depth) "attached_machine_id" Draft.attachedTo
      (fun r id => optional (Id.decoder .machine) depth r = .ok id) :=
  fills_of_once (fun v taken => { v with attachedTo := taken }) (fun _ _ => rfl) (fun _ _ => rfl)
    fun apart taken => (leaves_of_step taken).2 apart

/-- The volume's own name and that of the machine that holds it were decoded from their parts. -/
theorem Volume.ids_of_decoder {depth : Nat} {r : Reading} {v : Volume}
    (decoded : decoder (depth + 1) r = .ok v) :
    (∃ part, r.part? "id" 0 = some part ∧ Id.decoder .volume depth part = .ok v.id) ∧
      Optionally (fun r id => Id.decoder .machine depth r = .ok id)
        (r.part? "attached_machine_id" 2) v.attachedTo := by
  cases r with
  | obj members tail =>
    obtain ⟨_, ⟨⟩, decoded⟩ := bind_eq_ok_iff.mp decoded
    obtain ⟨draft, folded, rest⟩ := bind_eq_ok_iff.mp decoded
    obtain ⟨_, finished⟩ := check_eq_ok_iff.mp rest
    obtain ⟨id, found, finished⟩ := bind_eq_ok_iff.mp finished
    obtain ⟨name, _, done⟩ := bind_eq_ok_iff.mp finished
    cases done
    exact ⟨(step_fills_id depth).exists_lastMember rfl folded (required_eq_ok_iff.mp found),
      optionally_of_slot ((step_fills_attachedTo depth).rel rfl folded)⟩
  | arr items tail =>
    obtain ⟨_, ⟨⟩, decoded⟩ := bind_eq_ok_iff.mp decoded
    obtain ⟨⟨id, afterId⟩, first, decoded⟩ := bind_eq_ok_iff.mp decoded
    obtain ⟨⟨name, afterName⟩, second, decoded⟩ := bind_eq_ok_iff.mp decoded
    obtain ⟨⟨attachedTo, rest⟩, third, decoded⟩ := bind_eq_ok_iff.mp decoded
    obtain ⟨_, done⟩ := check_eq_ok_iff.mp decoded
    cases done
    obtain ⟨part, rfl, read⟩ := requiredItem_eq_ok first
    obtain ⟨_, rfl, _⟩ := requiredItem_eq_ok second
    exact ⟨⟨part, rfl, read⟩, optionally_of_defaultItem third⟩
  | _ =>
    rw [decoder] at decoded
    · exact absurd decoded mismatch_ne_ok
    · rintro _ _ ⟨⟩
    · rintro _ _ ⟨⟩

theorem Machine.leaves_of_step {depth : Nat} {m next : Draft} {key : String} {r : Reading}
    (taken : step depth m key r = .ok next) :
    (key ≠ "id" → next.id = m.id) ∧ (key ≠ "config" → next.config = m.config) := by
  simp only [step] at taken
  split_ifs at taken with id region state config <;>
    obtain ⟨_, _, done⟩ := bind_eq_ok_iff.mp taken <;>
    cases done <;> simp [*]

theorem Machine.step_fills_id (depth : Nat) :
    Fills (step depth) "id" Draft.id (fun r id => Id.decoder .machine depth r = .ok id) :=
  fills_of_once (fun m taken => { m with id := taken }) (fun _ _ => rfl) (fun _ _ => rfl)
    fun apart taken => (leaves_of_step taken).1 apart

theorem Machine.step_fills_config (depth : Nat) :
    Fills (step depth) "config" Draft.config (fun r a => Config.decoder depth r = .ok a) :=
  fills_of_once (fun m taken => { m with config := taken }) (fun _ _ => rfl) (fun _ _ => rfl)
    fun apart taken => (leaves_of_step taken).2 apart

/-- The name and the configuration of a machine were decoded from their parts. -/
theorem Machine.parts_of_decoder {depth : Nat} {r : Reading} {m : Machine}
    (decoded : decoder (depth + 1) r = .ok m) :
    (∃ part, r.part? "id" 0 = some part ∧ Id.decoder .machine depth part = .ok m.id) ∧
      ∃ part, r.part? "config" 3 = some part ∧ Config.decoder depth part = .ok m.config := by
  cases r with
  | obj members tail =>
    obtain ⟨_, ⟨⟩, decoded⟩ := bind_eq_ok_iff.mp decoded
    obtain ⟨draft, folded, rest⟩ := bind_eq_ok_iff.mp decoded
    obtain ⟨_, finished⟩ := check_eq_ok_iff.mp rest
    obtain ⟨id, named, finished⟩ := bind_eq_ok_iff.mp finished
    obtain ⟨region, _, finished⟩ := bind_eq_ok_iff.mp finished
    obtain ⟨config, found, done⟩ := bind_eq_ok_iff.mp finished
    cases done
    exact ⟨(step_fills_id depth).exists_lastMember rfl folded (required_eq_ok_iff.mp named),
      (step_fills_config depth).exists_lastMember rfl folded (required_eq_ok_iff.mp found)⟩
  | arr items tail =>
    obtain ⟨_, ⟨⟩, decoded⟩ := bind_eq_ok_iff.mp decoded
    obtain ⟨⟨id, afterId⟩, first, decoded⟩ := bind_eq_ok_iff.mp decoded
    obtain ⟨⟨region, afterRegion⟩, second, decoded⟩ := bind_eq_ok_iff.mp decoded
    obtain ⟨⟨state, afterState⟩, third, decoded⟩ := bind_eq_ok_iff.mp decoded
    obtain ⟨⟨config, rest⟩, fourth, decoded⟩ := bind_eq_ok_iff.mp decoded
    obtain ⟨_, done⟩ := check_eq_ok_iff.mp decoded
    cases done
    obtain ⟨named, rfl, readName⟩ := requiredItem_eq_ok first
    obtain ⟨_, rfl, _⟩ := requiredItem_eq_ok second
    have left := rest_of_defaultItem third
    obtain ⟨part, rfl, read⟩ := requiredItem_eq_ok fourth
    have next : afterRegion[1]? = some part := by
      rw [← List.getElem?_tail, ← left]
      rfl
    exact ⟨⟨named, rfl, readName⟩, part, next, read⟩
  | _ =>
    rw [decoder] at decoded
    · exact absurd decoded mismatch_ne_ok
    · rintro _ _ ⟨⟩
    · rintro _ _ ⟨⟩

theorem AppConfig.step_fills_processes (depth : Nat) : Fills (step depth) "processes"
    Draft.processes (fun r a => dict Config.decoder depth r = .ok a) := by
  refine fills_of_once (fun a taken => { a with processes := taken }) (fun _ _ => rfl)
    (fun _ _ => rfl) fun apart taken => ?_
  simp only [step, if_neg apart] at taken
  split_ifs at taken <;>
    obtain ⟨_, _, done⟩ := bind_eq_ok_iff.mp taken <;>
    cases done <;> rfl

/-- The templates of an app were decoded from its part of that name. -/
theorem AppConfig.processes_of_decoder {depth : Nat} {r : Reading} {app : AppConfig}
    (decoded : decoder (depth + 1) r = .ok app) :
    ∃ part, r.part? "processes" 1 = some part ∧
      dict Config.decoder depth part = .ok app.processes := by
  cases r with
  | obj members tail =>
    obtain ⟨_, ⟨⟩, decoded⟩ := bind_eq_ok_iff.mp decoded
    obtain ⟨draft, folded, rest⟩ := bind_eq_ok_iff.mp decoded
    obtain ⟨_, finished⟩ := check_eq_ok_iff.mp rest
    obtain ⟨region, _, finished⟩ := bind_eq_ok_iff.mp finished
    obtain ⟨processes, found, done⟩ := bind_eq_ok_iff.mp finished
    cases done
    exact (step_fills_processes depth).exists_lastMember rfl folded
      (required_eq_ok_iff.mp found)
  | arr items tail =>
    obtain ⟨_, ⟨⟩, decoded⟩ := bind_eq_ok_iff.mp decoded
    obtain ⟨⟨region, rest⟩, first, decoded⟩ := bind_eq_ok_iff.mp decoded
    obtain ⟨⟨processes, rest⟩, second, decoded⟩ := bind_eq_ok_iff.mp decoded
    obtain ⟨_, done⟩ := check_eq_ok_iff.mp decoded
    cases done
    obtain ⟨_, rfl, _⟩ := requiredItem_eq_ok first
    obtain ⟨part, rfl, read⟩ := requiredItem_eq_ok second
    exact ⟨part, rfl, read⟩
  | _ =>
    rw [decoder] at decoded
    · exact absurd decoded mismatch_ne_ok
    · rintro _ _ ⟨⟩
    · rintro _ _ ⟨⟩

end Rollout
