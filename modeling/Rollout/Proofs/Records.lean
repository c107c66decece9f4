import Rollout.Proofs.Kept
import Rollout.Wire.Decode
import Rollout.Wire.Encode

/-!
# Records are read back

Whatever shows the written form of a machine, of a volume or of one of their parts decodes to
it: the parts that are left out have the values that they are taken to have, and what a
configuration carries along unread comes back beside what it understands.
-/

namespace Rollout

open Json

/-- Whatever shows a value decodes to what was written. -/
def Restores {α : Type} (d : Decoder α) (depth : Nat) (written : Json) (a : α) : Prop :=
  ∀ r, written.ShownBy r → d depth r = .ok a

section

variable (depth : Nat)

theorem restores_string (s : String) : Restores string depth (.str s) s := by
  rintro r rfl
  rfl

theorem unsigned_of_lt {bound n : Nat} (small : n < bound) (expected : String) :
    unsigned bound expected depth (.num (.ok (.integer n))) = .ok n := by
  rw [unsigned, if_pos ⟨Int.natCast_nonneg n, Int.ofNat_lt.mpr small⟩]
  rfl

theorem restores_uint32 (n : UInt32) : Restores uint32 depth (Json.ofNat n.toNat) n := by
  rintro r rfl
  rw [uint32, unsigned_of_lt depth n.toNat_lt "u32"]
  exact congrArg Except.ok UInt32.ofNat_toNat

theorem restores_id {kind : IdKind} (id : Id kind) :
    Restores (Id.decoder kind) depth id.toJson id := by
  rintro r rfl
  have parsed := id.parse_text
  simp [Id.decoder, checked, string, Decoded.ofFault, parsed, Except.mapError, bind, Except.bind]

theorem restores_version (v : Version) : Restores Version.decoder depth v.toJson v := by
  intro r shown
  rw [Version.decoder, restores_uint32 depth v.number r shown]
  rfl

theorem MachineState.ofWord_word (s : MachineState) : MachineState.ofWord s.word = s := by
  cases s <;> decide

theorem restores_state (s : MachineState) : Restores MachineState.decoder depth s.toJson s := by
  rintro r rfl
  exact congrArg Except.ok s.ofWord_word

end

theorem restores_some {α : Type} {d : Decoder α} {depth : Nat} {written : Json} {a : α}
    (restores : Restores d depth written a) (present : written ≠ .null) :
    Restores (optional d) depth written (some a) := by
  intro r shown
  have other : r ≠ .null := by
    rintro rfl
    cases written <;> simp_all [ShownBy]
  have read : optional d depth r = (d depth r).map some := by
    cases r <;> first | rfl | exact absurd rfl other
  rw [read, restores r shown]
  rfl

theorem once_eq_ok_iff {α : Type} {name : String} {slot taken : Option α} {d : Decoder α}
    {depth : Nat} {r : Reading} : once name slot d depth r = .ok taken ↔
      slot = none ∧ ∃ value, d depth r = .ok value ∧ taken = some value := by
  cases slot with
  | none => simp [once, map_eq_ok_iff, eq_comm (a := taken)]
  | some old => simp [once]

/-- A member that is met for the first time is taken. -/
theorem Restores.once {α : Type} {d : Decoder α} {depth : Nat} {written : Json} {a : α}
    (restores : Restores d depth written a) (name : String) {r : Reading}
    (shown : written.ShownBy r) : Json.once name none d depth r = .ok (some a) :=
  once_eq_ok_iff.mpr ⟨rfl, a, restores r shown, rfl⟩

theorem Guest.step_commutes (depth : Nat) : Commutes (Guest.step depth) := by
  intro s next t a b ra rb apart first second
  simp only [Guest.step] at first second ⊢
  split_ifs at first second ⊢ <;>
    simp only [bind_eq_ok_iff, once_eq_ok_iff] at first second ⊢ <;>
    grind

theorem restores_guest (depth : Nat) (g : Guest) :
    Restores Guest.decoder (depth + 1) g.toJson g := by
  intro r shown
  have canonical : ∀ ordered, MembersShownBy
      [("cpu_kind", .str g.cpuKind), ("cpus", Json.ofNat g.cpus.toNat),
        ("memory_mb", Json.ofNat g.memoryMb.toNat)] ordered →
      foldMembers (Guest.step depth) {} ordered =
        .ok ⟨some g.cpuKind, some g.cpus, some g.memoryMb⟩ := by
    rintro ordered ⟨r₁, _, rfl, kind, r₂, _, rfl, cpus, r₃, _, rfl, memory, rfl⟩
    have kind := (restores_string depth g.cpuKind).once "cpu_kind" kind
    have cpus := (restores_uint32 depth g.cpus).once "cpus" cpus
    have memory := (restores_uint32 depth g.memoryMb).once "memory_mb" memory
    simp [foldMembers, Decoded.ofFault, Guest.step, kind, cpus, memory, bind, Except.bind]
  obtain ⟨members, tail, rfl, closed, folded⟩ :=
    foldMembers_of_shownBy (Guest.step_commutes depth) (by simp) shown canonical
  simp [Guest.decoder, enter, folded, closed, Guest.finish, required, bind, Except.bind]

theorem Mount.step_commutes (depth : Nat) : Commutes (Mount.step depth) := by
  intro s next t a b ra rb apart first second
  simp only [Mount.step] at first second ⊢
  split_ifs at first second ⊢ <;>
    simp only [bind_eq_ok_iff, once_eq_ok_iff] at first second ⊢ <;>
    grind

/-- A slot that was left empty is taken for one without a value. -/
@[simp] theorem getD_map_some {α : Type} (part : Option α) : (part.map some).getD none = part := by
  cases part with
  | none => rfl
  | some a => rfl

/-- A part that may be left out is put into its slot where it was written. -/
theorem foldMembers_optionalMember {σ α : Type} {step : σ → String → Reading → Decoded σ}
    {key : String} {d : Decoder α} {depth : Nat} {toJson : α → Json} {part : Option α}
    (put : Option (Option α) → σ) (restores : ∀ a, Restores d depth (toJson a) a)
    (present : ∀ a, toJson a ≠ .null)
    (steps : ∀ r taken, once key none (optional d) depth r = .ok taken →
      step (put none) key r = .ok (put taken))
    {members : List (Except Fault String × Reading)}
    (shown : MembersShownBy (optionalMember key (part.map toJson)) members) :
    foldMembers step (put none) members = .ok (put (part.map some)) := by
  cases part with
  | none =>
    obtain rfl := shown
    rfl
  | some a =>
    obtain ⟨r, _, rfl, shown, rfl⟩ := shown
    have taken := (restores_some (restores a) (present a)).once key shown
    exact foldMembers_cons_eq_ok.mpr ⟨key, put (some (some a)), rfl, steps r _ taken, rfl⟩

theorem keys_optionalMember (key : String) (written : Option Json) :
    ((optionalMember key written).map Prod.fst).Sublist [key] := by
  cases written with
  | none => exact List.nil_sublist [key]
  | some value => exact List.Sublist.refl [key]

/-- What holds of a part that may be left out. -/
theorem forall_optionalMember {α : Type} {P : Json → Prop} {key : String} {toJson : α → Json}
    {part : Option α} (holds : ∀ a, P (toJson a)) :
    ∀ member ∈ optionalMember key (part.map toJson), P member.2 := by
  cases part with
  | none => simp [optionalMember]
  | some a => simp [optionalMember, holds]

def Mount.members (m : Mount) : List (String × Json) :=
  [("name", .str m.name), ("path", .str m.path)] ++
    optionalMember "volume" (m.volume.map Id.toJson)

theorem Mount.keys_members (m : Mount) :
    (m.members.map Prod.fst).Sublist ["name", "path", "volume"] := by
  rw [members, List.map_append]
  exact (List.Sublist.refl ["name", "path"]).append (keys_optionalMember "volume" _)

theorem restores_mount (depth : Nat) (m : Mount) :
    Restores Mount.decoder (depth + 1) m.toJson m := by
  intro r shown
  have canonical : ∀ ordered, MembersShownBy m.members ordered →
      foldMembers (Mount.step depth) {} ordered =
        .ok ⟨some m.name, some m.path, m.volume.map some⟩ := by
    intro ordered shown
    obtain ⟨_, rest, rfl, ⟨r₁, _, rfl, name, r₂, _, rfl, path, rfl⟩, volume⟩ :=
      membersShownBy_append shown
    have name := (restores_string depth m.name).once "name" name
    have path := (restores_string depth m.path).once "path" path
    refine foldMembers_append.mpr ⟨⟨some m.name, some m.path, none⟩, ?_, ?_⟩
    · simp [foldMembers, Decoded.ofFault, Mount.step, name, path, bind, Except.bind]
    · let put (slot : Option (Option VolumeId)) : Mount.Draft := ⟨some m.name, some m.path, slot⟩
      refine foldMembers_optionalMember put (restores_id depth) (by simp [Id.toJson]) ?_ volume
      intro r taken first
      simp [Mount.step, first, put, bind, Except.bind]
  have distinct : (m.members.map Prod.fst).Nodup := m.keys_members.nodup (by decide)
  obtain ⟨members, tail, rfl, closed, folded⟩ :=
    foldMembers_of_shownBy (Mount.step_commutes depth) distinct shown canonical
  simp [Mount.decoder, enter, folded, closed, Mount.finish, required, bind, Except.bind]

namespace Config

/-- The keys of the parts that the rollout understands. -/
def knownKeys : List String := ["image", "guest", "mount", "metadata"]

/-- What a configuration carries along unread stands under keys of its own, and does not go
beyond a depth. -/
def Carries (depth : Nat) (c : Config) : Prop :=
  ∀ entry ∈ c.extra.entries, entry.1 ∉ knownKeys ∧ entry.2.Kept depth

theorem keys_knownMembers (c : Config) : (c.knownMembers.map Prod.fst).Sublist knownKeys := by
  rw [knownMembers]
  simp only [List.map_append]
  exact (((List.Sublist.refl ["image"]).append (keys_optionalMember "guest" _)).append
    (keys_optionalMember "mount" _)).append (List.Sublist.refl ["metadata"])

/-- The members of a configuration have different keys if those that are carried along do not
have the keys of those that are understood. -/
theorem members_nodup {c : Config} (foreign : ∀ entry ∈ c.extra.entries, entry.1 ∉ knownKeys) :
    ((c.knownMembers ++ c.extra.entries).map Prod.fst).Nodup := by
  rw [List.map_append, List.nodup_append]
  refine ⟨c.keys_knownMembers.nodup (by decide), c.extra.keys_nodup, ?_⟩
  intro a known b mem same
  obtain ⟨entry, found, rfl⟩ := List.mem_map.mp mem
  exact foreign entry found (same ▸ c.keys_knownMembers.subset known)

/-- The written form has the members that are understood beside those carried along. -/
theorem perm_members {c : Config} (foreign : ∀ entry ∈ c.extra.entries, entry.1 ∉ knownKeys) :
    (Dict.ofList (c.knownMembers ++ c.extra.entries)).entries.Perm
      (c.knownMembers ++ c.extra.entries) :=
  Dict.perm_entries_ofList (members_nodup foreign)

theorem step_commutes (depth : Nat) : Commutes (step depth) := by
  intro s next t a b ra rb apart first second
  simp only [step] at first second ⊢
  split_ifs at first second ⊢ <;>
    simp only [bind_eq_ok_iff, once_eq_ok_iff] at first second ⊢ <;>
    grind [Dict.insert_comm]

theorem step_foreign {depth : Nat} {c : Draft} {key : String} (foreign : key ∉ knownKeys)
    {r : Reading} {value : Json} (read : r.toJson depth = .ok value) :
    step depth c key r = .ok { c with extra := c.extra.insert key value } := by
  simp only [knownKeys, List.mem_cons, List.not_mem_nil, or_false, not_or] at foreign
  obtain ⟨image, guest, mount, metadata⟩ := foreign
  simp [step, image, guest, mount, metadata, any, read, bind, Except.bind]

/-- Members that are not understood are carried along. -/
theorem foldMembers_foreign {depth : Nat} {entries : List (String × Json)}
    (carried : ∀ entry ∈ entries, entry.1 ∉ knownKeys ∧ entry.2.Kept depth)
    {members : List (Except Fault String × Reading)} (shown : MembersShownBy entries members)
    (c : Draft) : foldMembers (step depth) c members =
      .ok { c with extra := c.extra.insertMany entries } := by
  induction entries generalizing members c with
  | nil =>
    obtain rfl := shown
    rfl
  | cons entry entries ih =>
    obtain ⟨key, value⟩ := entry
    obtain ⟨r, rest, rfl, head, later⟩ := shown
    obtain ⟨foreign, kept⟩ := carried (key, value) List.mem_cons_self
    have first := step_foreign (c := c) foreign (toJson_of_shownBy value kept head)
    have rest := ih (fun entry mem => carried entry (List.mem_cons_of_mem _ mem)) later
      { c with extra := c.extra.insert key value }
    exact foldMembers_cons_eq_ok.mpr ⟨key, _, rfl, first, rest⟩

/-- Members that are understood are taken. -/
theorem foldMembers_known (depth : Nat) (c : Config)
    {members : List (Except Fault String × Reading)}
    (shown : MembersShownBy c.knownMembers members) :
    foldMembers (step (depth + 1)) {} members =
      .ok { image := some c.image, guest := c.guest.map some, mount := c.mount.map some,
            metadata := some c.metadata } := by
  rw [knownMembers] at shown
  obtain ⟨_, last, rfl, shown, metadata⟩ := membersShownBy_append shown
  obtain ⟨_, second, rfl, shown, mount⟩ := membersShownBy_append shown
  obtain ⟨_, first, rfl, ⟨r, _, rfl, image, rfl⟩, guest⟩ := membersShownBy_append shown
  obtain ⟨r', _, rfl, metadata, rfl⟩ := metadata
  have image := (restores_string (depth + 1) c.image).once "image" image
  have metadata : once "metadata" none (dict string) (depth + 1) r' = .ok (some c.metadata) :=
    Restores.once (fun r shown => dict_of_shownBy (fun _ _ => restores_string depth _) shown)
      "metadata" metadata
  have guest : foldMembers (step (depth + 1)) { image := some c.image } first =
      .ok { image := some c.image, guest := c.guest.map some } := by
    let put (slot : Option (Option Guest)) : Draft := { image := some c.image, guest := slot }
    refine foldMembers_optionalMember put (restores_guest depth) (by simp [Guest.toJson]) ?_ guest
    intro r taken first
    simp [step, first, put, bind, Except.bind]
  have mount : foldMembers (step (depth + 1)) { image := some c.image, guest := c.guest.map some }
      second = .ok { image := some c.image, guest := c.guest.map some,
                     mount := c.mount.map some } := by
    let put (slot : Option (Option Mount)) : Draft :=
      { image := some c.image, guest := c.guest.map some, mount := slot }
    refine foldMembers_optionalMember put (restores_mount depth) (by simp [Mount.toJson]) ?_ mount
    intro r taken first
    simp [step, first, put, bind, Except.bind]
  refine foldMembers_append.mpr ⟨_, foldMembers_append.mpr ⟨_, foldMembers_append.mpr
    ⟨{ image := some c.image }, ?_, guest⟩, mount⟩, ?_⟩
  · simp [foldMembers, Decoded.ofFault, step, image, bind, Except.bind]
  · simp [foldMembers, Decoded.ofFault, step, metadata, bind, Except.bind]

end Config

/-- A configuration is read back with all that it carries along. -/
theorem restores_config (depth : Nat) {c : Config} (carries : c.Carries (depth + 1)) :
    Restores Config.decoder (depth + 2) c.toJson c := by
  intro r shown
  have foreign : ∀ entry ∈ c.extra.entries, entry.1 ∉ Config.knownKeys :=
    fun entry mem => (carries entry mem).1
  have canonical : ∀ ordered, MembersShownBy (c.knownMembers ++ c.extra.entries) ordered →
      foldMembers (Config.step (depth + 1)) {} ordered =
        .ok { image := some c.image, guest := c.guest.map some, mount := c.mount.map some,
              metadata := some c.metadata, extra := c.extra } := by
    intro ordered shown
    obtain ⟨known, others, rfl, known, others⟩ := membersShownBy_append shown
    have rest := Config.foldMembers_foreign carries others
      { image := some c.image, guest := c.guest.map some, mount := c.mount.map some,
        metadata := some c.metadata }
    have extra : (∅ : Dict Json).insertMany c.extra.entries = c.extra := c.extra.ofList_entries
    rw [extra] at rest
    exact foldMembers_append.mpr ⟨_, Config.foldMembers_known depth c known, rest⟩
  have shown := ShownBy.perm (Config.perm_members foreign) shown
  obtain ⟨members, tail, rfl, closed, folded⟩ := foldMembers_of_shownBy
    (Config.step_commutes (depth + 1)) (Config.members_nodup foreign) shown canonical
  simp [Config.decoder, enter, folded, closed, Config.finish, bind, Except.bind]

theorem Machine.step_commutes (depth : Nat) : Commutes (Machine.step depth) := by
  intro s next t a b ra rb apart first second
  simp only [Machine.step] at first second ⊢
  split_ifs at first second ⊢ <;>
    simp only [bind_eq_ok_iff, once_eq_ok_iff] at first second ⊢ <;>
    grind

theorem restores_machine (depth : Nat) {m : Machine} (carries : m.config.Carries (depth + 1)) :
    Restores Machine.decoder (depth + 3) m.toJson m := by
  intro r shown
  have canonical : ∀ ordered, MembersShownBy
      [("config", m.config.toJson), ("id", m.id.toJson), ("region", .str m.region),
        ("state", m.state.toJson)] ordered →
      foldMembers (Machine.step (depth + 2)) {} ordered =
        .ok ⟨some m.id, some m.region, some m.state, some m.config⟩ := by
    rintro ordered
      ⟨r₁, _, rfl, config, r₂, _, rfl, id, r₃, _, rfl, region, r₄, _, rfl, state, rfl⟩
    have config := (restores_config depth carries).once "config" config
    have id := (restores_id (depth + 2) m.id).once "id" id
    have region := (restores_string (depth + 2) m.region).once "region" region
    have state := (restores_state (depth + 2) m.state).once "state" state
    simp [foldMembers, Decoded.ofFault, Machine.step, config, id, region, state, bind, Except.bind]
  obtain ⟨members, tail, rfl, closed, folded⟩ :=
    foldMembers_of_shownBy (Machine.step_commutes (depth + 2)) (by simp) shown canonical
  simp [Machine.decoder, enter, folded, closed, Machine.finish, required, bind, Except.bind]

theorem Volume.step_commutes (depth : Nat) : Commutes (Volume.step depth) := by
  intro s next t a b ra rb apart first second
  simp only [Volume.step] at first second ⊢
  split_ifs at first second ⊢ <;>
    simp only [bind_eq_ok_iff, once_eq_ok_iff] at first second ⊢ <;>
    grind

def Volume.members (v : Volume) : List (String × Json) :=
  optionalMember "attached_machine_id" (v.attachedTo.map Id.toJson) ++
    [("id", v.id.toJson), ("name", .str v.name)]

theorem Volume.keys_members (v : Volume) :
    (v.members.map Prod.fst).Sublist ["attached_machine_id", "id", "name"] := by
  rw [members, List.map_append]
  exact (keys_optionalMember "attached_machine_id" _).append (List.Sublist.refl ["id", "name"])

theorem restores_volume (depth : Nat) (v : Volume) :
    Restores Volume.decoder (depth + 1) v.toJson v := by
  intro r shown
  have canonical : ∀ ordered, MembersShownBy v.members ordered →
      foldMembers (Volume.step depth) {} ordered =
        .ok ⟨some v.id, some v.name, v.attachedTo.map some⟩ := by
    intro ordered shown
    obtain ⟨first, _, rfl, attached, r₁, _, rfl, id, r₂, _, rfl, name, rfl⟩ :=
      membersShownBy_append shown
    have id := (restores_id depth v.id).once "id" id
    have name := (restores_string depth v.name).once "name" name
    refine foldMembers_append.mpr ⟨⟨none, none, v.attachedTo.map some⟩, ?_, ?_⟩
    · let put (slot : Option (Option MachineId)) : Volume.Draft := ⟨none, none, slot⟩
      refine foldMembers_optionalMember put (restores_id depth) (by simp [Id.toJson]) ?_ attached
      intro r taken first
      simp [Volume.step, first, put, bind, Except.bind]
    · simp [foldMembers, Decoded.ofFault, Volume.step, id, name, bind, Except.bind]
  have distinct : (v.members.map Prod.fst).Nodup := v.keys_members.nodup (by decide)
  obtain ⟨members, tail, rfl, closed, folded⟩ :=
    foldMembers_of_shownBy (Volume.step_commutes depth) distinct shown canonical
  simp [Volume.decoder, enter, folded, closed, Volume.finish, required, bind, Except.bind]

theorem AppConfig.step_commutes (depth : Nat) : Commutes (AppConfig.step depth) := by
  intro s next t a b ra rb apart first second
  simp only [AppConfig.step] at first second ⊢
  split_ifs at first second ⊢ <;>
    simp only [bind_eq_ok_iff, once_eq_ok_iff] at first second ⊢ <;>
    grind

theorem restores_app (depth : Nat) {app : AppConfig}
    (carries : ∀ process ∈ app.processes.entries, process.2.Carries (depth + 1)) :
    Restores AppConfig.decoder (depth + 4) app.toJson app := by
  intro r shown
  have canonical : ∀ ordered, MembersShownBy
      [("primary_region", .str app.primaryRegion),
        ("processes", .obj (app.processes.entries.map fun entry => (entry.1, entry.2.toJson)))]
      ordered →
      foldMembers (AppConfig.step (depth + 3)) {} ordered =
        .ok ⟨some app.primaryRegion, some app.processes⟩ := by
    rintro ordered ⟨r₁, _, rfl, region, r₂, _, rfl, processes, rfl⟩
    have region := (restores_string (depth + 3) app.primaryRegion).once
      "primary_region" region
    have processes : once "processes" none (dict Config.decoder) (depth + 3) r₂ =
        .ok (some app.processes) :=
      Restores.once (fun r shown => dict_of_shownBy (fun entry mem =>
        restores_config depth (carries entry mem)) shown) "processes" processes
    simp [foldMembers, Decoded.ofFault, AppConfig.step, region, processes, bind, Except.bind]
  obtain ⟨members, tail, rfl, closed, folded⟩ :=
    foldMembers_of_shownBy (AppConfig.step_commutes (depth + 3)) (by simp) shown canonical
  simp [AppConfig.decoder, enter, folded, closed, AppConfig.finish, required, bind, Except.bind]

end Rollout
