import Rollout.Proofs.Desired
import Rollout.Proofs.RoundTrip

/-!
# Members that nobody understands

A rollout sends on configurations that it has read from a machine and from an app, and they have
members that it does not understand. In what is planned for a machine these are exactly the
members that the machine's text has and, where the machine is updated, those of its group's
template over them. Each has the value that it has in its text, on every level.
-/

namespace Rollout

open Json

namespace Json

/-- A reading stands for a value if all of it can be used. Of members with one key the last
counts, on every level. -/
inductive Reading.StandsFor : Reading → Json → Prop
  | null : StandsFor .null .null
  | bool (b : Bool) : StandsFor (.bool b) (.bool b)
  | num (n : Number) : StandsFor (.num (.ok n)) (.num n)
  | str (s : String) : StandsFor (.str (.ok s)) (.str s)
  | arr {items : List Reading} {tail : Tail} {values : List Json} : tail.finish = .ok () →
    List.Forall₂ StandsFor items values → StandsFor (.arr items tail) (.arr values)
  | obj {members : List (Except Fault String × Reading)} {tail : Tail} {entries : Dict Json} :
    tail.finish = .ok () →
    (∀ key, Option.Rel StandsFor (lastMember key members) (entries.find? key)) →
      StandsFor (.obj members tail) (.obj entries.entries)

section

variable {α β : Type} {R S : α → β → Prop}

/-- What is related to a list item by item is determined if each item determines it. -/
theorem eq_of_forall₂ {xs : List α} {ys zs : List β}
    (unique : ∀ x ∈ xs, ∀ y z, R x y → R x z → y = z) (first : List.Forall₂ R xs ys)
    (second : List.Forall₂ R xs zs) : ys = zs := by
  induction first generalizing zs with
  | nil =>
    cases second
    rfl
  | cons head _ ih =>
    cases second with
    | cons other rest =>
      have rest := ih (fun x mem => unique x (List.mem_cons_of_mem _ mem)) rest
      rw [unique _ List.mem_cons_self _ _ head other, rest]

theorem eq_of_optionRel {x : Option α} {y z : Option β}
    (unique : ∀ a ∈ x, ∀ b c, R a b → R a c → b = c) (first : Option.Rel R x y)
    (second : Option.Rel R x z) : y = z := by
  cases first with
  | none =>
    cases second
    rfl
  | some left =>
    cases second with
    | some right => rw [unique _ rfl _ _ left right]

theorem optionRel_or {x x' : Option α} {y y' : Option β} (first : Option.Rel R x y)
    (second : Option.Rel R x' y') : Option.Rel R (x.or x') (y.or y') := by
  cases first with
  | none => exact second
  | some holds => exact .some holds

end

/-- A reading stands for one value at most. -/
theorem Reading.StandsFor.unique {r : Reading} {v w : Json} (first : r.StandsFor v)
    (second : r.StandsFor w) : v = w := by
  induction r using Reading.induction generalizing v w with
  | null =>
    cases first
    cases second
    rfl
  | bool b =>
    cases first
    cases second
    rfl
  | num n =>
    cases first
    cases second
    rfl
  | str s =>
    cases first
    cases second
    rfl
  | arr items tail ih =>
    cases first with
    | arr _ first =>
      cases second with
      | arr _ second =>
        rw [eq_of_forall₂ (fun item mem v w => ih item mem) first second]
  | obj members tail ih =>
    cases first with
    | @obj _ _ entries _ first =>
      cases second with
      | @obj _ _ others _ second =>
        have same : entries = others := Dict.ext_find? fun key =>
          eq_of_optionRel (fun r last v w => ih _ (mem_of_lastMember last)) (first key)
            (second key)
        rw [same]
  | broken gap => cases first

/-- What a reading is kept as is what it stands for. -/
theorem standsFor_of_toJson {r : Reading} {depth : Nat} {j : Json}
    (read : r.toJson depth = .ok j) : r.StandsFor j := by
  induction r using Reading.induction generalizing depth j with
  | null =>
    cases read
    exact .null
  | bool b =>
    cases read
    exact .bool b
  | num n =>
    cases n with
    | error fault => cases read
    | ok n =>
      cases read
      exact .num n
  | str s =>
    cases s with
    | error fault => cases read
    | ok s =>
      cases read
      exact .str s
  | arr items tail ih =>
    cases depth with
    | zero => cases read
    | succ depth =>
      obtain ⟨values, each, closed, rfl⟩ := toJson_arr_eq_ok_iff.mp read
      have each := (List.forall₂_and_left _ _).mpr ⟨ih, each⟩
      exact .arr closed (each.imp fun _ _ both => both.1 both.2)
  | obj members tail ih =>
    cases depth with
    | zero => cases read
    | succ depth =>
      obtain ⟨entries, folded, closed, rfl⟩ := toJson_obj_eq_ok_iff.mp read
      refine .obj closed fun key => ?_
      exact optionRel_imp (fun r last v => ih _ (mem_of_lastMember last))
        ((takeEntry_fills key).rel rfl folded)
  | broken gap => cases read

theorem Kept.mono {depth deeper : Nat} {j : Json} (kept : Kept depth j) (le : depth ≤ deeper) :
    Kept deeper j := by
  induction kept generalizing deeper with
  | null => exact .null
  | bool b => exact .bool b
  | num n => exact .num n
  | str s => exact .str s
  | arr _ ih =>
    obtain ⟨deeper, rfl⟩ := Nat.exists_eq_add_of_lt le
    exact .arr fun item mem => ih item mem (by omega)
  | obj increasing _ ih =>
    obtain ⟨deeper, rfl⟩ := Nat.exists_eq_add_of_lt le
    exact .obj increasing fun member mem => ih member mem (by omega)

end Json

theorem kept_guest (depth : Nat) (g : Guest) : g.toJson.Kept (depth + 1) := by
  have ordered : ["cpu_kind", "cpus", "memory_mb"].Pairwise (· < ·) := by decide
  refine .obj (List.pairwise_map.mp ordered) ?_
  simp [Kept.str, Kept.num, Json.ofNat]

theorem kept_mount (depth : Nat) (m : Mount) : m.toJson.Kept (depth + 1) := by
  have ordered : ["name", "path", "volume"].Pairwise (· < ·) := by decide
  refine .obj (List.pairwise_map.mp (ordered.sublist m.keys_members)) ?_
  refine List.forall_mem_append.mpr ⟨?_, ?_⟩
  · simp [Kept.str]
  · exact forall_optionalMember fun id => .str id.text

theorem kept_metadata (depth : Nat) (metadata : Dict String) :
    metadata.toJson.Kept (depth + 1) := by
  refine .obj (List.pairwise_map.mpr metadata.increasing) fun member mem => ?_
  obtain ⟨entry, _, rfl⟩ := List.mem_map.mp mem
  exact .str entry.2

namespace Config

/-- The members that a written configuration has beside those that are understood are those that
it carries along. -/
theorem find?_members {c : Config} {key : String} (foreign : key ∉ knownKeys) :
    (Dict.ofList (c.knownMembers ++ c.extra.entries)).find? key = c.extra.find? key := by
  have steps : Dict.ofList (c.knownMembers ++ c.extra.entries) =
      (Dict.ofList c.knownMembers).insertMany c.extra.entries := List.foldl_append
  have unknown : (Dict.ofList c.knownMembers).find? key = none := by
    rw [Dict.ofList, Dict.find?_insertMany, Dict.find?_empty, Option.or_none,
      Option.eq_none_iff_forall_ne_some]
    intro value found
    have known := exists_findEntry_iff.mp ⟨value, found⟩
    rw [List.map_reverse, List.mem_reverse] at known
    exact foreign (c.keys_knownMembers.subset known)
  rw [steps, Dict.find?_insertMany_entries, unknown, Option.or_none]

theorem Carries.mono {depth deeper : Nat} {c : Config} (carries : c.Carries depth)
    (le : depth ≤ deeper) : c.Carries deeper :=
  fun entry mem => ⟨(carries entry mem).1, (carries entry mem).2.mono le⟩

theorem kept_knownMembers (depth : Nat) (c : Config) :
    ∀ member ∈ c.knownMembers, member.2.Kept (depth + 1) := by
  rw [knownMembers]
  simp only [List.forall_mem_append]
  refine ⟨⟨⟨?_, ?_⟩, ?_⟩, ?_⟩
  · simp [Kept.str]
  · exact forall_optionalMember (kept_guest depth)
  · exact forall_optionalMember (kept_mount depth)
  · simp [kept_metadata]

/-- A written configuration is in key order and not too deep. -/
theorem kept_toJson {depth : Nat} {c : Config} (carries : c.Carries (depth + 1)) :
    c.toJson.Kept (depth + 2) := by
  have members := perm_members fun entry mem => (carries entry mem).1
  refine .obj (Dict.increasing _) fun member mem => ?_
  rcases List.mem_append.mp (members.mem_iff.mp mem) with known | mem
  · exact kept_knownMembers depth c member known
  · exact (carries member mem).2

/-- The members of a written configuration that nobody understands are those of a source. -/
structure CarriesOver (c : Config) (source : String → Option Reading) : Prop where
  /-- There is one under each key that the source has, and its value is that of the source. -/
  written : ∃ members : Dict Json, c.toJson = .obj members.entries ∧
    ∀ key, key ∉ knownKeys → Option.Rel Reading.StandsFor (source key) (members.find? key)
  /-- The compact text stands for what is written if its numbers are integers. -/
  encoded : (∀ entry ∈ c.extra.entries, entry.2.Integral) →
    ∃ r, read (compact c.toJson) = ⟨r, false⟩ ∧ r.StandsFor c.toJson

theorem carriesOver {depth : Nat} {c : Config} {source : String → Option Reading}
    (carries : c.Carries (depth + 1)) (stands : ∀ key, key ∉ knownKeys →
      Option.Rel Reading.StandsFor (source key) (c.extra.find? key)) : c.CarriesOver source where
  written := by
    refine ⟨Dict.ofList (c.knownMembers ++ c.extra.entries), rfl, fun key foreign => ?_⟩
    rw [find?_members foreign]
    exact stands key foreign
  encoded integral := by
    obtain ⟨r, reads, shown⟩ := compact_spells (integral_config carries integral)
    exact ⟨r, reads, standsFor_of_toJson (toJson_of_shownBy _ (kept_toJson carries) shown)⟩

end Config

/-- A member of the configuration in a machine's text. -/
def machineMember (text key : String) : Option Reading :=
  ((read text).root.part? "config" 3).bind (Reading.member? key)

def templateMember (text group key : String) : Option Reading :=
  (((read text).root.part? "processes" 1).bind (Reading.member? group)).bind (Reading.member? key)

theorem Config.standsFor_of_decoder {depth : Nat} {r : Reading} {c : Config}
    (decoded : decoder (depth + 1) r = .ok c) {key : String} (foreign : key ∉ knownKeys) :
    Option.Rel Reading.StandsFor (r.member? key) (c.extra.find? key) :=
  optionRel_imp (fun _ _ _ => standsFor_of_toJson) (find?_extra_of_decoder decoded foreign)

/-- What a machine carries along comes from its text. -/
theorem Machine.standsFor_of_decode {text : String} {m : Machine}
    (decoded : decode decoder text = .ok m) {key : String} (foreign : key ∉ Config.knownKeys) :
    Option.Rel Reading.StandsFor (machineMember text key) (m.config.extra.find? key) := by
  obtain ⟨_, part, found, read⟩ := parts_of_decoder (decode_eq_ok_iff.mp decoded).1
  rw [machineMember, found]
  exact Config.standsFor_of_decoder read foreign

/-- What a template carries along comes from the app's text. -/
theorem AppConfig.standsFor_of_decode {text : String} {app : AppConfig}
    (decoded : decode decoder text = .ok app) {group key : String} {template : Config}
    (declared : app.processes.find? group = some template) (foreign : key ∉ Config.knownKeys) :
    Option.Rel Reading.StandsFor (templateMember text group key) (template.extra.find? key) := by
  obtain ⟨part, found, processes⟩ := processes_of_decoder (decode_eq_ok_iff.mp decoded).1
  obtain ⟨member, there, read⟩ := exists_of_optionRel (find?_of_dict processes group) declared
  rw [templateMember, found, Option.bind_some, there]
  exact Config.standsFor_of_decoder read foreign

/-- A template over a configuration carries what both can carry. -/
theorem Config.Carries.merge {depth : Nat} {base template merged : Config}
    (layered : merged.extra = base.extra.insertMany template.extra.entries)
    (left : base.Carries depth) (right : template.Carries depth) : merged.Carries depth := by
  rintro ⟨key, value⟩ mem
  rw [layered, Dict.mem_entries_iff, Dict.find?_insertMany_entries, Option.or_eq_some_iff] at mem
  rcases mem with found | ⟨_, found⟩
  · exact right (key, value) (Dict.mem_entries_iff.mpr found)
  · exact left (key, value) (Dict.mem_entries_iff.mpr found)

/-- An update plans the configuration of the machine with the template of its group over it. -/
theorem LaunchBuilder.extra_of_forUpdate {ctx : LaunchContext} {volumes : VolumePool}
    {app : AppConfig} {m : Machine} {built : BuiltPlan}
    (eq : LaunchBuilder.forUpdate ⟨ctx, volumes, app.resolver⟩ m = .ok built) :
    ∃ template, app.processes.find? m.processGroup = some template ∧
      built.plan.input.config.extra = m.config.extra.insertMany template.extra.entries := by
  obtain ⟨config, outcome, derived, _, rfl⟩ := forUpdate_eq_ok_iff.mp eq
  obtain ⟨template, mount, declared, _, rfl⟩ := derive_eq_ok_iff.mp derived
  refine ⟨template, declared, ?_⟩
  rw [planned]
  cases outcome.replace with
  | false => rfl
  | true => rfl

/-- Members that nobody understands reach what is planned: a restart plans those of the machine,
an update those of the machine with those of its group's template over them. -/
theorem LaunchBuilder.foreign_carriedOver (machineText appText : String) (m : Machine)
    (app : AppConfig) (reported : decode Machine.decoder machineText = .ok m)
    (configured : decode AppConfig.decoder appText = .ok app) :
    (∀ b : LaunchBuilder,
      (b.forRestart m).input.config.CarriesOver (machineMember machineText)) ∧
    ∀ (ctx : LaunchContext) (volumes : VolumePool) (built : BuiltPlan),
      LaunchBuilder.forUpdate ⟨ctx, volumes, app.resolver⟩ m = .ok built →
        built.plan.input.config.CarriesOver fun key =>
          (templateMember appText m.processGroup key).or (machineMember machineText key) := by
  have machine := Machine.carries_of_decoder (decode_eq_ok_iff.mp reported).1
  constructor
  · intro b
    exact Config.carriesOver machine fun key foreign =>
      Machine.standsFor_of_decode reported foreign
  · intro ctx volumes built eq
    obtain ⟨template, declared, layered⟩ := extra_of_forUpdate eq
    have templates := AppConfig.carries_of_decoder (decode_eq_ok_iff.mp configured).1
    have carries := templates _ (Dict.mem_entries_iff.mpr declared)
    refine Config.carriesOver (machine.merge layered (carries.mono (by decide))) ?_
    intro key foreign
    rw [layered, Dict.find?_insertMany_entries]
    exact optionRel_or (AppConfig.standsFor_of_decode configured declared foreign)
      (Machine.standsFor_of_decode reported foreign)

namespace Rehearsal

/-- A machine's text. Its configuration has a member that stands twice and one of its own. -/
def reportText : String :=
  "\x7b\"id\":\"m_1\",\"region\":\"ord\",\"config\":\x7b\"a\":1,\"b\":[],\"a\":[2]\x7d\x7d"

def reportedMachine : Machine where
  id := loneMachine.id
  region := "ord"
  config := { extra := Dict.ofList [("a", .arr [.num (.integer 2)]), ("b", .arr [])] }

theorem decode_reportText : decode Machine.decoder reportText = .ok reportedMachine := by
  have chars : reportText.toList =
      ['\x7b', '"', 'i', 'd', '"', ':', '"', 'm', '_', '1', '"', ',', '"', 'r', 'e', 'g', 'i', 'o',
        'n', '"', ':', '"', 'o', 'r', 'd', '"', ',', '"', 'c', 'o', 'n', 'f', 'i', 'g', '"', ':',
        '\x7b', '"', 'a', '"', ':', '1', ',', '"', 'b', '"', ':', '[', ']', ',', '"', 'a', '"', ':',
        '[', '2', ']', '\x7d', '\x7d'] := by decide
  have reads : readValue (2 * reportText.toList.length + 2) reportText.toList =
      (.obj
        [(.ok "id", .str (.ok "m_1")), (.ok "region", .str (.ok "ord")),
          (.ok "config", .obj
            [(.ok "a", .num (.ok (.integer 1))), (.ok "b", .arr [] .closed),
              (.ok "a", .arr [.num (.ok (.integer 2))] .closed)] .closed)] .closed, some []) := by
    rw [chars]
    rfl
  rw [decode_eq_ok_iff, read_eq reads]
  exact ⟨rfl, rfl⟩

/-- An app's text, written as an array. Its template has one of the machine's members. -/
def declaredText : String := "[\"ord\",\x7b\"app\":\x7b\"b\":null\x7d\x7d]"

def declaredApp : AppConfig where
  primaryRegion := "ord"
  processes := Dict.ofList [("app", { extra := Dict.ofList [("b", .null)] })]

theorem decode_declaredText : decode AppConfig.decoder declaredText = .ok declaredApp := by
  have chars : declaredText.toList =
      ['[', '"', 'o', 'r', 'd', '"', ',', '\x7b', '"', 'a', 'p', 'p', '"', ':', '\x7b', '"', 'b',
        '"', ':', 'n', 'u', 'l', 'l', '\x7d', '\x7d', ']'] := by decide
  have reads : readValue (2 * declaredText.toList.length + 2) declaredText.toList =
      (.arr
        [.str (.ok "ord"),
          .obj [(.ok "app", .obj [(.ok "b", .null)] .closed)] .closed] .closed, some []) := by
    rw [chars]
    rfl
  rw [decode_eq_ok_iff, read_eq reads]
  exact ⟨rfl, rfl⟩

theorem reportedMachine_carriedOver :
    decode Machine.decoder reportText = .ok reportedMachine ∧
    decode AppConfig.decoder declaredText = .ok declaredApp ∧
    (∀ entry ∈ reportedMachine.config.extra.entries, entry.2.Integral) ∧
    (∀ b : LaunchBuilder,
      (b.forRestart reportedMachine).input.config.CarriesOver (machineMember reportText)) ∧
    ∃ built, LaunchBuilder.forUpdate ⟨(deployment [] []).launch, {}, declaredApp.resolver⟩
        reportedMachine = .ok built ∧
      built.plan.input.config.CarriesOver fun key =>
        (templateMember declaredText reportedMachine.processGroup key).or
          (machineMember reportText key) := by
  have both := LaunchBuilder.foreign_carriedOver reportText declaredText reportedMachine
    declaredApp decode_reportText decode_declaredText
  have integral : ∀ entry ∈ reportedMachine.config.extra.entries, entry.2.Integral := by
    have entries : reportedMachine.config.extra.entries =
        [("a", .arr [.num (.integer 2)]), ("b", .arr [])] := rfl
    rw [entries, List.forall_mem_cons, List.forall_mem_singleton]
    refine ⟨.arr ?_, .arr (by simp)⟩
    rw [List.forall_mem_singleton]
    exact .num (by decide) (by decide)
  exact ⟨decode_reportText, decode_declaredText, integral, both.1, _, rfl, both.2 _ _ _ rfl⟩

end Rehearsal

end Rollout
