import Rollout.Proofs.Printing
import Rollout.Proofs.Sources
import Rollout.Rehearsal.Fixtures

/-!
# Reading undoes writing

Whatever a text decodes to is written in a form that decodes to it again, so nothing is lost
between two sides that pass the fleet on. The texts that are read may be of any accepted form;
what they have in common is that they decode, which is what makes the result writable: the
members that a configuration carries along never have the keys of those that it understands.
-/

namespace Rollout

open Json

theorem Machine.carries_of_decoder {depth : Nat} {r : Reading} {m : Machine}
    (decoded : decoder (depth + 2) r = .ok m) : m.config.Carries depth := by
  obtain ⟨_, part, _, read⟩ := parts_of_decoder decoded
  exact Config.carries_of_decoder read

theorem AppConfig.carries_of_decoder {depth : Nat} {r : Reading} {app : AppConfig}
    (decoded : decoder (depth + 3) r = .ok app) :
    ∀ entry ∈ app.processes.entries, entry.2.Carries depth := by
  obtain ⟨part, _, read⟩ := processes_of_decoder decoded
  exact forall_of_dict read fun r c => Config.carries_of_decoder

theorem integral_uint32 (n : UInt32) : (Json.ofNat n.toNat).Integral := by
  have small := n.toNat_lt
  refine .num ?_ ?_
  · omega
  · omega

theorem integral_guest (g : Guest) : g.toJson.Integral := by
  refine .obj ?_
  simp [Integral.str, integral_uint32]

theorem integral_mount (m : Mount) : m.toJson.Integral := by
  refine .obj (List.forall_mem_append.mpr ⟨?_, ?_⟩)
  · simp [Integral.str]
  · exact forall_optionalMember fun id => .str id.text

theorem integral_volume (v : Volume) : v.toJson.Integral := by
  refine .obj (List.forall_mem_append.mpr ⟨?_, ?_⟩)
  · exact forall_optionalMember fun id => .str id.text
  · simp [Integral.str, Id.toJson]

theorem integral_metadata (metadata : Dict String) : metadata.toJson.Integral := by
  refine .obj fun member mem => ?_
  obtain ⟨entry, _, rfl⟩ := List.mem_map.mp mem
  exact .str entry.2

theorem integral_knownMembers (c : Config) : ∀ member ∈ c.knownMembers, member.2.Integral := by
  rw [Config.knownMembers]
  simp only [List.forall_mem_append]
  refine ⟨⟨⟨?_, ?_⟩, ?_⟩, ?_⟩
  · simp [Integral.str]
  · exact forall_optionalMember integral_guest
  · exact forall_optionalMember integral_mount
  · simp [integral_metadata]

theorem integral_config {depth : Nat} {c : Config} (carries : c.Carries depth)
    (integral : ∀ entry ∈ c.extra.entries, entry.2.Integral) : c.toJson.Integral := by
  have members := Config.perm_members fun entry mem => (carries entry mem).1
  refine .obj fun member mem => ?_
  rcases List.mem_append.mp (members.mem_iff.mp mem) with mem | mem
  · exact integral_knownMembers c member mem
  · exact integral member mem

/-- What has a written form of its own. -/
inductive Form
  | guest
  | mount
  | config
  | machine
  | volume
  | app
  | id (kind : IdKind)
  | version
  deriving DecidableEq, Repr

namespace Form

@[reducible] def Value : Form → Type
  | guest => Guest
  | mount => Mount
  | config => Config
  | machine => Machine
  | volume => Volume
  | app => AppConfig
  | id kind => Id kind
  | version => Version

def decoder : (form : Form) → Decoder form.Value
  | guest => Guest.decoder
  | mount => Mount.decoder
  | config => Config.decoder
  | machine => Machine.decoder
  | volume => Volume.decoder
  | app => AppConfig.decoder
  | id kind => Id.decoder kind
  | version => Version.decoder

def written : (form : Form) → form.Value → Json
  | guest, g => g.toJson
  | mount, m => m.toJson
  | config, c => c.toJson
  | machine, m => m.toJson
  | volume, v => v.toJson
  | app, a => a.toJson
  | id _, i => i.toJson
  | version, v => v.toJson

/-- The parts of a value that may be any JSON. -/
def freeParts : (form : Form) → form.Value → List Json
  | config, c => c.extra.entries.map Prod.snd
  | machine, m => m.config.extra.entries.map Prod.snd
  | app, a => a.processes.entries.flatMap fun process => process.2.extra.entries.map Prod.snd
  | guest, _ => []
  | mount, _ => []
  | volume, _ => []
  | id _, _ => []
  | version, _ => []

/-- A value that was decoded is restored by whatever shows its written form. -/
theorem restores (form : Form) {r : Reading} {v : form.Value}
    (decoded : form.decoder maxDepth r = .ok v) :
    Restores form.decoder maxDepth (form.written v) v := by
  cases form with
  | guest => exact restores_guest 126 v
  | mount => exact restores_mount 126 v
  | config => exact restores_config 125 (Config.carries_of_decoder decoded)
  | machine => exact restores_machine 124 (Machine.carries_of_decoder decoded)
  | volume => exact restores_volume 126 v
  | app => exact restores_app 123 (AppConfig.carries_of_decoder decoded)
  | id kind => exact restores_id maxDepth v
  | version => exact restores_version maxDepth v

/-- The written form of a value holds integers if its free parts do. -/
theorem integral_written (form : Form) {r : Reading} {v : form.Value}
    (decoded : form.decoder maxDepth r = .ok v)
    (integral : ∀ part ∈ form.freeParts v, part.Integral) : (form.written v).Integral := by
  cases form with
  | guest => exact integral_guest v
  | mount => exact integral_mount v
  | config =>
    refine integral_config (Config.carries_of_decoder decoded) fun entry mem => ?_
    exact integral entry.2 (List.mem_map_of_mem mem)
  | machine =>
    have config := integral_config (Machine.carries_of_decoder decoded) fun entry mem =>
      integral entry.2 (List.mem_map_of_mem mem)
    refine .obj ?_
    simp [config, Integral.str, Id.toJson, MachineState.toJson]
  | volume => exact integral_volume v
  | app =>
    refine .obj ?_
    have carries := AppConfig.carries_of_decoder decoded
    have processes : (Json.obj (v.processes.entries.map fun entry =>
        (entry.1, entry.2.toJson))).Integral := by
      refine .obj fun member mem => ?_
      obtain ⟨process, declared, rfl⟩ := List.mem_map.mp mem
      refine integral_config (carries process declared) fun entry found => ?_
      exact integral entry.2
        (List.mem_flatMap.mpr ⟨process, declared, List.mem_map_of_mem found⟩)
    simp [processes, Integral.str]
  | id kind => exact .str v.text
  | version => exact integral_uint32 v.number

end Form

structure Form.ReadsBack (form : Form) (v : form.Value) : Prop where
  /-- From its compact text. -/
  compact : decode form.decoder (compact (form.written v)) = .ok v
  /-- From every text that spells its written form, with members in any order. -/
  spelled : ∀ text, Spells text (form.written v) → decode form.decoder text = .ok v
  /-- From the written form itself, where it is passed on as a value. -/
  atHand : decodeValue form.decoder (form.written v) = .ok v
  /-- What is read from the compact text is written as before. -/
  again : (decode form.decoder (Json.compact (form.written v))).map form.written =
    .ok (form.written v)

theorem decode_eq_ok_iff {α : Type} {d : Decoder α} {text : String} {a : α} :
    decode d text = .ok a ↔
      d maxDepth (read text).root = .ok a ∧ (read text).trailing = false := by
  have steps : decode d text = (d maxDepth (read text).root >>= fun a =>
      if (read text).trailing then .error (.fault .malformed) else .ok a) := rfl
  rw [steps, bind_eq_ok_iff]
  cases (read text).trailing with
  | false => simp
  | true => simp

/-- Whatever a text decodes to is written in a form that decodes to it. -/
theorem Form.decode_readsBack (form : Form) (text : String) (v : form.Value)
    (decoded : decode form.decoder text = .ok v)
    (integral : ∀ part ∈ form.freeParts v, part.Integral) : form.ReadsBack v := by
  have read := (decode_eq_ok_iff.mp decoded).1
  have restores := form.restores read
  have spelled : ∀ text, Spells text (form.written v) → decode form.decoder text = .ok v := by
    rintro text ⟨r, reads, shown⟩
    rw [decode_eq_ok_iff, reads]
    exact ⟨restores r shown, rfl⟩
  have compact := spelled _ (compact_spells (form.integral_written read integral))
  refine ⟨compact, spelled, restores _ (shownBy_ofJson _), ?_⟩
  rw [compact]
  rfl

namespace Rehearsal

/-- A configuration as a text may have it: members out of order, one that nobody understands, a
part that is null and an escape. -/
def scatteredText : String :=
  "\x7b\"tags\":[\"\\u0041\",-7],\"guest\":null,\"image\":\"i\"\x7d"

def scatteredReading : Reading :=
  .obj
    [(.ok "tags", .arr [.str (.ok "A"), .num (.ok (.integer (-7)))] .closed),
      (.ok "guest", .null), (.ok "image", .str (.ok "i"))] .closed

def scatteredConfig : Config where
  image := "i"
  extra := Dict.ofList [("tags", .arr [.str "A", .num (.integer (-7))])]

theorem read_scatteredText : Json.read scatteredText = ⟨scatteredReading, false⟩ := by
  have chars : scatteredText.toList =
      ['\x7b', '"', 't', 'a', 'g', 's', '"', ':', '[', '"', '\\', 'u', '0', '0', '4', '1', '"',
        ',', '-', '7', ']', ',', '"', 'g', 'u', 'e', 's', 't', '"', ':', 'n', 'u', 'l', 'l', ',',
        '"', 'i', 'm', 'a', 'g', 'e', '"', ':', '"', 'i', '"', '\x7d'] := by decide
  have reads : readValue (2 * scatteredText.toList.length + 2) scatteredText.toList =
      (scatteredReading, some []) := by
    rw [chars]
    rfl
  exact read_eq reads

/-- A machine as the row of its fields, with the state as the one key of an object. -/
def machineRowText : String :=
  "[\"m\\u005f1\",\"ord\",\x7b\"started\":null\x7d,\x7b\"x\":[true],\"image\":\"i\"\x7d]"

def machineRowReading : Reading :=
  .arr
    [.str (.ok "m_1"), .str (.ok "ord"), .obj [(.ok "started", .null)] .closed,
      .obj [(.ok "x", .arr [.bool true] .closed), (.ok "image", .str (.ok "i"))] .closed] .closed

def machineRow : Machine :=
  { loneMachine with
    config := { image := "i", extra := Dict.ofList [("x", .arr [.bool true])] } }

theorem read_machineRowText : Json.read machineRowText = ⟨machineRowReading, false⟩ := by
  have chars : machineRowText.toList =
      ['[', '"', 'm', '\\', 'u', '0', '0', '5', 'f', '1', '"', ',', '"', 'o', 'r', 'd', '"', ',',
        '\x7b', '"', 's', 't', 'a', 'r', 't', 'e', 'd', '"', ':', 'n', 'u', 'l', 'l', '\x7d', ',',
        '\x7b', '"', 'x', '"', ':', '[', 't', 'r', 'u', 'e', ']', ',', '"', 'i', 'm', 'a', 'g',
        'e', '"', ':', '"', 'i', '"', '\x7d', ']'] := by decide
  have reads : readValue (2 * machineRowText.toList.length + 2) machineRowText.toList =
      (machineRowReading, some []) := by
    rw [chars]
    rfl
  exact read_eq reads

/-- The configuration and the machine come back from their written forms. -/
theorem scatteredTexts_readBack :
    (decode Form.config.decoder scatteredText = .ok scatteredConfig ∧
      (∀ part ∈ Form.config.freeParts scatteredConfig, part.Integral) ∧
      Form.config.ReadsBack scatteredConfig) ∧
    decode Form.machine.decoder machineRowText = .ok machineRow ∧
      (∀ part ∈ Form.machine.freeParts machineRow, part.Integral) ∧
      Form.machine.ReadsBack machineRow := by
  have config : decode Form.config.decoder scatteredText = .ok scatteredConfig := by
    rw [decode_eq_ok_iff, read_scatteredText]
    exact ⟨rfl, rfl⟩
  have machine : decode Form.machine.decoder machineRowText = .ok machineRow := by
    rw [decode_eq_ok_iff, read_machineRowText]
    exact ⟨rfl, rfl⟩
  have configParts : ∀ part ∈ Form.config.freeParts scatteredConfig, part.Integral := by
    have parts : Form.config.freeParts scatteredConfig =
        [.arr [.str "A", .num (.integer (-7))]] := rfl
    rw [parts, List.forall_mem_singleton]
    refine .arr ?_
    rw [List.forall_mem_cons, List.forall_mem_singleton]
    exact ⟨.str "A", .num (by decide) (by decide)⟩
  have machineParts : ∀ part ∈ Form.machine.freeParts machineRow, part.Integral := by
    have parts : Form.machine.freeParts machineRow = [.arr [.bool true]] := rfl
    rw [parts, List.forall_mem_singleton]
    refine .arr ?_
    rw [List.forall_mem_singleton]
    exact .bool true
  exact ⟨⟨config, configParts,
      Form.decode_readsBack .config scatteredText scatteredConfig config configParts⟩,
    machine, machineParts,
    Form.decode_readsBack .machine machineRowText machineRow machine machineParts⟩

end Rehearsal

end Rollout
