import Rollout.Proofs.RoundTrip

/-!
# Only words become identifiers

A text is read as an identifier exactly where it is a word of the grammar, and the complaint
about any other text names the first character that is foreign to it. A string in quotes goes
the same way, whatever escapes it is written with. In a record, in a list or deep in an app,
an identifier stands only where the text has a string in its place that is read as it: none is
taken from a default, and none is let through unread.
-/

namespace Rollout

open Json

/-- The characters of identifiers: ASCII letters and digits, the underscore and the hyphen. -/
def IdLetter (c : Char) : Prop :=
  ('a' ≤ c ∧ c ≤ 'z') ∨ ('A' ≤ c ∧ c ≤ 'Z') ∨ ('0' ≤ c ∧ c ≤ '9') ∨ c = '_' ∨ c = '-'

def IdWord (s : String) : Prop := s ≠ "" ∧ ∀ c ∈ s.toList, IdLetter c

/-- The first character of a text that no identifier has. -/
def FirstForeign (s : String) (c : Char) : Prop :=
  ∃ before after, s.toList = before ++ c :: after ∧ (∀ d ∈ before, IdLetter d) ∧ ¬ IdLetter c

theorem isIdChar_iff {c : Char} : isIdChar c = true ↔ IdLetter c := by
  have within (low high : Char) :
      (decide (low.val ≤ c.val) && decide (c.val ≤ high.val)) = true ↔ low ≤ c ∧ c ≤ high := by
    simp only [Bool.and_eq_true, decide_eq_true_eq, Char.le_def]
  have lower : c.isLower = true ↔ 'a' ≤ c ∧ c ≤ 'z' := within 'a' 'z'
  have upper : c.isUpper = true ↔ 'A' ≤ c ∧ c ≤ 'Z' := decide_eq_true_iff
  have digit : c.isDigit = true ↔ '0' ≤ c ∧ c ≤ '9' := within '0' '9'
  have letter : c.isAlpha = true ↔ c.isUpper = true ∨ c.isLower = true := Bool.or_eq_true_iff
  rw [isIdChar, IdLetter, ← lower, ← upper, ← digit]
  simp only [Char.isAlphanum, Bool.or_eq_true, decide_eq_true_eq, letter]
  rw [or_comm (a := c.isUpper = true)]
  simp only [or_assoc]

theorem idGrammar_iff {s : String} : IdGrammar s ↔ IdWord s := by
  simp only [IdGrammar, IdWord, isIdChar_iff]

theorem find?_foreign_eq_some_iff {s : String} {c : Char} :
    s.toList.find? (fun c => !isIdChar c) = some c ↔ FirstForeign s c := by
  simp only [List.find?_eq_some_iff_append, Bool.not_not, isIdChar_iff, Bool.not_eq_true',
    ← Bool.not_eq_true, FirstForeign]
  grind

/-- A text that is no word has a foreign character, unless it is empty. -/
theorem exists_firstForeign {s : String} (nonempty : s ≠ "") (other : ¬ IdWord s) :
    ∃ c, FirstForeign s c := by
  have foreign : ∃ c ∈ s.toList, ¬ IdLetter c := by simpa [IdWord, nonempty] using other
  simp only [← find?_foreign_eq_some_iff, ← Option.isSome_iff_exists, List.find?_isSome]
  simpa [← isIdChar_iff] using foreign

namespace Id

variable {kind : IdKind}

/-- An identifier is read from its own text only. -/
theorem parse_eq_ok_iff {s : String} {id : Id kind} : parse kind s = .ok id ↔ id.text = s := by
  constructor
  · intro parsed
    rw [parse] at parsed
    split at parsed
    · cases parsed
    · split at parsed
      · cases parsed
      · cases parsed
        rfl
  · rintro rfl
    exact id.parse_text

/-- The words, and no other texts, are read. -/
theorem exists_parse_iff {s : String} : (∃ id, parse kind s = .ok id) ↔ IdWord s := by
  constructor
  · rintro ⟨id, parsed⟩
    rw [← parse_eq_ok_iff.mp parsed]
    exact idGrammar_iff.mp id.valid
  · intro word
    exact ⟨⟨s, idGrammar_iff.mpr word⟩, parse_eq_ok_iff.mpr rfl⟩

theorem parse_of_firstForeign {s : String} {c : Char} (foreign : FirstForeign s c) :
    parse kind s = .error (.invalidCharacter kind s c) := by
  have found := find?_foreign_eq_some_iff.mpr foreign
  have nonempty : s ≠ "" := by
    rintro rfl
    cases found
  rw [parse, dif_neg nonempty]
  split
  · rename_i first
    rw [found] at first
    cases first
    rfl
  · rename_i clean
    rw [found] at clean
    cases clean

/-- The complaint about a text that is no word: it is empty, or a character is foreign. -/
theorem parse_eq_error_iff {s : String} {e : IdError} : parse kind s = .error e ↔
    (s = "" ∧ e = .empty kind) ∨ ∃ c, FirstForeign s c ∧ e = .invalidCharacter kind s c := by
  constructor
  · intro refused
    by_cases empty : s = ""
    · subst empty
      cases refused
      exact .inl ⟨rfl, rfl⟩
    · have other : ¬ IdWord s := by
        intro word
        have accepted : ∃ id, parse kind s = .ok id := exists_parse_iff.mpr word
        obtain ⟨id, parsed⟩ := accepted
        rw [refused] at parsed
        cases parsed
      obtain ⟨c, foreign⟩ := exists_firstForeign empty other
      rw [parse_of_firstForeign foreign] at refused
      cases refused
      exact .inr ⟨c, foreign, rfl⟩
  · rintro (⟨rfl, rfl⟩ | ⟨c, foreign, rfl⟩)
    · rfl
    · exact parse_of_firstForeign foreign

/-- A string in a text is decoded as the text in it is read. -/
theorem decoder_str (depth : Nat) (s : String) : Id.decoder kind depth (.str (.ok s)) =
    (parse kind s).mapError fun e => .rejected e.message := by
  rw [decoder, checked]
  simp only [string, Decoded.ofFault, bind, Except.bind]
  cases parse kind s with
  | error e => rfl
  | ok id => rfl

/-- A whole text in quotes is decoded as the text in it is read. -/
theorem decode_of_quotes {text s : String} (quotes : Quotes text s) :
    decode (Id.decoder kind) text = (parse kind s).mapError fun e => .rejected e.message := by
  have steps : decode (Id.decoder kind) text =
      (Id.decoder kind maxDepth (.str (.ok s)) >>= fun id =>
        if false = true then .error (.fault .malformed) else .ok id) := by
    rw [decode, read_eq_str_iff.mpr quotes]
  rw [steps, decoder_str]
  cases parse kind s with
  | error e => rfl
  | ok id => rfl

end Id

/-- A reading that names something: it is a string, and the string is read as the identifier. -/
def Json.Reading.Names {kind : IdKind} (r : Reading) (id : Id kind) : Prop :=
  ∃ s, r = .str (.ok s) ∧ Id.parse kind s = .ok id

/-- What is named is a word. -/
theorem Json.Reading.Names.word {kind : IdKind} {r : Reading} {id : Id kind} (names : r.Names id) :
    IdWord id.text := by
  obtain ⟨s, _, parsed⟩ := names
  rw [Id.parse_eq_ok_iff.mp parsed]
  exact Id.exists_parse_iff.mp ⟨id, parsed⟩

/-- Nothing but a string that is read as the identifier is decoded as it. -/
theorem Id.decoder_eq_ok_iff {kind : IdKind} {depth : Nat} {r : Reading} {id : Id kind} :
    Id.decoder kind depth r = .ok id ↔ r.Names id := by
  constructor
  · intro decoded
    obtain ⟨s, found, _⟩ := bind_eq_ok_iff.mp decoded
    cases r with
    | str text =>
      cases text with
      | error fault => cases found
      | ok text =>
        rw [Id.decoder_str] at decoded
        cases parsed : Id.parse kind text with
        | error e =>
          rw [parsed] at decoded
          cases decoded
        | ok parsedId =>
          rw [parsed] at decoded
          cases decoded
          exact ⟨text, rfl, parsed⟩
    | _ =>
      rw [string] at found
      · exact absurd found mismatch_ne_ok
      · rintro _ ⟨⟩
  · rintro ⟨s, rfl, parsed⟩
    rw [Id.decoder_str, parsed]
    rfl

/-- Every string has a text in quotes. -/
theorem compact_quotes (s : String) : Quotes (compact (.str s)) s := by
  refine ⟨[], s.toList.flatMap escapeChar, [], ?_, ?_, spelled_escape s.toList, ?_⟩
  · rw [toList_compact_str]
    simp
  · exact fun _ mem => absurd mem List.not_mem_nil
  · exact fun _ mem => absurd mem List.not_mem_nil

/-- How a text fares that is to be an identifier, by itself or in quotes. -/
structure Id.Screened (kind : IdKind) (s : String) : Prop where
  accepted : (∃ id, Id.parse kind s = .ok id) ↔ IdWord s
  kept : ∀ id, Id.parse kind s = .ok id → id.text = s
  refused : ∀ e, Id.parse kind s = .error e ↔
    (s = "" ∧ e = .empty kind) ∨ ∃ c, FirstForeign s c ∧ e = .invalidCharacter kind s c
  /-- The text stands in quotes in some text, -/
  quoted : Quotes (compact (.str s)) s
  /-- in each of which it is read, or refused with the same words. -/
  decoded : ∀ text, Quotes text s →
    (decode (Id.decoder kind) text).mapError DecodeError.message =
      (Id.parse kind s).mapError IdError.message

theorem Id.screened (kind : IdKind) (s : String) : Id.Screened kind s where
  accepted := exists_parse_iff
  kept _ parsed := parse_eq_ok_iff.mp parsed
  refused _ := parse_eq_error_iff
  quoted := compact_quotes s
  decoded text quotes := by
    rw [decode_of_quotes quotes]
    cases parse kind s with
    | error e => rfl
    | ok id => rfl

/-- Whatever is there where a part may be left out has the properties of what it is related to. -/
theorem Json.Optionally.forall_toList {α : Type} {R : Reading → α → Prop} {P : α → Prop}
    {part : Option Reading} {value : Option α} (related : Optionally R part value)
    (holds : ∀ r a, R r a → P a) : ∀ a ∈ value.toList, P a := by
  cases related with
  | absent => simp
  | null => simp
  | present there => simpa using holds _ _ there

section

variable {depth : Nat} {r : Reading}

def Mount.NamedBy (r : Reading) (m : Mount) : Prop :=
  Optionally Reading.Names (r.part? "volume" 2) m.volume

def Mount.idTexts (m : Mount) : List String := m.volume.toList.map Id.text

theorem Mount.namedBy_of_decoder {m : Mount} (decoded : decoder (depth + 1) r = .ok m) :
    m.NamedBy r :=
  (volume_of_decoder decoded).imp fun _ _ => Id.decoder_eq_ok_iff.mp

theorem Mount.words_of_namedBy {m : Mount} (named : m.NamedBy r) :
    ∀ text ∈ m.idTexts, IdWord text :=
  List.forall_mem_map.mpr (named.forall_toList fun _ _ => Reading.Names.word)

def Config.NamedBy (r : Reading) (c : Config) : Prop :=
  Optionally Mount.NamedBy (r.member? "mount") c.mount

def Config.idTexts (c : Config) : List String := c.mount.toList.flatMap Mount.idTexts

theorem Config.namedBy_of_decoder {c : Config} (decoded : decoder (depth + 2) r = .ok c) :
    c.NamedBy r :=
  (mount_of_decoder decoded).imp fun _ _ => Mount.namedBy_of_decoder

theorem Config.words_of_namedBy {c : Config} (named : c.NamedBy r) :
    ∀ text ∈ c.idTexts, IdWord text := by
  intro text mem
  obtain ⟨m, mounted, mem⟩ := List.mem_flatMap.mp mem
  exact named.forall_toList (fun _ _ => Mount.words_of_namedBy) m mounted text mem

/-- A machine is named by its first part, and its configuration names what it names. -/
structure Machine.NamedBy (r : Reading) (m : Machine) : Prop where
  id : ∃ part, r.part? "id" 0 = some part ∧ part.Names m.id
  config : ∃ part, r.part? "config" 3 = some part ∧ m.config.NamedBy part

def Machine.idTexts (m : Machine) : List String := m.id.text :: m.config.idTexts

theorem Machine.namedBy_of_decoder {m : Machine} (decoded : decoder (depth + 3) r = .ok m) :
    m.NamedBy r := by
  obtain ⟨⟨id, hasId, readId⟩, config, hasConfig, readConfig⟩ := parts_of_decoder decoded
  exact ⟨⟨id, hasId, Id.decoder_eq_ok_iff.mp readId⟩, config, hasConfig,
    Config.namedBy_of_decoder readConfig⟩

theorem Machine.words_of_namedBy {m : Machine} (named : m.NamedBy r) :
    ∀ text ∈ m.idTexts, IdWord text := by
  obtain ⟨⟨_, _, id⟩, _, _, config⟩ := named
  exact List.forall_mem_cons.mpr ⟨id.word, Config.words_of_namedBy config⟩

structure Volume.NamedBy (r : Reading) (v : Volume) : Prop where
  id : ∃ part, r.part? "id" 0 = some part ∧ part.Names v.id
  attachedTo : Optionally Reading.Names (r.part? "attached_machine_id" 2) v.attachedTo

def Volume.idTexts (v : Volume) : List String := v.id.text :: v.attachedTo.toList.map Id.text

theorem Volume.namedBy_of_decoder {v : Volume} (decoded : decoder (depth + 1) r = .ok v) :
    v.NamedBy r := by
  obtain ⟨⟨id, hasId, readId⟩, attached⟩ := ids_of_decoder decoded
  exact ⟨⟨id, hasId, Id.decoder_eq_ok_iff.mp readId⟩,
    attached.imp fun _ _ => Id.decoder_eq_ok_iff.mp⟩

theorem Volume.words_of_namedBy {v : Volume} (named : v.NamedBy r) :
    ∀ text ∈ v.idTexts, IdWord text := by
  obtain ⟨⟨_, _, id⟩, attached⟩ := named
  exact List.forall_mem_cons.mpr
    ⟨id.word, List.forall_mem_map.mpr (attached.forall_toList fun _ _ => Reading.Names.word)⟩

def AppConfig.NamedBy (r : Reading) (app : AppConfig) : Prop :=
  ∃ part, r.part? "processes" 1 = some part ∧
    ∀ group, Option.Rel Config.NamedBy (part.member? group) (app.processes.find? group)

def AppConfig.idTexts (app : AppConfig) : List String :=
  app.processes.entries.flatMap fun process => process.2.idTexts

theorem AppConfig.namedBy_of_decoder {app : AppConfig}
    (decoded : decoder (depth + 4) r = .ok app) : app.NamedBy r := by
  obtain ⟨part, found, processes⟩ := processes_of_decoder decoded
  exact ⟨part, found, fun group =>
    optionRel_imp (fun _ _ _ => Config.namedBy_of_decoder) (find?_of_dict processes group)⟩

theorem AppConfig.words_of_namedBy {app : AppConfig} (named : app.NamedBy r) :
    ∀ text ∈ app.idTexts, IdWord text := by
  obtain ⟨part, _, templates⟩ := named
  intro text mem
  obtain ⟨process, declared, mem⟩ := List.mem_flatMap.mp mem
  obtain ⟨_, _, template⟩ :=
    exists_of_optionRel (templates process.1) (Dict.mem_entries_iff.mp declared)
  exact Config.words_of_namedBy template text mem

end

namespace Form

/-- Each identifier of a value is named where the reading has it. -/
def NamedBy : (form : Form) → Reading → form.Value → Prop
  | mount, r, m => m.NamedBy r
  | config, r, c => c.NamedBy r
  | machine, r, m => m.NamedBy r
  | volume, r, v => v.NamedBy r
  | app, r, a => a.NamedBy r
  | id _, r, i => r.Names i
  | guest, _, _ => True
  | version, _, _ => True

def idTexts : (form : Form) → form.Value → List String
  | mount, m => m.idTexts
  | config, c => c.idTexts
  | machine, m => m.idTexts
  | volume, v => v.idTexts
  | app, a => a.idTexts
  | id _, i => [i.text]
  | guest, _ => []
  | version, _ => []

/-- A value that a reading has may come in: the reading names its identifiers, each a word. -/
structure Admitted (form : Form) (r : Reading) (v : form.Value) : Prop where
  named : form.NamedBy r v
  words : ∀ text ∈ form.idTexts v, IdWord text

theorem admitted_of_decoder (form : Form) {depth : Nat} {r : Reading} {v : form.Value}
    (decoded : form.decoder (depth + 4) r = .ok v) : form.Admitted r v := by
  cases form with
  | mount =>
    have named := Mount.namedBy_of_decoder decoded
    exact ⟨named, Mount.words_of_namedBy named⟩
  | config =>
    have named := Config.namedBy_of_decoder decoded
    exact ⟨named, Config.words_of_namedBy named⟩
  | machine =>
    have named := Machine.namedBy_of_decoder decoded
    exact ⟨named, Machine.words_of_namedBy named⟩
  | volume =>
    have named := Volume.namedBy_of_decoder decoded
    exact ⟨named, Volume.words_of_namedBy named⟩
  | app =>
    have named := AppConfig.namedBy_of_decoder decoded
    exact ⟨named, AppConfig.words_of_namedBy named⟩
  | id kind =>
    have named := Id.decoder_eq_ok_iff.mp decoded
    exact ⟨named, List.forall_mem_singleton.mpr named.word⟩
  | guest => exact ⟨trivial, fun _ mem => absurd mem List.not_mem_nil⟩
  | version => exact ⟨trivial, fun _ mem => absurd mem List.not_mem_nil⟩

end Form

/-- No text brings in an identifier that is not a word: identifiers are screened by themselves and
in quotes, and each one in a value or in a list of values has come that way. -/
theorem Id.only_words_enter : (∀ kind s, Id.Screened kind s) ∧
    (∀ (form : Form) (text : String) (v : form.Value), decode form.decoder text = .ok v →
      form.Admitted (read text).root v) ∧
    ∀ (form : Form) (text : String) (vs : List form.Value),
      decode (list form.decoder) text = .ok vs →
        ∃ items tail, (read text).root = .arr items tail ∧
          List.Forall₂ form.Admitted items vs := by
  refine ⟨Id.screened, fun form text v decoded => ?_, fun form text vs decoded => ?_⟩
  · exact form.admitted_of_decoder (decode_eq_ok_iff.mp decoded).1
  · obtain ⟨items, tail, root, each⟩ := exists_of_list (decode_eq_ok_iff.mp decoded).1
    exact ⟨items, tail, root, each.imp fun _ _ => form.admitted_of_decoder⟩

namespace Rehearsal

/-- A list of volumes, one written as an object, with an escape in its name, and one as an array. -/
def listedText : String :=
  "[\x7b\"id\":\"v\\u005f1\",\"name\":\"\",\"attached_machine_id\":\"m-1\"\x7d,[\"v2\",\"\",null]]"

def listedItems : List Reading :=
  [.obj [(.ok "id", .str (.ok "v_1")), (.ok "name", .str (.ok "")),
      (.ok "attached_machine_id", .str (.ok "m-1"))] .closed,
    .arr [.str (.ok "v2"), .str (.ok ""), .null] .closed]

def listedVolumes : List Volume :=
  [⟨⟨"v_1", idGrammar_of_all (by decide) (by decide)⟩, "",
      some ⟨"m-1", idGrammar_of_all (by decide) (by decide)⟩⟩,
    ⟨⟨"v2", idGrammar_of_all (by decide) (by decide)⟩, "", none⟩]

theorem read_listedText : Json.read listedText = ⟨.arr listedItems .closed, false⟩ := by
  have chars : listedText.toList =
      ['[', '\x7b', '"', 'i', 'd', '"', ':', '"', 'v', '\\', 'u', '0', '0', '5', 'f', '1', '"', ',',
        '"', 'n', 'a', 'm', 'e', '"', ':', '"', '"', ',', '"', 'a', 't', 't', 'a', 'c', 'h', 'e',
        'd', '_', 'm', 'a', 'c', 'h', 'i', 'n', 'e', '_', 'i', 'd', '"', ':', '"', 'm', '-', '1',
        '"', '\x7d', ',', '[', '"', 'v', '2', '"', ',', '"', '"', ',', 'n', 'u', 'l', 'l', ']',
        ']'] := by decide
  have reads : readValue (2 * listedText.toList.length + 2) listedText.toList =
      (.arr listedItems .closed, some []) := by
    rw [chars]
    rfl
  exact read_eq reads

theorem listedVolumes_admitted :
    decode (list Form.volume.decoder) listedText = .ok listedVolumes ∧
      ∃ items tail, (read listedText).root = .arr items tail ∧
        List.Forall₂ Form.volume.Admitted items listedVolumes := by
  have decoded : decode (list Form.volume.decoder) listedText = .ok listedVolumes := by
    rw [decode_eq_ok_iff, read_listedText]
    exact ⟨rfl, rfl⟩
  exact ⟨decoded, Id.only_words_enter.2.2 .volume listedText listedVolumes decoded⟩

end Rehearsal

end Rollout
