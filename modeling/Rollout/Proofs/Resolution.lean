import Rollout.Proofs.Desired
import Rollout.Proofs.Members

/-!
# Chains of resolutions

Groups may be resolved one over the other: each over the configuration that the one before it
came to. The chain fails at the first group that is not declared, or whose template mounts a
volume without a name, whatever it starts from. Otherwise the last writer wins: each part of
the configuration is what the last template says about it that says anything, and the mount and
the group are those of the last group.
-/

namespace Rollout

namespace AppConfig

variable {app : AppConfig} {base : Option Config} {group last : String} {groups : List String}
  {α : Type}

/-- Resolves groups one after the other, each over what the one before it came to. -/
def resolveChain (app : AppConfig) :
    Option Config → List String → Except ResolveError (Option Config)
  | base, [] => .ok base
  | base, group :: rest => do
    let config ← app.resolve group base
    app.resolveChain (some config) rest

/-- The group is declared, and its template mounts no volume without a name. -/
def Offers (app : AppConfig) (group : String) : Prop :=
  ∃ template, app.processes.find? group = some template ∧
    ∀ mount ∈ template.mount, mount.name ≠ ""

/-- Why a group cannot be resolved. -/
inductive Refuses (app : AppConfig) (group : String) : ResolveError → Prop
  | undeclared : app.processes.find? group = none →
    Refuses app group (.unknownProcessGroup group)
  | unnamed {template mount} : app.processes.find? group = some template →
    template.mount = some mount → mount.name = "" →
      Refuses app group (.invalid group ("mount at '" ++ mount.path ++ "' has no volume name"))

theorem desiredMount_eq_error_iff {mount : Option Mount} {e : ResolveError} :
    desiredMount group mount = .error e ↔ ∃ m, mount = some m ∧ m.name = "" ∧
      e = .invalid group ("mount at '" ++ m.path ++ "' has no volume name") := by
  cases mount with
  | none => simp [desiredMount]
  | some m =>
    by_cases unnamed : m.name = ""
    · simp [desiredMount, unnamed, eq_comm (a := e)]
    · simp [desiredMount, unnamed]

/-- A group that is offered can be resolved over everything. -/
theorem exists_resolve_iff (base : Option Config) :
    (∃ config, app.resolve group base = .ok config) ↔ app.Offers group := by
  constructor
  · rintro ⟨config, resolved⟩
    obtain ⟨template, mount, declared, wanted, _⟩ := resolve_eq_ok_iff.mp resolved
    exact ⟨template, declared, (desiredMount_eq_ok_iff.mp wanted).1⟩
  · rintro ⟨template, declared, named⟩
    exact ⟨_, resolve_eq_ok_iff.mpr
      ⟨template, _, declared, desiredMount_eq_ok_iff.mpr ⟨named, rfl⟩, rfl⟩⟩

theorem resolve_eq_error_iff (base : Option Config) {e : ResolveError} :
    app.resolve group base = .error e ↔ app.Refuses group e := by
  rw [resolve]
  cases declared : app.processes.find? group with
  | none =>
    constructor
    · rintro ⟨⟩
      exact .undeclared declared
    · rintro (_ | ⟨found, _, _⟩)
      · rfl
      · simp [declared] at found
  | some template =>
    change merge group template (base.getD {}) = .error e ↔ _
    rw [merge_eq, bind_eq_error_iff, desiredMount_eq_error_iff]
    constructor
    · rintro (⟨mount, mounted, unnamed, rfl⟩ | ⟨_, _, ⟨⟩⟩)
      exact .unnamed declared mounted unnamed
    · rintro (absent | ⟨found, mounted, unnamed⟩)
      · simp [declared] at absent
      · obtain rfl : template = _ := Option.some.inj (declared.symm.trans found)
        exact .inl ⟨_, mounted, unnamed, rfl⟩

/-- A template merged over what it was merged over before changes nothing. -/
theorem merged_merged {template base : Config} {mount mount' : Option Mount} :
    merged group template (merged group template base mount) mount' =
      { merged group template base mount with mount := mount' } := by
  have image : (if template.image = "" then
      if template.image = "" then base.image else template.image else template.image) =
        if template.image = "" then base.image else template.image := by
    split <;> rfl
  have guest : (if template.guest.isSome then template.guest
      else if template.guest.isSome then template.guest else base.guest) =
        if template.guest.isSome then template.guest else base.guest := by
    split <;> rfl
  have metadata : (((base.metadata.insertMany template.metadata.entries).insert processGroupKey
      group).insertMany template.metadata.entries).insert processGroupKey group =
        (base.metadata.insertMany template.metadata.entries).insert processGroupKey group := by
    refine Dict.ext_find? fun key => ?_
    simp only [Dict.find?_insert, Dict.find?_insertMany]
    split
    · rfl
    · cases findEntry key template.metadata.entries.reverse with
      | none => rfl
      | some v => rfl
  rw [merged, merged]
  simp only [image, guest, metadata, Dict.insertMany_insertMany]

/-- A group that is resolved over its own resolution comes to the same. -/
theorem resolve_resolve {config : Config} (resolved : app.resolve group base = .ok config) :
    app.resolve group (some config) = .ok config := by
  obtain ⟨template, mount, declared, wanted, rfl⟩ := resolve_eq_ok_iff.mp resolved
  refine resolve_eq_ok_iff.mpr ⟨template, mount, declared, wanted, ?_⟩
  rw [Option.getD_some, merged_merged]
  rfl

/-- What the last of the groups says whose template says anything. -/
def lastSaid (app : AppConfig) (say : Config → Option α) (groups : List String) : Option α :=
  groups.reverse.findSome? fun group => (app.processes.find? group).bind say

theorem lastSaid_cons (say : Config → Option α) (group : String) (groups : List String) :
    app.lastSaid say (group :: groups) =
      (app.lastSaid say groups).or ((app.processes.find? group).bind say) := by
  rw [lastSaid, List.reverse_cons, List.findSome?_append, List.findSome?_singleton, lastSaid]

/-- A part of a configuration is what the template says about it, or else as it was. -/
def Overrides (say read : Config → Option α) : Prop :=
  ∀ group template base mount,
    read (merged group template base mount) = (say template).or (read base)

def saidImage (template : Config) : Option String :=
  if template.image = "" then none else some template.image

theorem overrides_image : Overrides saidImage fun config => some config.image := by
  intro group template base mount
  rw [saidImage, merged]
  split
  · rfl
  · rfl

theorem overrides_guest : Overrides Config.guest Config.guest := by
  intro group template base mount
  rw [merged]
  cases template.guest with
  | none => rfl
  | some guest => rfl

theorem overrides_metadata {key : String} (other : key ≠ processGroupKey) :
    Overrides (fun config => config.metadata.find? key)
      fun config => config.metadata.find? key := by
  intro group template base mount
  change (merged group template base mount).metadata.find? key =
    (template.metadata.find? key).or (base.metadata.find? key)
  rw [merged, Dict.find?_insert, if_neg other, Dict.find?_insertMany_entries]

theorem overrides_extra (key : String) :
    Overrides (fun config => config.extra.find? key) fun config => config.extra.find? key := by
  intro group template base mount
  change (merged group template base mount).extra.find? key =
    (template.extra.find? key).or (base.extra.find? key)
  rw [merged, Dict.find?_insertMany_entries]

/-- A part that templates override is, after a chain, what the last one says about it. -/
theorem read_of_resolveChain {say read : Config → Option α} (overrides : Overrides say read)
    {config : Config} (resolved : app.resolveChain base groups = .ok (some config)) :
    read config = (app.lastSaid say groups).or (read (base.getD {})) := by
  induction groups generalizing base with
  | nil =>
    cases resolved
    rfl
  | cons group groups ih =>
    obtain ⟨mid, first, rest⟩ := bind_eq_ok_iff.mp resolved
    obtain ⟨template, mount, declared, _, rfl⟩ := resolve_eq_ok_iff.mp first
    rw [ih rest, Option.getD_some, overrides, lastSaid_cons, declared, Option.bind_some,
      Option.or_assoc]

theorem resolveChain_append (base : Option Config) (before later : List String) :
    app.resolveChain base (before ++ later) =
      (app.resolveChain base before >>= fun base => app.resolveChain base later) := by
  induction before generalizing base with
  | nil => rfl
  | cons group before ih =>
    have step : ∀ rest, app.resolveChain base (group :: rest) =
        (app.resolve group base >>= fun config => app.resolveChain (some config) rest) :=
      fun _ => rfl
    rw [List.cons_append, step, step, bind_assoc]
    exact bind_congr fun config => ih (some config)

/-- The last group of a chain is resolved over what the others come to. -/
theorem resolveChain_concat_eq_ok {result : Option Config} :
    app.resolveChain base (groups ++ [last]) = .ok result ↔
      ∃ mid config, app.resolveChain base groups = .ok mid ∧
        app.resolve last mid = .ok config ∧ result = some config := by
  have single : ∀ mid, app.resolveChain mid [last] =
      (app.resolve last mid >>= fun config => .ok (some config)) := fun _ => rfl
  rw [resolveChain_append, bind_eq_ok_iff]
  simp only [single, bind_eq_ok_iff, Except.ok.injEq, exists_and_left, eq_comm (a := result)]

theorem exists_resolveChain_iff (base : Option Config) :
    (∃ result, app.resolveChain base groups = .ok result) ↔
      ∀ group ∈ groups, app.Offers group := by
  induction groups generalizing base with
  | nil => simp [resolveChain]
  | cons group groups ih =>
    rw [List.forall_mem_cons, ← exists_resolve_iff base]
    constructor
    · rintro ⟨result, resolved⟩
      obtain ⟨config, first, rest⟩ := bind_eq_ok_iff.mp resolved
      exact ⟨⟨config, first⟩, (ih (some config)).mp ⟨result, rest⟩⟩
    · rintro ⟨⟨config, first⟩, offered⟩
      obtain ⟨result, rest⟩ := (ih (some config)).mpr offered
      exact ⟨result, bind_eq_ok_iff.mpr ⟨config, first, rest⟩⟩

/-- A chain fails at the first group that cannot be resolved. -/
theorem resolveChain_eq_error_iff (base : Option Config) {e : ResolveError} :
    app.resolveChain base groups = .error e ↔ ∃ before group later,
      groups = before ++ group :: later ∧ (∀ first ∈ before, app.Offers first) ∧
        app.Refuses group e := by
  induction groups generalizing base with
  | nil => simp [resolveChain]
  | cons group groups ih =>
    have step : app.resolveChain base (group :: groups) = .error e ↔
        app.Refuses group e ∨
          ∃ config, app.resolve group base = .ok config ∧
            app.resolveChain (some config) groups = .error e := by
      rw [← resolve_eq_error_iff base]
      exact bind_eq_error_iff
    rw [step]
    constructor
    · rintro (refused | ⟨config, first, rest⟩)
      · exact ⟨[], group, groups, rfl, by simp, refused⟩
      · obtain ⟨before, culprit, later, rfl, offered, refused⟩ := (ih (some config)).mp rest
        refine ⟨group :: before, culprit, later, rfl, ?_, refused⟩
        exact List.forall_mem_cons.mpr ⟨(exists_resolve_iff base).mp ⟨config, first⟩, offered⟩
    · rintro ⟨before, culprit, later, eq, offered, refused⟩
      cases before with
      | nil =>
        obtain ⟨rfl, rfl⟩ := List.cons.inj eq
        exact .inl refused
      | cons first before =>
        obtain ⟨rfl, rfl⟩ := List.cons.inj eq
        obtain ⟨here, offered⟩ := List.forall_mem_cons.mp offered
        obtain ⟨config, resolved⟩ := (exists_resolve_iff base).mpr here
        exact .inr ⟨config, resolved,
          (ih (some config)).mpr ⟨before, culprit, later, rfl, offered, refused⟩⟩

structure Settles (app : AppConfig) (base : Config) (groups : List String) (last : String)
    (config : Config) : Prop where
  /-- The last group is written down. -/
  group : config.metadata.find? processGroupKey = some last
  /-- Every other key of the metadata, and every key of what is carried along, has the value
  that the last template gives it which has the key. -/
  metadata : ∀ key, key ≠ processGroupKey → config.metadata.find? key =
    (app.lastSaid (fun template => template.metadata.find? key) (groups ++ [last])).or
      (base.metadata.find? key)
  extra : ∀ key, config.extra.find? key =
    (app.lastSaid (fun template => template.extra.find? key) (groups ++ [last])).or
      (base.extra.find? key)
  /-- So do image and guest. -/
  image : config.image = (app.lastSaid saidImage (groups ++ [last])).getD base.image
  guest : config.guest = (app.lastSaid Config.guest (groups ++ [last])).or base.guest
  /-- The mount is the last template's, and no volume is taken over from anywhere. -/
  mount : ∃ template, app.processes.find? last = some template ∧
    config.mount = template.mount.map Mount.unbound

theorem settles_of_resolveChain {config : Config}
    (resolved : app.resolveChain base (groups ++ [last]) = .ok (some config)) :
    app.Settles (base.getD {}) groups last config where
  group := by
    obtain ⟨mid, config, _, here, same⟩ := resolveChain_concat_eq_ok.mp resolved
    obtain ⟨template, mount, _, _, rfl⟩ := resolve_eq_ok_iff.mp here
    cases same
    rw [merged, Dict.find?_insert, if_pos rfl]
  metadata _ other := read_of_resolveChain (overrides_metadata other) resolved
  extra key := read_of_resolveChain (overrides_extra key) resolved
  image := by
    have read := read_of_resolveChain overrides_image resolved
    rw [Option.or_some] at read
    exact Option.some.inj read
  guest := read_of_resolveChain overrides_guest resolved
  mount := by
    obtain ⟨mid, config, _, here, same⟩ := resolveChain_concat_eq_ok.mp resolved
    obtain ⟨template, mount, declared, wanted, rfl⟩ := resolve_eq_ok_iff.mp here
    cases same
    exact ⟨template, declared, (desiredMount_eq_ok_iff.mp wanted).2⟩

/-- In a chain of resolutions the last writer wins. -/
structure LastWriterWins (app : AppConfig) (base : Option Config) (groups : List String)
    (last : String) : Prop where
  /-- Whether the chain succeeds does not depend on what it starts from, -/
  succeeds : (∃ config, app.resolveChain base (groups ++ [last]) = .ok (some config)) ↔
    ∀ group ∈ groups ++ [last], app.Offers group
  /-- nor does the error that it fails with, which is that of the first group at fault. -/
  fails : ∀ e, app.resolveChain base (groups ++ [last]) = .error e ↔
    ∃ before group later, groups ++ [last] = before ++ group :: later ∧
      (∀ first ∈ before, app.Offers first) ∧ app.Refuses group e
  /-- There is no third way for it to end. -/
  settles : ∀ result, app.resolveChain base (groups ++ [last]) = .ok result →
    ∃ config, result = some config ∧ app.Settles (base.getD {}) groups last config
  /-- The last group resolved once more changes nothing. -/
  twice : app.resolveChain base (groups ++ [last, last]) =
    app.resolveChain base (groups ++ [last])

theorem resolveChain_twice (base : Option Config) (groups : List String) (last : String) :
    app.resolveChain base (groups ++ [last, last]) = app.resolveChain base (groups ++ [last]) := by
  rw [resolveChain_append, resolveChain_append]
  refine bind_congr fun mid => ?_
  change (app.resolve last mid >>= fun config =>
    app.resolve last (some config) >>= fun config => .ok (some config)) =
      (app.resolve last mid >>= fun config => .ok (some config))
  cases resolved : app.resolve last mid with
  | error e => rfl
  | ok config =>
    change (app.resolve last (some config) >>= fun config => .ok (some config)) = _
    rw [resolve_resolve resolved]

theorem resolveChain_lastWriterWins (app : AppConfig) (base : Option Config)
    (groups : List String) (last : String) : app.LastWriterWins base groups last := by
  have settles : ∀ result, app.resolveChain base (groups ++ [last]) = .ok result →
      ∃ config, result = some config ∧ app.Settles (base.getD {}) groups last config := by
    intro result resolved
    obtain ⟨_, config, _, _, rfl⟩ := resolveChain_concat_eq_ok.mp resolved
    exact ⟨config, rfl, settles_of_resolveChain resolved⟩
  refine ⟨?_, fun e => resolveChain_eq_error_iff base, settles, resolveChain_twice base groups last⟩
  rw [← exists_resolveChain_iff base]
  constructor
  · rintro ⟨config, resolved⟩
    exact ⟨some config, resolved⟩
  · rintro ⟨result, resolved⟩
    obtain ⟨config, rfl, _⟩ := settles result resolved
    exact ⟨config, resolved⟩

end AppConfig

end Rollout
