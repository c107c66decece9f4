import Rollout.Proofs.Usage

/-!
# The frame of a rollout

The work of both passes is done by calls to machines alone. Leases, the release command and the
state of the release are dealt with around it, in a frame that is the same for both.
-/

namespace Rollout

open Script

inductive Role
  /-- Comes before the leases are acquired. -/
  | opening
  | acquire
  /-- Creates, changes or destroys a machine, or waits for one. -/
  | work
  | release
  /-- Writes the state in which the rollout leaves the release. -/
  | conclusion
  deriving DecidableEq, Repr

def Call.role : Call → Role
  | .setStatus _ .running => .opening
  | .releaseCommand => .opening
  | .acquire .. => .acquire
  | .launch _ => .work
  | .update .. => .work
  | .destroy .. => .work
  | .waitForState .. => .work
  | .waitForHealthchecks .. => .work
  | .release _ => .release
  | .setStatus _ .complete => .conclusion
  | .setStatus _ .failed => .conclusion

namespace Order

abbrev MachineWork (script : Script α) : Prop := script.Uses (·.role = .work)

theorem machineWork_gate (o : Order) (m : Machine) (index : String) :
    MachineWork (o.gate m index) := by
  rw [gate]
  split
  · refine uses_bind (uses_request rfl) fun _ => ?_
    split
    · trivial
    · exact uses_bind (uses_request rfl) fun _ => trivial
  · trivial

theorem machineWork_createIn (o : Order) (group : String) (i total : Nat) :
    MachineWork (o.createIn group i total) := by
  refine uses_bind trivial fun _ => ?_
  split
  · trivial
  · exact uses_bind (uses_request rfl) fun m => machineWork_gate o m _

theorem machineWork_createAll (o : Order) (total i : Nat) (groups : List String) :
    MachineWork (o.createAll total i groups) := by
  induction groups generalizing i with
  | nil => trivial
  | cons group rest ih =>
    exact uses_bind (machineWork_createIn o group i total) fun _ => ih (i + 1)

theorem machineWork_destroyAll (machines : List Machine) : MachineWork (destroyAll machines) := by
  induction machines with
  | nil => trivial
  | cons m rest ih =>
    exact uses_bind trivial fun _ => uses_bind (uses_request rfl) fun _ => ih

theorem machineWork_apply (entry : Entry) (index : String) : MachineWork (apply entry index) := by
  rw [apply]
  split
  · exact uses_bind trivial fun _ => uses_bind (uses_request rfl) fun _ =>
      uses_bind (uses_request rfl) fun _ => trivial
  · exact uses_bind trivial fun _ => uses_bind (uses_request rfl) fun _ => trivial

theorem machineWork_applyAll (o : Order) (total i : Nat) (entries : List Entry) :
    MachineWork (o.applyAll total i entries) := by
  induction entries generalizing i with
  | nil => trivial
  | cons entry rest ih =>
    refine uses_bind (uses_attempt (machineWork_apply entry _)) fun exit => ?_
    split
    · exact uses_bind (machineWork_gate o _ _) fun _ => ih (i + 1)
    · trivial
    · trivial
    · split
      · trivial
      · exact uses_bind trivial fun _ => uses_bind trivial fun _ => ih (i + 1)

theorem machineWork_updateMachines (o : Order) (entries : List Entry) :
    MachineWork (o.updateMachines entries) :=
  uses_bind trivial fun _ => uses_bind (machineWork_applyAll o _ _ entries) fun _ => trivial

theorem machineWork_tellWarnings (m : Machine) (warnings : List BuildWarning) :
    MachineWork (tellWarnings m warnings) := by
  induction warnings with
  | nil => trivial
  | cons w rest ih => exact ih

theorem machineWork_planEntries (o : Order) (machines : List Machine) :
    MachineWork (o.planEntries machines) := by
  induction machines with
  | nil => trivial
  | cons m rest ih =>
    rw [planEntries]
    split
    · trivial
    · exact uses_bind (machineWork_tellWarnings m _) fun _ => uses_bind ih fun _ => trivial

theorem machineWork_tellChanges (diff : GroupDiff) : MachineWork (tellChanges diff) := by
  rw [tellChanges]
  split
  · trivial
  · exact uses_bind trivial fun _ => uses_progressLines _

theorem machineWork_converge (o : Order) : MachineWork o.converge := by
  have entries : MachineWork (do
      let entries ← o.planEntries ((GroupDiff.compute o.deployment.machines
        o.resolver.processNames).remaining o.deployment.machines)
      o.updateMachines entries) :=
    uses_bind (machineWork_planEntries o _) fun _ => machineWork_updateMachines o _
  refine uses_bind (machineWork_tellChanges _) fun _ =>
    uses_bind (machineWork_destroyAll _) fun _ => ?_
  dsimp only
  split
  · exact entries
  · exact uses_bind (machineWork_createAll o _ _ _) fun _ => uses_bind trivial fun _ => entries

/-- Either pass works on machines alone while it holds leases; before it acquires them it runs
the release command at most. -/
theorem pass_eq_withLeases (o : Order) :
    ∃ (opening : Script Unit) (body : Script Unit),
      o.pass = (opening >>= fun _ => o.withLeases body) ∧
      opening.Uses (· = .releaseCommand) ∧ MachineWork body := by
  rw [pass]
  split
  · exact ⟨pure (), _, rfl, trivial, machineWork_updateMachines o _⟩
  · refine ⟨o.runReleaseCommand, _, rfl, ?_, machineWork_converge o⟩
    rw [runReleaseCommand]
    split
    · exact uses_request rfl
    · intro raised
      cases raised <;> trivial

@[reducible] def acquisition (o : Order) : Call := .acquire o.machineIds o.settings.leaseTtl

@[reducible] def handback (o : Order) : Call := .release o.machineIds

/-- What is told once the leases are given back, before the pass ends as its work did. -/
def tellHandback (o : Order) (exit : Exit Unit) : Except Failure o.handback.Answer → Script Unit
  | .ok _ => .note (.log ⟨.debug, "Released leases",
      [("machine_count", .count o.machineIds.length)]⟩) (.done exit)
  | .error failure => .note (.log ⟨.warn, "Failed to release leases",
      [("error", .text failure.message)]⟩) (.done exit)

def giveBack (o : Order) (exit : Exit Unit) : Script Unit :=
  .stopRenewal (carryThrough o.handback >>= o.tellHandback exit)

def heldNote (o : Order) : Note :=
  .log ⟨.info, "Acquired leases", [("machine_count", .count o.machineIds.length),
    ("ttl_secs", .count o.settings.leaseTtl.toSecs)]⟩

theorem withLeases_eq (o : Order) (body : Script Unit) :
    o.withLeases body = (request .leaseAcquisition o.acquisition >>= fun _ =>
      .note o.heldNote
        (.startRenewal o.machineIds o.settings.leaseTtl o.settings.leaseRenewInterval
          (body.attempt >>= o.giveBack))) := by
  refine bind_congr fun _ => congrArg (Script.note _) (congrArg (Script.startRenewal _ _ _)
    (bind_congr fun exit => congrArg Script.stopRenewal (bind_congr fun reply => ?_)))
  cases reply <;> rfl

def announce (o : Order) : Script Unit := do
  let release := o.deployment.launch.release
  log .info "Starting rollout"
    [("app", .text o.deployment.launch.app), ("release_id", .text release.id.text),
      ("release_version", .text release.version.toText), ("strategy", .text o.strategy.word),
      ("restart_only", .flag o.settings.restartOnly),
      ("machine_count", .count o.deployment.machines.length)]
  request .releaseStatus (.setStatus release.id .running)

theorem script_eq (o : Order) :
    o.script = (o.announce >>= fun _ => o.pass.attempt >>= o.conclude) := rfl

theorem announce_uses (o : Order) : o.announce.Uses (·.role = .opening) :=
  uses_bind trivial fun _ => uses_request rfl

theorem conclude_uses (o : Order) (exit : Exit Unit) :
    (o.conclude exit).Uses (·.role = .conclusion) := by
  cases exit with
  | panic text => trivial
  | ok value =>
    refine ⟨rfl, fun reply => ?_⟩
    cases reply <;> trivial
  | error e =>
    refine ⟨rfl, fun reply => ?_⟩
    cases reply <;> trivial

end Order

end Rollout
