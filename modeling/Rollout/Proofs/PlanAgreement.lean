import Rollout.Proofs.Completion
import Rollout.Proofs.Planning
import Rollout.Proofs.Wrapping
import Rollout.Rehearsal.Fixtures
import Rollout.Rehearsal.Fleet

/-!
# A plan and its execution agree

The plan of a deployment and the deploy pass are two readings of one snapshot. A rolling pass
changes machines by the calls of the plan, in the plan's order, and fails with the plan's error
where there is none.
-/

namespace Rollout

open Script

def MachinePlan.calls (m : Machine) : MachinePlan → List Call
  | .update _ input => [.update m input]
  | .replace _ input => [.destroy m true, .launch input]

namespace Plan

/-- The machines that stay, each with what is to be done with it. -/
def entries (plan : Plan) (machines : List Machine) : List Entry :=
  List.zipWith (fun m update => ⟨m, update.plan⟩) (plan.diff.remaining machines) plan.updates

def openingCalls (plan : Plan) : List Call :=
  plan.diff.machinesToRemove.map (.destroy · true) ++ plan.launches.map (.launch ·.input)

def updateCalls (plan : Plan) (machines : List Machine) : List Call :=
  (plan.entries machines).flatMap fun entry => entry.plan.calls entry.machine

def calls (plan : Plan) (machines : List Machine) : List Call :=
  plan.openingCalls ++ plan.updateCalls machines

end Plan

def warningNotes (id : MachineId) (warnings : List BuildWarning) : List Note :=
  warnings.flatMap fun w =>
    [.log ⟨.warn, w.message, [("machine_id", .text id.text)]⟩, .progress ("WARNING " ++ w.message)]

def Plan.warningNotes (plan : Plan) : List Note :=
  plan.updates.flatMap fun update => Rollout.warningNotes update.plan.machineId update.warnings

namespace Order

def updatingLine (o : Order) : String :=
  "Updating existing machines in '" ++ o.deployment.launch.app ++ "' with " ++
    o.strategy.word ++ " strategy"

theorem waitUntilReady_follows (o : Order) (m : Machine) (index : String) :
    (o.waitUntilReady m index).Follows [] Well := by
  refine (Follows.request _ _).bind (fun _ well => well) fun _ _ => ?_
  split
  · exact .done trivial
  · exact (Follows.request _ _).bind (fun _ well => well) fun _ _ => .note (.done trivial)

theorem gate_follows (o : Order) (m : Machine) (index : String) :
    (o.gate m index).Follows [] Well := by
  rw [gate]
  split
  · exact o.waitUntilReady_follows m index
  · exact .done trivial

theorem createIn_follows (o : Order) {group : String} {launch : PlannedLaunch}
    (planned : Plan.planLaunch o.deployment o.resolver group = .ok launch) (i total : Nat) :
    (o.createIn group i total).Follows [.launch launch.input] Well := by
  have built : o.builder.forLaunch group o.deployment.guest = .ok launch.input :=
    (Plan.planLaunch_eq_ok planned).2
  rw [createIn, built]
  refine .note ?_
  refine (Follows.request _ (.launch launch.input)).bind (fun _ well => well) fun m _ => ?_
  exact .note (.note (o.gate_follows m _))

theorem createIn_fails (o : Order) {group : String} {e : DeployError}
    (refused : Plan.planLaunch o.deployment o.resolver group = .error e) (i total : Nat) :
    (o.createIn group i total).Follows [] (· = .error e) := by
  obtain ⟨cause, unbuilt, rfl⟩ := Plan.planLaunch_eq_error refused
  have unbuilt' : o.builder.forLaunch group o.deployment.guest = .error cause := unbuilt
  rw [createIn, unbuilt']
  exact .note (.done rfl)

theorem createAll_follows (o : Order) {groups : List String} {launches : List PlannedLaunch}
    (planned : groups.mapM (Plan.planLaunch o.deployment o.resolver) = .ok launches)
    (total i : Nat) : (o.createAll total i groups).Follows (launches.map (.launch ·.input)) Well := by
  induction groups generalizing launches i with
  | nil =>
    cases planned
    exact .done trivial
  | cons group groups ih =>
    obtain ⟨launch, rest, first, later, rfl⟩ := mapM_cons_eq_ok.mp planned
    exact (o.createIn_follows first i total).bind (fun _ well => well) fun _ _ => ih later (i + 1)

theorem createAll_fails (o : Order) {groups : List String} {e : DeployError}
    (refused : groups.mapM (Plan.planLaunch o.deployment o.resolver) = .error e) (total i : Nat) :
    ∃ calls, (o.createAll total i groups).Follows calls (· = .error e) := by
  induction groups generalizing i with
  | nil => cases refused
  | cons group groups ih =>
    rcases mapM_cons_eq_error.mp refused with first | ⟨launch, first, later⟩
    · exact ⟨_, (o.createIn_fails first i total).bind_error⟩
    · obtain ⟨calls, follows⟩ := ih later (i + 1)
      exact ⟨_, (o.createIn_follows first i total).bind (fun _ well => well) fun _ _ => follows⟩

theorem destroyAll_follows (machines : List Machine) :
    (destroyAll machines).Follows (machines.map (.destroy · true)) Well := by
  induction machines with
  | nil => exact .done trivial
  | cons m machines ih =>
    exact .note ((Follows.request _ (.destroy m true)).bind (fun _ well => well) fun _ _ => ih)

theorem apply_follows (entry : Entry) (index : String) :
    (apply entry index).Follows (entry.plan.calls entry.machine) Well := by
  rw [apply]
  cases entry.plan with
  | update id input =>
    exact .note ((Follows.request _ (.update entry.machine input)).bind (fun _ well => well)
      fun _ _ => .note (.done trivial))
  | replace id input =>
    exact .note ((Follows.request _ (.destroy entry.machine true)).bind (fun _ well => well)
      fun _ _ => (Follows.request _ (.launch input)).bind (fun _ well => well)
        fun _ _ => .note (.note (.done trivial)))

/-- Under the rolling strategy a failed entry ends the pass, as any other failure does. -/
theorem applyAll_rolling {o : Order} (rolling : o.strategy = .rolling) (total i : Nat)
    (entry : Entry) (rest : List Entry) :
    o.applyAll total i (entry :: rest) = (apply entry (formatIndex i total) >>= fun m =>
      o.gate m (formatIndex i total) >>= fun _ => o.applyAll total (i + 1) rest) := by
  refine attempt_bind _ (fun m => rfl) (fun e => ?_) (fun text => rfl)
  cases e <;> simp [rolling, Strategy.failurePolicy]

theorem applyAll_follows {o : Order} (rolling : o.strategy = .rolling) (total i : Nat)
    (entries : List Entry) : (o.applyAll total i entries).Follows
      (entries.flatMap fun entry => entry.plan.calls entry.machine) Well := by
  induction entries generalizing i with
  | nil => exact .done trivial
  | cons entry rest ih =>
    rw [applyAll_rolling rolling]
    exact (apply_follows entry _).bind (fun _ well => well) fun m _ =>
      (o.gate_follows m _).bind (fun _ well => well) fun _ _ => ih (i + 1)

theorem tellWarnings_eq (m : Machine) (warnings : List BuildWarning) :
    tellWarnings m warnings = narrate (warningNotes m.id warnings) (pure ()) := by
  induction warnings with
  | nil => rfl
  | cons w rest ih =>
    exact congrArg (fun next => Script.note _ (Script.note _ next)) ih

theorem progressLines_eq (lines : List String) :
    progressLines lines = narrate (lines.map .progress) (pure ()) := by
  induction lines with
  | nil => rfl
  | cons line rest ih => exact congrArg (Script.note _) ih

def changeNotes (diff : GroupDiff) : List Note :=
  match diff.summary with
  | none => []
  | some summary =>
    .log ⟨.info, "Process groups have changed",
      [("machines_to_remove", .count diff.machinesToRemove.length),
        ("groups_needing_machines", .count diff.groupsNeedingMachines.length)]⟩ ::
      (Text.lines summary).map .progress

theorem tellChanges_eq (diff : GroupDiff) :
    tellChanges diff = narrate (changeNotes diff) (pure ()) := by
  rw [tellChanges, changeNotes]
  cases diff.summary with
  | none => rfl
  | some summary => exact congrArg (Script.note _) (progressLines_eq _)

/-- To plan an update is to tell its warnings. -/
theorem planEntries_cons (o : Order) {m : Machine} {update : PlannedUpdate}
    (planned : Plan.planUpdate o.deployment o.resolver m = .ok update) (machines : List Machine) :
    o.planEntries (m :: machines) = narrate (warningNotes m.id update.warnings)
      (o.planEntries machines >>= fun entries => pure (⟨m, update.plan⟩ :: entries)) := by
  have built : o.builder.forUpdate m = .ok ⟨update.plan, update.warnings⟩ :=
    (Plan.planUpdate_eq_ok planned).2
  rw [planEntries, built]
  change (tellWarnings m update.warnings >>= _) = _
  rw [tellWarnings_eq]
  exact narrate_bind _ _ _

theorem planEntries_cons_fails (o : Order) {m : Machine} {e : DeployError}
    (refused : Plan.planUpdate o.deployment o.resolver m = .error e) (machines : List Machine) :
    o.planEntries (m :: machines) = fail e := by
  obtain ⟨cause, unbuilt, rfl⟩ := Plan.planUpdate_eq_error refused
  have unbuilt' : o.builder.forUpdate m = .error cause := unbuilt
  rw [planEntries, unbuilt']

theorem planEntries_eq (o : Order) {machines : List Machine} {updates : List PlannedUpdate}
    (planned : machines.mapM (Plan.planUpdate o.deployment o.resolver) = .ok updates) :
    o.planEntries machines = narrate
      (updates.flatMap fun update => warningNotes update.plan.machineId update.warnings)
      (pure (List.zipWith (fun m update => ⟨m, update.plan⟩) machines updates)) := by
  induction machines generalizing updates with
  | nil =>
    cases planned
    rfl
  | cons m machines ih =>
    obtain ⟨update, rest, first, later, rfl⟩ := mapM_cons_eq_ok.mp planned
    have id : update.plan.machineId = m.id := Plan.machineId_of_planUpdate first
    rw [o.planEntries_cons first, ih later, narrate_bind, List.flatMap_cons, id, narrate_narrate]
    rfl

/-- Where an update cannot be planned, the warnings of those before it are told. -/
theorem planEntries_fails (o : Order) {machines : List Machine} {e : DeployError}
    (refused : machines.mapM (Plan.planUpdate o.deployment o.resolver) = .error e) :
    ∃ updates : List PlannedUpdate, o.planEntries machines = narrate
      (updates.flatMap fun update => warningNotes update.plan.machineId update.warnings)
      (fail e) := by
  induction machines with
  | nil => cases refused
  | cons m machines ih =>
    rcases mapM_cons_eq_error.mp refused with first | ⟨update, first, later⟩
    · exact ⟨[], o.planEntries_cons_fails first machines⟩
    · obtain ⟨updates, eq⟩ := ih later
      have id : update.plan.machineId = m.id := Plan.machineId_of_planUpdate first
      refine ⟨update :: updates, ?_⟩
      rw [o.planEntries_cons first, eq, narrate_bind, List.flatMap_cons, id, narrate_narrate]
      rfl

def createNeeded (o : Order) (diff : GroupDiff) : Script Unit :=
  if diff.groupsNeedingMachines.isEmpty then pure ()
  else do
    o.createAll diff.groupsNeedingMachines.length 0 diff.groupsNeedingMachines
    progress "Finished launching new machines"

def prepare (o : Order) (diff : GroupDiff) : Script Unit := do
  tellChanges diff
  destroyAll diff.machinesToRemove
  o.createNeeded diff

theorem converge_eq (o : Order) :
    o.converge = (o.prepare (Plan.diffOf o.deployment o.resolver) >>= fun _ =>
      o.planEntries (Plan.remainingOf o.deployment o.resolver) >>= o.updateMachines) := by
  rw [prepare, createNeeded]
  simp only [bind_assoc]
  refine bind_congr fun _ => bind_congr fun _ => ?_
  change (if (Plan.diffOf o.deployment o.resolver).groupsNeedingMachines.isEmpty then _ else _) = _
  by_cases none : (Plan.diffOf o.deployment o.resolver).groupsNeedingMachines.isEmpty = true
  · rw [if_pos none, if_pos none]
    rfl
  · rw [if_neg none, if_neg none, bind_assoc]
    rfl

section Prepared

variable {o : Order} {diff : GroupDiff} {launches : List PlannedLaunch}

theorem createNeeded_follows (launched : diff.groupsNeedingMachines.mapM
      (Plan.planLaunch o.deployment o.resolver) = .ok launches) :
    (o.createNeeded diff).Follows (launches.map (.launch ·.input)) Well := by
  rw [createNeeded]
  split
  · rename_i none
    rw [List.isEmpty_iff.mp none] at launched
    cases launched
    exact .done trivial
  · have told : (progress "Finished launching new machines").Follows [] Well :=
      .note (.done trivial)
    simpa using (o.createAll_follows launched _ 0).bind (fun _ well => well) fun _ _ => told

theorem createNeeded_fails {e : DeployError} (refused : diff.groupsNeedingMachines.mapM
      (Plan.planLaunch o.deployment o.resolver) = .error e) :
    ∃ calls, (o.createNeeded diff).Follows calls (· = .error e) := by
  rw [createNeeded]
  split
  · rename_i none
    rw [List.isEmpty_iff.mp none] at refused
    cases refused
  · obtain ⟨calls, follows⟩ := o.createAll_fails refused diff.groupsNeedingMachines.length 0
    exact ⟨calls, follows.bind_error⟩

/-- What is told about the groups and the removals come before anything is created. -/
theorem prepare_follows {calls : List Call} {ends : Exit Unit → Prop}
    (follows : (o.createNeeded diff).Follows calls ends) :
    (o.prepare diff).Follows (diff.machinesToRemove.map (.destroy · true) ++ calls) ends := by
  rw [prepare, tellChanges_eq, narrate_bind]
  exact ((destroyAll_follows _).bind (fun _ well => well) fun _ _ => follows).narrate _

end Prepared

def runEntries (o : Order) (entries : List Entry) : Script Unit := do
  o.applyAll entries.length 0 entries
  progress "  Finished deploying"

theorem runEntries_follows {o : Order} (rolling : o.strategy = .rolling) (entries : List Entry) :
    (o.runEntries entries).Follows
      (entries.flatMap fun entry => entry.plan.calls entry.machine) Well := by
  have told : (progress "  Finished deploying").Follows [] Well := .note (.done trivial)
  rw [runEntries]
  simpa using (applyAll_follows rolling _ 0 entries).bind (fun _ well => well) fun _ _ => told

/-- Planning the updates is telling the warnings; then the updates are announced. -/
theorem planEntries_updateMachines {o : Order} {plan : Plan}
    (planned : Plan.deploy o.deployment o.resolver = .ok plan) :
    (o.planEntries (Plan.remainingOf o.deployment o.resolver) >>= o.updateMachines) =
      narrate plan.warningNotes (.note (.progress o.updatingLine)
        (o.runEntries (plan.entries o.deployment.machines))) := by
  obtain ⟨launches, updates, _, updated, rfl⟩ := Plan.deploy_eq_ok_iff.mp planned
  rw [planEntries_eq o updated, narrate_bind]
  rfl

section Planned

variable {o : Order} {plan : Plan}

theorem prepare_follows_openingCalls (planned : Plan.deploy o.deployment o.resolver = .ok plan) :
    (o.prepare (Plan.diffOf o.deployment o.resolver)).Follows plan.openingCalls Well := by
  obtain ⟨launches, updates, launched, _, rfl⟩ := Plan.deploy_eq_ok_iff.mp planned
  exact prepare_follows (createNeeded_follows launched)

theorem converge_follows (rolling : o.strategy = .rolling)
    (planned : Plan.deploy o.deployment o.resolver = .ok plan) :
    o.converge.Follows (plan.calls o.deployment.machines) Well := by
  rw [converge_eq, planEntries_updateMachines planned]
  refine (prepare_follows_openingCalls planned).bind (fun _ well => well) fun _ _ => ?_
  exact .narrate (.note (runEntries_follows rolling _)) _

/-- The events of a pass that goes through: what comes before the updates, the warnings, and
the updates. -/
theorem converge_parts {s later : Stage} {events : List Event} {a : Unit}
    (rolling : o.strategy = .rolling)
    (planned : Plan.deploy o.deployment o.resolver = .ok plan)
    (h : o.converge.Tells s events (.exit (.ok a)) later) : ∃ before after,
    events = before ++ plan.warningNotes.map .note ++ .note (.progress o.updatingLine) :: after ∧
    changes before = plan.openingCalls ∧
    changes after = plan.updateCalls o.deployment.machines := by
  rw [converge_eq, planEntries_updateMachines planned] at h
  rcases h.bind_inv with ⟨_, before, mid, rest, opened, going, rfl⟩ | ⟨r, _, stops⟩
  · obtain ⟨rest, rfl, updating⟩ := going.narrate_inv
    obtain ⟨after, rfl, running⟩ := updating.note_inv
    exact ⟨before, after, by simp, ((prepare_follows_openingCalls planned).whole opened).1,
      ((runEntries_follows rolling _).whole running).1⟩
  · cases stops

theorem converge_fails {e : DeployError}
    (refused : Plan.deploy o.deployment o.resolver = .error e) :
    ∃ calls, o.converge.Follows calls (· = .error e) := by
  rw [converge_eq]
  rcases Plan.deploy_eq_error_iff.mp refused with unlaunched | ⟨launches, launched, unplanned⟩
  · obtain ⟨calls, follows⟩ := createNeeded_fails unlaunched
    exact ⟨_, (prepare_follows follows).bind_error⟩
  · obtain ⟨updates, told⟩ := planEntries_fails o unplanned
    have fails : (o.planEntries (Plan.remainingOf o.deployment o.resolver)).Follows []
        (· = .error e) := by
      have failed : (fail e : Script (List Entry)).Follows [] (· = .error e) := .done rfl
      rw [told]
      exact failed.narrate _
    exact ⟨_, (prepare_follows (createNeeded_follows launched)).bind (fun _ well => well)
      fun _ _ => fails.bind_error⟩

end Planned

/-- A rollout that ends well has called the release complete. -/
theorem passSucceeded_of_ok {o : Order} {s later : Stage} {events : List Event} {a : Unit}
    (h : o.script.Tells s events (.exit (.ok a)) later) : PassSucceeded events := by
  rw [script_eq] at h
  rcases h.bind_inv with ⟨_, before, mid, rest, _, passing, rfl⟩ | ⟨r, _, stops⟩
  · rcases passing.bind_inv with ⟨exit, passed, after, tail, _, concluded, rfl⟩ | ⟨r, _, stops⟩
    · obtain rfl := o.conclude_settles.ok concluded
      have succeeded : PassSucceeded tail := by
        cases concluded with
        | refused may _ => exact absurd (fun interrupted => by cases interrupted.1) may
        | answered => exact ⟨_, List.mem_cons_self⟩
      exact passSucceeded_append.mpr (.inr (passSucceeded_append.mpr (.inr succeeded)))
    · cases stops
  · cases stops

end Order

def Note.line? : Note → Option String
  | .progress line => some line
  | .log _ => none

theorem lines_warningNotes (id : MachineId) (warnings : List BuildWarning) :
    (warningNotes id warnings).filterMap Note.line? =
      warnings.map fun w => "WARNING " ++ w.message := by
  induction warnings with
  | nil => rfl
  | cons w rest ih => exact congrArg (List.cons ("WARNING " ++ w.message)) ih

theorem Plan.lines_warningNotes (plan : Plan) :
    plan.warningNotes.filterMap Note.line? =
      plan.warnings.map fun w => "WARNING " ++ w.message := by
  rw [Plan.warningNotes, Plan.warnings]
  induction plan.updates with
  | nil => rfl
  | cons update rest ih =>
    rw [List.flatMap_cons, List.flatMap_cons, List.filterMap_append, List.map_append, ih,
      Rollout.lines_warningNotes]

/-- How a rollout whose plan succeeds carries it out. -/
structure CarriesOut (o : Order) (plan : Plan) (signal : Signal) (events : List Event)
    (r : RunEnd Unit) : Prop where
  /-- The updates are those of the machines that stay, in order. -/
  aligned : (plan.diff.remaining o.deployment.machines).map Machine.id =
    plan.updates.map (·.plan.machineId)
  /-- Machines are changed by the calls of the plan, in its order, -/
  within : changes events <+: plan.calls o.deployment.machines
  /-- and by all of them if the pass succeeds. -/
  whole : PassSucceeded events → changes events = plan.calls o.deployment.machines
  /-- The warnings are told right before the updates. -/
  warned : PassSucceeded events → ∃ (before : List Event) (notes : List Note)
    (after : List Event),
    events = before ++ notes.map .note ++ .note (.progress o.updatingLine) :: after ∧
    changes before = plan.openingCalls ∧
    notes.filterMap Note.line? = plan.warnings.map (fun w => "WARNING " ++ w.message) ∧
    changes after = plan.updateCalls o.deployment.machines
  /-- Only a pass that succeeds lets the rollout end well. -/
  succeeded : r = .exit (.ok ()) → PassSucceeded events
  /-- Where every call succeeds the rollout ends well. -/
  ends : Succeed events → signal.StaysDown events → r = .hung ∨ r = .exit (.ok ())

/-- How a rollout without a plan fails. -/
structure Refuses (e : DeployError) (signal : Signal) (events : List Event) (r : RunEnd Unit) :
    Prop where
  never : ¬ PassSucceeded events
  fails : r ≠ .exit (.ok ())
  /-- Where every call succeeds the rollout fails as the plan did. -/
  ends : Succeed events → signal.StaysDown events → r = .hung ∨ r = .exit (.error e)

namespace Order

section Agreement

variable {o : Order} {s later : Stage} {events : List Event} {r : RunEnd Unit}

theorem carriesOut {plan : Plan} (deploys : o.settings.restartOnly = false)
    (rolling : o.strategy = .rolling)
    (planned : Plan.deploy o.deployment o.resolver = .ok plan)
    (h : o.script.Tells s events r later) : CarriesOut o plan s.signal events r := by
  have follows := converge_follows rolling planned
  have aligned := Plan.machineIds_of_deploy planned
  have succeeded : r = .exit (.ok ()) → PassSucceeded events := by
    rintro rfl
    exact passSucceeded_of_ok h
  cases script_wraps deploys h with
  | unreached aside stops smooth =>
    refine ⟨aligned, ?_, fun done => absurd done aside.open_, fun done => absurd done aside.open_,
      succeeded, fun succeed down => .inl (smooth succeed down)⟩
    rw [aside.quiet]
    exact List.nil_prefix
  | reached before after tells eq signal quiet quiet' succeeds ok smooth =>
    subst eq
    refine ⟨aligned, ?_, fun done => ?_, fun done => ?_, succeeded, fun succeed down => ?_⟩
    · simpa [quiet, quiet'] using follows.within tells
    · rw [succeeds done] at tells
      simpa [quiet, quiet'] using (follows.whole tells).1
    · rw [succeeds done] at tells
      obtain ⟨first, second, rfl, opened, updated⟩ := converge_parts rolling planned tells
      refine ⟨before ++ first, plan.warningNotes, second ++ after, by simp, ?_,
        plan.lines_warningNotes, ?_⟩
      · rw [changes_append, quiet, opened, List.nil_append]
      · rw [changes_append, quiet', updated, List.append_nil]
    · obtain ⟨succeed', succeed''⟩ := succeed_append.mp succeed
      have down' := (Signal.staysDown_append.mp (Signal.staysDown_append.mp down).1).2
      rw [← signal] at down'
      rcases follows.smooth tells (succeed_append.mp succeed').2 down' with rfl | ⟨exit, rfl, well⟩
      · exact .inl ((smooth succeed'').elim id id)
      · cases exit with
        | ok a => exact smooth succeed''
        | error e => cases well
        | panic text => cases well

theorem refuses {e : DeployError} (deploys : o.settings.restartOnly = false)
    (refused : Plan.deploy o.deployment o.resolver = .error e)
    (h : o.script.Tells s events r later) : Refuses e s.signal events r := by
  obtain ⟨calls, follows⟩ := converge_fails refused
  have never : ¬ PassSucceeded events := by
    intro succeeded
    cases script_wraps deploys h with
    | unreached aside => exact aside.open_ succeeded
    | reached before after tells eq signal quiet quiet' succeeds =>
      rw [succeeds succeeded] at tells
      cases (follows.whole tells).2
  refine ⟨never, ?_, fun succeed down => ?_⟩
  · rintro rfl
    exact never (passSucceeded_of_ok h)
  · cases script_wraps deploys h with
    | unreached aside stops smooth => exact .inl (smooth succeed down)
    | reached before after tells eq signal quiet quiet' succeeds ok smooth =>
      subst eq
      obtain ⟨succeed', succeed''⟩ := succeed_append.mp succeed
      have down' := (Signal.staysDown_append.mp (Signal.staysDown_append.mp down).1).2
      rw [← signal] at down'
      rcases follows.smooth tells (succeed_append.mp succeed').2 down' with rfl | ⟨exit, rfl, rfl⟩
      · exact .inl ((smooth succeed'').elim id id)
      · exact smooth succeed''

end Agreement

/-- A run that keeps to what the plan says. -/
def KeepsPlan (o : Order) (signal : Signal) (events : List Event) (r : RunEnd Unit) : Prop :=
  match Plan.deploy o.deployment o.resolver with
  | .ok plan => CarriesOut o plan signal events r
  | .error e => Refuses e signal events r

/-- A rolling deploy pass keeps to the plan under any collaborators, and under collaborators
that all return it does not hang. -/
theorem run_keepsPlan {σ : Type} (o : Order) (c : Collaborators σ) (signal : Signal)
    (schedule : List (Nat × SignalChange)) (memory : σ)
    (deploys : o.settings.restartOnly = false) (rolling : o.strategy = .rolling) :
    (∀ horizon, o.KeepsPlan signal (o.run c horizon (.start signal schedule memory)).1.events
      (o.run c horizon (.start signal schedule memory)).2) ∧
    (c.Return → ∃ time, ∀ horizon : Horizon, time < horizon.time →
      (o.run c horizon (.start signal schedule memory)).2 ≠ .hung) := by
  constructor
  · intro horizon
    have h := o.run_tells c horizon signal schedule memory
    rw [KeepsPlan]
    split
    · rename_i plan planned
      exact carriesOut deploys rolling planned h
    · rename_i e refused
      exact refuses deploys refused h
  · intro returns
    obtain ⟨after, exit, time, ends⟩ := o.script.run_ends returns (.start signal schedule memory)
    refine ⟨time, fun horizon late => ?_⟩
    have eq : o.run c horizon (.start signal schedule memory) = (after, .exit exit) :=
      ends horizon late
    simp [eq]

end Order

namespace Rehearsal

/-- A deployment that removes a machine, creates one, and updates one. -/
def mixedOrder : Order where
  settings := {}
  deployment := deployment
    [loneMachine, { loneMachine with
      id := secondId
      config := fixtureConfig "old" }] []
  resolver := AppConfig.resolver
    { primaryRegion := "ord", processes := Dict.ofList [("app", {}), ("web", {})] }

/-- Collaborators that do at once what they are asked for. -/
def willing : Collaborators Unit where
  react _ _ call := ((), (Fleet.react {} call).2)

theorem willing_return : willing.Return := by
  intro _ _ call
  cases call with
  | setStatus release status => trivial
  | releaseCommand => trivial
  | acquire machines ttl => trivial
  | release machines => trivial
  | launch input => trivial
  | update m input => trivial
  | destroy m force => trivial
  | waitForState m state timeout => trivial
  | waitForHealthchecks m timeout => trivial

theorem mixedOrder_keepsPlan :
    (∀ horizon, mixedOrder.KeepsPlan {}
      (mixedOrder.run willing horizon (.start {} [] ())).1.events
      (mixedOrder.run willing horizon (.start {} [] ())).2) ∧
    ∃ time, ∀ horizon : Horizon, time < horizon.time →
      (mixedOrder.run willing horizon (.start {} [] ())).2 ≠ .hung := by
  obtain ⟨keeps, returns⟩ := Order.run_keepsPlan mixedOrder willing {} [] () rfl rfl
  exact ⟨keeps, returns willing_return⟩

example : ((Plan.deploy mixedOrder.deployment mixedOrder.resolver).toOption.map fun plan =>
    (plan.calls mixedOrder.deployment.machines).map Call.name) =
      some ["destroy", "launch", "update"] := by decide

end Rehearsal

end Rollout
