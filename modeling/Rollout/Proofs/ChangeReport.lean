import Rollout.Proofs.ChangeSummary
import Rollout.Proofs.LeaseDiscipline
import Rollout.Proofs.PlanAgreement

/-!
# The report of the changes

A pass that deploys reports the lines of the summary one by one, before any other line of progress
and as soon as it holds its leases. A pass that does not get that far reports nothing.
-/

namespace Rollout

def Event.line? : Event → Option String
  | .note n => n.line?
  | _ => none

def linesOf (events : List Event) : List String := events.filterMap Event.line?

@[simp] theorem linesOf_append (before later : List Event) :
    linesOf (before ++ later) = linesOf before ++ linesOf later := List.filterMap_append

theorem linesOf_cons {e : Event} (silent : e.line? = none) (rest : List Event) :
    linesOf (e :: rest) = linesOf rest := List.filterMap_cons_none silent

theorem linesOf_notes (notes : List Note) :
    linesOf (notes.map .note) = notes.filterMap Note.line? := by
  rw [linesOf, List.filterMap_map]
  rfl

theorem progress_eq_linesOf (t : Trace) : t.progress = linesOf t.events := by
  rw [Trace.progress, Trace.notes, linesOf, Trace.events, List.filterMap_map,
    List.filterMap_filterMap]
  refine congrArg (t.filterMap ·) (funext fun e => ?_)
  rcases e with ⟨time, event⟩
  cases event with
  | note n => cases n <;> rfl
  | _ => rfl

theorem Stage.Background.linesOf_eq_nil {s later : Stage} {events : List Event}
    (background : s.Background events later) : linesOf events = [] := by
  refine List.filterMap_eq_nil_iff.mpr fun e mem => ?_
  cases e with
  | note n => exact False.elim (background.admitted _ mem)
  | _ => rfl

theorem linesOf_renewalLogs {logs : List Event}
    (logged : ∀ e ∈ logs, ∃ record, e = .renewalLog record) : linesOf logs = [] := by
  refine List.filterMap_eq_nil_iff.mpr fun e mem => ?_
  obtain ⟨record, rfl⟩ := logged e mem
  rfl

namespace Script

variable {α : Type}

/-- The script reports no progress, whatever is replied. -/
def Quiet : Script α → Prop
  | .done _ => True
  | .note n next => n.line? = none ∧ next.Quiet
  | .checkpoint next => ∀ raised, (next raised).Quiet
  | .call _ next => ∀ reply, (next reply).Quiet
  | .startRenewal _ _ _ next => next.Quiet
  | .stopRenewal next => next.Quiet

theorem Tells.linesOf_eq_nil {script : Script α} {s later : Stage} {events : List Event}
    {r : RunEnd α} (quiet : script.Quiet) (h : script.Tells s events r later) :
    linesOf events = [] := by
  induction h with
  | done => rfl
  | note tail ih =>
    rw [linesOf_cons (e := .note _) quiet.1]
    exact ih quiet.2
  | checkpoint tail ih => exact ih (quiet _)
  | refused may tail ih => exact ih (quiet _)
  | answered may background mayReply tail ih =>
    rw [List.cons_append, linesOf_cons rfl, linesOf_append, background.linesOf_eq_nil,
      List.nil_append, linesOf_cons rfl]
    exact ih (quiet _)
  | unanswered may background =>
    rw [linesOf_cons rfl]
    exact background.linesOf_eq_nil
  | startRenewal logged tail ih =>
    rw [linesOf_append, linesOf_renewalLogs logged]
    exact ih quiet
  | stopRenewal background tail ih =>
    rw [linesOf_append, background.linesOf_eq_nil]
    exact ih quiet
  | cutOff background => exact background.linesOf_eq_nil

/-- What an attempt tells is what the script itself tells. -/
theorem Tells.of_attempt {script : Script α} {s later : Stage} {events : List Event}
    {r : RunEnd (Exit α)} (h : script.attempt.Tells s events r later) :
    ∃ r', script.Tells s events r' later := by
  rcases h.attempt_inv with ⟨_, told, _⟩ | ⟨told, _⟩
  · exact ⟨_, told⟩
  · exact ⟨_, told⟩

theorem quiet_request (blame : Failure → DeployError) (call : Call) :
    (request blame call).Quiet := by
  intro reply
  cases reply with
  | cancelled => exact ⟨rfl, trivial⟩
  | _ => trivial

end Script

namespace Order

open Script

theorem quiet_announce (o : Order) : o.announce.Quiet := ⟨rfl, quiet_request _ _⟩

theorem quiet_runReleaseCommand (o : Order) : o.runReleaseCommand.Quiet := by
  rw [runReleaseCommand]
  split
  · exact quiet_request _ _
  · intro raised
    cases raised with
    | true => exact ⟨rfl, trivial⟩
    | false => trivial

theorem quiet_conclude (o : Order) (exit : Exit Unit) : (o.conclude exit).Quiet := by
  cases exit with
  | panic text => trivial
  | ok a =>
    intro reply
    cases reply with
    | panicked text => trivial
    | failed failure => trivial
    | _ => exact ⟨rfl, trivial⟩
  | error e =>
    intro reply
    cases reply with
    | panicked text => trivial
    | _ => exact ⟨rfl, trivial⟩

/-- The changes are told first of all lines, as soon as the leases are held; without leases there
is no line. -/
structure TellsChanges (o : Order) (events : List Event) : Prop where
  held : o.acquired ∈ events →
    (Plan.diffOf o.deployment o.resolver).told <+: linesOf events
  not_held : o.acquired ∉ events → linesOf events = []

namespace TellsChanges

variable {o : Order} {events before rest : List Event}

theorem of_silent (silent : linesOf events = []) (none : o.acquired ∉ events) :
    o.TellsChanges events := ⟨fun held => absurd held none, fun _ => silent⟩

theorem open_with (tells : o.TellsChanges rest) (silent : linesOf before = [])
    (none : o.acquired ∉ before) : o.TellsChanges (before ++ rest) where
  held mem := by
    rw [linesOf_append, silent]
    exact tells.held ((List.mem_append.mp mem).resolve_left none)
  not_held absent := by
    rw [linesOf_append, silent]
    exact tells.not_held fun mem => absent (List.mem_append_right _ mem)

theorem close_with (tells : o.TellsChanges events) (silent : linesOf rest = [])
    (none : o.acquired ∉ rest) : o.TellsChanges (events ++ rest) where
  held mem := by
    rw [linesOf_append, silent, List.append_nil]
    exact tells.held ((List.mem_append.mp mem).resolve_right none)
  not_held absent := by
    rw [linesOf_append, silent, List.append_nil]
    exact tells.not_held fun mem => absent (List.mem_append_left _ mem)

end TellsChanges

section Runs

variable {o : Order} {s later : Stage} {events : List Event}

/-- Only the call that acquires the leases lets them be held. -/
theorem acquired_notMem {α : Type} {script : Script α} {r : RunEnd α} {role : Role}
    (uses : script.Uses (·.role = role)) (other : role ≠ .acquire)
    (h : script.Tells s events r later) : o.acquired ∉ events := by
  intro mem
  have within : Event.Within (·.role = role) s.renewing o.acquired := h.within uses _ mem
  exact other within.symm

theorem lines_changeNotes (diff : GroupDiff) :
    (changeNotes diff).filterMap Note.line? = diff.told := by
  rw [changeNotes, GroupDiff.told]
  cases diff.summary with
  | none => rfl
  | some summary =>
    rw [List.filterMap_cons_none rfl, List.filterMap_map]
    exact List.filterMap_some

/-- The work of a deployment begins with what is told about the groups. -/
theorem converge_tells {r : RunEnd Unit} (h : o.converge.Tells s events r later) :
    (Plan.diffOf o.deployment o.resolver).told <+: linesOf events := by
  rw [converge_eq, prepare, tellChanges_eq, narrate_bind, narrate_bind] at h
  obtain ⟨rest, rfl, _⟩ := h.narrate_inv
  rw [linesOf_append, linesOf_notes, lines_changeNotes]
  exact List.prefix_append _ _

/-- The leases are held if the request for them succeeds, and only then. -/
theorem acquired_mem_iff {r : RunEnd Unit}
    (h : (request .leaseAcquisition o.acquisition).Tells s events r later) :
    o.acquired ∈ events ↔ r = .exit (.ok ()) := by
  have noise_free : ∀ {noise mid}, s.Background noise mid → o.acquired ∉ noise :=
    fun background mem => background.admitted _ mem
  rcases h.request_inv with ⟨_, rfl, rfl, _⟩ | ⟨_, noise, reply, background, _, rfl, rfl⟩ |
    ⟨_, noise, mid, background, _, rfl, rfl⟩
  · simp [acquired]
  · have among := noise_free background
    cases reply <;> simp [acquired, aftermath, settle] at among ⊢ <;> exact among
  · have among := noise_free background
    simpa [acquired] using among

theorem withLeases_tellsChanges {r : RunEnd Unit}
    (h : (o.withLeases o.converge).Tells s events r later) : o.TellsChanges events := by
  rw [withLeases_eq] at h
  have silent : ∀ {events r later}, (request DeployError.leaseAcquisition o.acquisition).Tells s
      events r later → linesOf events = [] := fun told => told.linesOf_eq_nil (quiet_request _ _)
  rcases h.bind_inv with ⟨a, before, mid, rest, asked, told, rfl⟩ | ⟨r, asked, stops⟩
  · have held : o.acquired ∈ before ++ rest :=
      List.mem_append_left _ ((acquired_mem_iff asked).mpr rfl)
    refine ⟨fun _ => ?_, fun absent => absurd held absent⟩
    obtain ⟨rest, rfl, renewing⟩ := told.note_inv
    rw [linesOf_append, silent asked, List.nil_append, linesOf_cons rfl]
    cases renewing with
    | @startRenewal _ _ _ _ _ logs events _ _ logged told =>
      have unseen : linesOf logs = [] := linesOf_renewalLogs logged
      rw [linesOf_append, unseen, List.nil_append]
      rcases told.bind_inv with ⟨exit, first, mid, second, worked, _, rfl⟩ | ⟨r, worked, _⟩
      · obtain ⟨_, worked⟩ := worked.of_attempt
        rw [linesOf_append]
        exact (converge_tells worked).trans (List.prefix_append _ _)
      · obtain ⟨_, worked⟩ := worked.of_attempt
        exact converge_tells worked
  · refine .of_silent (silent asked) fun mem => ?_
    rw [(acquired_mem_iff asked).mp mem] at stops
    cases stops

theorem pass_tellsChanges {r : RunEnd Unit} (deploys : o.settings.restartOnly = false)
    (h : o.pass.Tells s events r later) : o.TellsChanges events := by
  have eq : o.pass = (o.runReleaseCommand >>= fun _ => o.withLeases o.converge) := by
    rw [pass, deploys]
    rfl
  rw [eq] at h
  have uses : o.runReleaseCommand.Uses (·.role = .opening) :=
    o.runReleaseCommand_uses.mono fun call command => by simp [command, Call.role]
  rcases h.bind_inv with ⟨a, before, mid, rest, opened, told, rfl⟩ | ⟨r, opened, _⟩
  · exact (withLeases_tellsChanges told).open_with
      (opened.linesOf_eq_nil o.quiet_runReleaseCommand) (acquired_notMem uses (by decide) opened)
  · exact .of_silent (opened.linesOf_eq_nil o.quiet_runReleaseCommand)
      (acquired_notMem uses (by decide) opened)

theorem script_tellsChanges {r : RunEnd Unit} (deploys : o.settings.restartOnly = false)
    (h : o.script.Tells s events r later) : o.TellsChanges events := by
  rw [script_eq] at h
  have none : ∀ {before mid r}, o.announce.Tells s before r mid → o.acquired ∉ before :=
    fun told => acquired_notMem o.announce_uses (by decide) told
  rcases h.bind_inv with ⟨a, before, mid, rest, announced, told, rfl⟩ | ⟨r, announced, _⟩
  · refine TellsChanges.open_with ?_ (announced.linesOf_eq_nil o.quiet_announce) (none announced)
    rcases told.bind_inv with ⟨exit, first, after, second, passed, concluded, rfl⟩ | ⟨r, passed, _⟩
    · refine TellsChanges.close_with ?_ (concluded.linesOf_eq_nil (o.quiet_conclude exit))
        (acquired_notMem (o.conclude_uses exit) (by decide) concluded)
      obtain ⟨_, passed⟩ := passed.of_attempt
      exact pass_tellsChanges deploys passed
    · obtain ⟨_, passed⟩ := passed.of_attempt
      exact pass_tellsChanges deploys passed
  · exact .of_silent (announced.linesOf_eq_nil o.quiet_announce) (none announced)

end Runs

structure ReportsChanges (o : Order) (t : Trace) : Prop where
  /-- The summary says what changes, -/
  faithful : GroupDiff.Faithful o.deployment.machines o.resolver.processNames
  /-- its lines are the first that are reported once the leases are held, -/
  held : o.acquired ∈ t.events → (Plan.diffOf o.deployment o.resolver).told <+: t.progress
  /-- and nothing is reported without them. -/
  not_held : o.acquired ∉ t.events → t.progress = []

/-- Every run that deploys reports the changes, whatever the groups are called. -/
theorem run_reportsChanges {σ : Type} (o : Order) (c : Collaborators σ) (horizon : Horizon)
    (signal : Signal) (schedule : List (Nat × SignalChange)) (memory : σ)
    (deploys : o.settings.restartOnly = false) :
    o.ReportsChanges (o.run c horizon (.start signal schedule memory)).1.trace := by
  have tells := script_tellsChanges deploys (o.run_tells c horizon signal schedule memory)
  refine ⟨GroupDiff.faithful_compute _ _, ?_, ?_⟩
  · rw [progress_eq_linesOf]
    exact tells.held
  · rw [progress_eq_linesOf]
    exact tells.not_held

end Order

namespace Rehearsal

/-- A fleet of one whose group is called so that its line reads as two. -/
def disguisedFleet : List Machine :=
  [{ loneMachine with config := fixtureConfig "a\" machine\n * destroy 1 \"b" }]

/-- The fleet of two that it passes for. -/
def honestFleet : List Machine :=
  [{ loneMachine with config := fixtureConfig "a" },
    { loneMachine with id := secondId, config := fixtureConfig "b" }]

theorem mixedOrder_reportsChanges :
    mixedOrder.settings.restartOnly = false ∧
      mixedOrder.ReportsChanges
        (mixedOrder.run willing ⟨60000, false⟩ (.start {} [] ())).1.trace :=
  ⟨rfl, Order.run_reportsChanges mixedOrder willing ⟨60000, false⟩ {} [] () rfl⟩

/-- A name with a line feed is told in two lines, and the summary is that of another fleet. -/
theorem disguisedFleet_misread :
    (GroupDiff.compute disguisedFleet []).isEmpty = false ∧
      (GroupDiff.compute disguisedFleet []).told ≠
        "Process groups have changed. This will:" ::
          ((GroupDiff.compute disguisedFleet []).groupsToRemove.entries.map fun entry =>
            GroupDiff.destroyLine entry.1 entry.2) ++
          (GroupDiff.compute disguisedFleet []).groupsNeedingMachines.map
            GroupDiff.createLine ∧
      (GroupDiff.compute disguisedFleet []).summary =
        (GroupDiff.compute honestFleet []).summary ∧
      (GroupDiff.compute disguisedFleet []).groupsToRemove ≠
        (GroupDiff.compute honestFleet []).groupsToRemove := by
  decide +kernel

example : (mixedOrder.run willing ⟨60000, false⟩ (.start {} [] ())).1.trace.progress.take 3 =
    ["Process groups have changed. This will:", " * destroy 1 \"old\" machine",
      " * create 1 \"web\" machine"] := by decide +kernel

end Rehearsal

end Rollout
