import Rollout.Proofs.PlanAgreement
import Rollout.Proofs.Procedure

/-!
# The tasks of a pass

The work of a pass is a list of tasks, done one after another: machines to remove, groups that
need a machine, and machines that stay. A task is a procedure, with the waits that the strategy
asks for at its end. `Work` says which transcripts the work may have: tasks that are done, tasks
that are left behind where the strategy allows it, and at most one at which the work stops.
-/

namespace Rollout

open Script

inductive Task
  /-- Destroy a machine of an undeclared group. -/
  | remove (m : Machine)
  /-- Create the first machine of a group. -/
  | create (launch : PlannedLaunch)
  /-- Bring a machine that stays to its configuration. -/
  | settle (entry : Entry)

def Call.isWait : Call → Bool
  | .waitForState .. => true
  | .waitForHealthchecks .. => true
  | _ => false

/-- What can be made of the first items of a list, up to one that nothing can be made of. -/
def made {ε α β : Type} (f : α → Except ε β) : List α → List β
  | [] => []
  | a :: rest =>
    match f a with
    | .ok b => b :: made f rest
    | .error _ => []

def Exit.ofExcept {α : Type} : Except DeployError α → Exit Unit
  | .ok _ => .ok ()
  | .error e => .error e

/-- What is done about a machine that stays, up to the machine that runs the new
configuration. -/
def Entry.procedure (entry : Entry) : Procedure Machine :=
  match entry.plan with
  | .update _ input =>
    .call (.update entry.machine input) (.update entry.machine.id) fun _ => .finish entry.machine
  | .replace _ input =>
    .call (.destroy entry.machine true) (.destroy entry.machine.id) fun _ =>
      .call (.launch input) (.launch entry.machine.id) fun created => .finish created

namespace Order

def plan (o : Order) : Except DeployError Plan :=
  if o.settings.restartOnly then .ok (.restart o.deployment o.resolver)
  else Plan.deploy o.deployment o.resolver

def diff (o : Order) : GroupDiff :=
  if o.settings.restartOnly then {} else Plan.diffOf o.deployment o.resolver

/-- The machines to be created, up to one that cannot be planned. -/
def launches (o : Order) : List PlannedLaunch :=
  made (Plan.planLaunch o.deployment o.resolver) o.diff.groupsNeedingMachines

def entries (o : Order) : List Entry :=
  match o.plan with
  | .ok plan => plan.entries o.deployment.machines
  | .error _ => []

def tasks (o : Order) : List Task :=
  o.diff.machinesToRemove.map .remove ++ o.launches.map .create ++ o.entries.map .settle

def finish (o : Order) : Exit Unit := .ofExcept o.plan

/-- What makes a machine ready: it has started with the start timeout and, unless that is
skipped, become healthy with the health timeout. -/
def readiness (o : Order) (m : Machine) : Procedure Unit :=
  if o.strategy.isHealthGated then
    .call (.waitForState m .started o.settings.startTimeout) (.wait m.id .started) fun _ =>
      if o.settings.skipHealthChecks then .finish ()
      else .call (.waitForHealthchecks m o.settings.healthTimeout) (.wait m.id .healthy) fun _ =>
        .finish ()
  else .finish ()

end Order

def Task.procedure (o : Order) : Task → Procedure Unit
  | .remove m => .call (.destroy m true) (.destroy m.id) fun _ => .finish ()
  | .create launch =>
    .call (.launch launch.input)
      (fun failure => .create launch.group (o.createHint failure) failure) fun created =>
        o.readiness created
  | .settle entry => entry.procedure.andThen o.readiness

theorem Order.readiness_waits (o : Order) (m : Machine) :
    (o.readiness m).Uses (·.isWait = true) := by
  rw [readiness]
  split
  · refine ⟨rfl, fun _ => ?_⟩
    split
    · trivial
    · exact ⟨rfl, fun _ => trivial⟩
  · trivial

theorem Order.readiness_uses (o : Order) (m : Machine) :
    (o.readiness m).Uses (·.role = .work) := by
  refine (o.readiness_waits m).mono fun call waits => ?_
  cases call with
  | waitForState | waitForHealthchecks => rfl
  | _ => cases waits

/-- Tasks are done by calls to machines. -/
theorem Task.procedure_uses (o : Order) (task : Task) :
    (task.procedure o).Uses (·.role = .work) := by
  cases task with
  | remove m => exact ⟨rfl, fun _ => trivial⟩
  | create launch => exact ⟨rfl, o.readiness_uses⟩
  | settle entry =>
    refine Procedure.Uses.andThen ?_ o.readiness_uses
    rw [Entry.procedure]
    split
    · exact ⟨rfl, fun _ => trivial⟩
    · exact ⟨rfl, fun _ => ⟨rfl, fun _ => trivial⟩⟩

/-- The transcripts of a task that is done: every call of it has succeeded. -/
def Finished (o : Order) (task : Task) (x : List Event) : Prop := (task.procedure o).Done x ()

/-- The transcripts of a task that is past: it is done, or it is an entry that was left behind. -/
inductive Past (o : Order) (calm : Prop) : Task → List Event → Prop
  | done {task x} : (task.procedure o).Done x () → Past o calm task x
  | leftBehind {entry x e} : o.strategy.failurePolicy = .bestEffort → e ≠ .cancelled →
    ((Task.settle entry).procedure o).Stops calm x (.error e) →
      Past o calm (.settle entry) (x ++ [.note (leftBehindNote e)])

/-- The transcripts of the work on a list of tasks, and how it ends. Once nothing is left to do
the work ends as `finish` says. -/
inductive Work (o : Order) (calm : Prop) (finish : Exit Unit) :
    List Task → List Event → RunEnd Unit → Prop
  | finished : Work o calm finish [] [] (.exit finish)
  | past {task rest x y r} : Past o calm task x → Work o calm finish rest y r →
    Work o calm finish (task :: rest) (x ++ y) r
  | stopped {task rest x stop} : (task.procedure o).Stops calm x stop →
    (∀ entry e, task = .settle entry → stop = .error e →
      o.strategy.failurePolicy = .bestEffort → e = .cancelled) →
        Work o calm finish (task :: rest) x stop.toEnd

namespace Work

variable {o : Order} {calm : Prop} {finish : Exit Unit} {tasks tasks' : List Task}
  {x y : List Event} {r : RunEnd Unit}

theorem append (first : Work o calm (.ok ()) tasks x (.exit (.ok ())))
    (second : Work o calm finish tasks' y r) : Work o calm finish (tasks ++ tasks') (x ++ y) r := by
  generalize ending : RunEnd.exit (Exit.ok ()) = r₁ at first
  induction first with
  | finished => exact second
  | past isPast _ ih =>
    rw [List.append_assoc]
    exact .past isPast (ih ending)
  | stopped stops fatal => simp at ending

theorem append_stop {stop : Stop} (first : Work o calm (.ok ()) tasks x stop.toEnd) :
    Work o calm finish (tasks ++ tasks') x stop.toEnd := by
  generalize ending : (stop.toEnd : RunEnd Unit) = r₁ at first ⊢
  induction first with
  | finished => simp at ending
  | past isPast _ ih => exact .past isPast (ih ending)
  | stopped stops fatal => exact .stopped stops fatal

/-- Work stops at an entry that could not be carried out, unless that is left behind. -/
theorem stopped_settle {entry : Entry} {rest : List Task} {stop : Stop}
    (stops : entry.procedure.Stops calm x stop)
    (fatal : ∀ e, stop = .error e → o.strategy.failurePolicy = .bestEffort → e = .cancelled) :
    Work o calm finish (.settle entry :: rest) x stop.toEnd := by
  have tried : ((Task.settle entry).procedure o).Stops calm x stop := stops.andThen_left
  exact .stopped tried fun _ e _ => fatal e

/-- Work that does not stop at a task has all of them past. -/
theorem whole (work : Work o calm finish tasks x r) :
    (∃ segments, List.Forall₂ (Past o calm) tasks segments ∧ x = segments.flatten ∧
      r = .exit finish) ∨
    ∃ before task rest segments current stop, tasks = before ++ task :: rest ∧
      List.Forall₂ (Past o calm) before segments ∧ x = segments.flatten ++ current ∧
      (task.procedure o).Stops calm current stop ∧ r = stop.toEnd ∧
      (∀ entry e, task = .settle entry → stop = .error e →
        o.strategy.failurePolicy = .bestEffort → e = .cancelled) := by
  induction work with
  | finished => exact .inl ⟨[], .nil, rfl, rfl⟩
  | @past task rest x y r isPast _ ih =>
    rcases ih with ⟨segments, pasts, rfl, rfl⟩ |
      ⟨before, task', rest, segments, current, stop, rfl, pasts, rfl, stops, rfl, fatal⟩
    · exact .inl ⟨x :: segments, .cons isPast pasts, rfl, rfl⟩
    · exact .inr ⟨task :: before, task', rest, x :: segments, current, stop, rfl,
        .cons isPast pasts, by simp, stops, rfl, fatal⟩
  | @stopped task rest x stop stops fatal =>
    exact .inr ⟨[], task, rest, [], x, stop, rfl, .nil, rfl, stops, rfl, fatal⟩

/-- Work ends well only if it was to end well. -/
theorem finish_of_ok {a : Unit} (work : Work o calm finish tasks x (.exit (.ok a))) :
    finish = .ok a := by
  rcases work.whole with ⟨_, _, _, ending⟩ | ⟨_, _, _, _, _, stop, _, _, _, _, ending, _⟩
  · cases ending
    rfl
  · simp at ending

end Work

/-- The script works on these tasks and then ends like this. -/
structure Script.Works (o : Order) (script : Script Unit) (tasks : List Task)
    (finish : Exit Unit) : Prop where
  work : ∀ {calm : Prop} {x : List Event} {r : RunEnd Unit},
    script.Speaks calm x r → Work o calm finish tasks x r

namespace Script.Works

variable {o : Order} {tasks tasks' : List Task} {finish : Exit Unit}

theorem done (exit : Exit Unit) : (Script.done exit).Works o [] exit := by
  constructor
  intro calm x r h
  obtain ⟨rfl, rfl⟩ := h.done_inv
  exact .finished

theorem note {script : Script Unit} {n : Note} (quiet : transcript [.note n] = [])
    (works : script.Works o tasks finish) : (Script.note n script).Works o tasks finish :=
  ⟨fun h => works.work (h.skip quiet)⟩

theorem narrate {script : Script Unit} {notes : List Note}
    (quiet : ∀ n ∈ notes, transcript [.note n] = []) (works : script.Works o tasks finish) :
    (narrate notes script).Works o tasks finish := by
  induction notes with
  | nil => exact works
  | cons n notes ih =>
    refine .note (quiet n List.mem_cons_self) (ih fun n mem => ?_)
    exact quiet n (List.mem_cons_of_mem _ mem)

theorem bind {first : Script Unit} {next : Unit → Script Unit}
    (works : first.Works o tasks (.ok ()))
    (rest : ∀ a, (next a).Works o tasks' finish) :
    (first >>= next).Works o (tasks ++ tasks') finish := by
  constructor
  intro calm x r h
  rcases h.bind_inv with ⟨⟨⟩, y, z, told, told', rfl⟩ | ⟨stop, told, rfl⟩
  · exact (works.work told).append ((rest ()).work told')
  · exact (works.work told).append_stop

/-- Work that fails for want of a plan is all that is done. -/
theorem bind_error {first : Script Unit} {next : Unit → Script Unit} {e : DeployError}
    (works : first.Works o tasks (.error e)) : (first >>= next).Works o tasks (.error e) := by
  constructor
  intro calm x r h
  rcases h.bind_inv with ⟨a, y, z, told, _, _⟩ | ⟨stop, told, rfl⟩
  · cases (works.work told).finish_of_ok
  · exact works.work told

theorem of_performs {script : Script Unit} {task : Task}
    (performs : script.Performs (task.procedure o)) (unsettling : ∀ entry, task ≠ .settle entry) :
    script.Works o [task] (.ok ()) := by
  constructor
  intro calm x r h
  rcases performs.cases h with ⟨⟨⟩, whole, rfl⟩ | ⟨stop, stops, rfl⟩
  · have work : Work o calm (.ok ()) [task] (x ++ []) (.exit (.ok ())) :=
      .past (.done whole) .finished
    rwa [List.append_nil] at work
  · exact .stopped stops fun entry _ eq => absurd eq (unsettling entry)

end Script.Works

theorem head?_toList_append {a b : String} {c : Char} (first : a.toList.head? = some c) :
    (a ++ b).toList.head? = some c := by
  rw [String.toList_append, List.head?_append, first]
  rfl

/-- A warning is not mistaken for a cancellation. -/
theorem BuildWarning.message_ne (w : BuildWarning) : w.message ≠ "Rollout cancelled" := by
  intro eq
  have head : w.message.toList.head? = some 'R' := by
    rw [eq]
    rfl
  have other : w.message.toList.head? = some 'm' ∨ w.message.toList.head? = some 'u' := by
    cases w with
    | mountRemoved =>
      left
      iterate 4 apply head?_toList_append
      rfl
    | volumeSwap =>
      left
      iterate 6 apply head?_toList_append
      rfl
    | mountPathChanged =>
      right
      iterate 7 apply head?_toList_append
      rfl
  simp [head] at other

theorem quiet_warnings {updates : List PlannedUpdate} {n : Note}
    (mem : n ∈ updates.flatMap fun update =>
      warningNotes update.plan.machineId update.warnings) : transcript [.note n] = [] := by
  obtain ⟨update, _, mem⟩ := List.mem_flatMap.mp mem
  obtain ⟨w, _, mem⟩ := List.mem_flatMap.mp mem
  rcases List.mem_pair.mp mem with rfl | rfl
  · exact transcript_log w.message_ne
  · exact transcript_progress (by simp)

namespace Order

theorem waitUntilReady_performs {o : Order} (gated : o.strategy.isHealthGated = true) (m : Machine)
    (index : String) : (o.waitUntilReady m index).Performs (o.readiness m) := by
  rw [readiness, if_pos gated]
  refine .request fun _ => ?_
  split
  · exact .done ()
  · exact .request fun _ => .note (transcript_progress (by simp)) (.done ())

theorem gate_performs (o : Order) (m : Machine) (index : String) :
    (o.gate m index).Performs (o.readiness m) := by
  rw [gate]
  split
  · rename_i gated
    exact waitUntilReady_performs gated m index
  · rename_i free
    rw [readiness, if_neg free]
    exact .done ()

theorem apply_performs (entry : Entry) (index : String) :
    (apply entry index).Performs entry.procedure := by
  rw [apply, Entry.procedure]
  cases entry.plan with
  | update id input =>
    refine .note (transcript_progress (by simp)) (.request fun _ => ?_)
    exact .note (transcript_log (by simp)) (.done _)
  | replace id input =>
    refine .note (transcript_progress (by simp)) (.request fun _ => .request fun created => ?_)
    exact .note (transcript_log (by simp)) (.note (transcript_progress (by simp)) (.done _))

theorem createIn_performs (o : Order) {group : String} {launch : PlannedLaunch}
    (planned : Plan.planLaunch o.deployment o.resolver group = .ok launch) (i total : Nat) :
    (o.createIn group i total).Performs ((Task.create launch).procedure o) := by
  obtain ⟨rfl, built⟩ := Plan.planLaunch_eq_ok planned
  have built' : o.builder.forLaunch launch.group o.deployment.guest = .ok launch.input := built
  rw [createIn, built']
  refine .note (transcript_progress (by simp)) (.request fun m => ?_)
  exact .note (transcript_log (by simp))
    (.note (transcript_progress (by simp)) (o.gate_performs m _))

theorem createAll_works (o : Order) (groups : List String) (total i : Nat) :
    (o.createAll total i groups).Works o
      ((made (Plan.planLaunch o.deployment o.resolver) groups).map .create)
      (.ofExcept (groups.mapM (Plan.planLaunch o.deployment o.resolver))) := by
  induction groups generalizing i with
  | nil => exact .done _
  | cons group rest ih =>
    rw [createAll, made]
    cases planned : Plan.planLaunch o.deployment o.resolver group with
    | error e =>
      obtain ⟨cause, unbuilt, rfl⟩ := Plan.planLaunch_eq_error planned
      have unbuilt' : o.builder.forLaunch group o.deployment.guest = .error cause := unbuilt
      rw [mapM_cons_eq_error.mpr (.inl planned), createIn, unbuilt']
      exact .bind_error (.note (transcript_progress (by simp)) (.done _))
    | ok launch =>
      have first : (o.createIn group i total).Works o [.create launch] (.ok ()) :=
        .of_performs (o.createIn_performs planned i total) (by simp)
      have all : Exit.ofExcept ((group :: rest).mapM (Plan.planLaunch o.deployment o.resolver)) =
          .ofExcept (rest.mapM (Plan.planLaunch o.deployment o.resolver)) := by
        cases later : rest.mapM (Plan.planLaunch o.deployment o.resolver) with
        | ok launches =>
          rw [mapM_cons_eq_ok.mpr ⟨_, _, planned, later, rfl⟩]
          rfl
        | error e => rw [mapM_cons_eq_error.mpr (.inr ⟨_, planned, later⟩)]
      rw [all]
      exact first.bind fun _ => ih (i + 1)

theorem destroyAll_works (o : Order) (machines : List Machine) :
    (destroyAll machines).Works o (machines.map .remove) (.ok ()) := by
  induction machines with
  | nil => exact .done _
  | cons m rest ih =>
    have first : (Script.request (.destroy m.id) (.destroy m true)).Works o [.remove m] (.ok ()) :=
      .of_performs (.single _ _) (by simp)
    exact .note (transcript_log (by simp)) (first.bind fun _ => ih)

/-- Only a strategy that stops at the first failure waits for machines. -/
theorem failFast_of_readiness {o : Order} {m : Machine} {calm : Prop} {x : List Event} {stop : Stop}
    (stops : (o.readiness m).Stops calm x stop) : o.strategy.failurePolicy = .failFast := by
  rw [readiness] at stops
  cases strategy : o.strategy with
  | rolling => rfl
  | immediate =>
    rw [strategy] at stops
    cases stops

def afterEntry (o : Order) (total i : Nat) (entry : Entry) (rest : List Entry) :
    Exit Machine → Script Unit
  | .ok m => do
    o.gate m (formatIndex i total)
    o.applyAll total (i + 1) rest
  | .panic text => .done (.panic text)
  | .error .cancelled => fail .cancelled
  | .error e =>
    match o.strategy.failurePolicy with
    | .failFast => fail e
    | .bestEffort => do
      log .warn "Continuing after error"
        [("machine_id", .text entry.machine.id.text), ("error", .text e.message)]
      progress ("Continuing after error: " ++ e.message)
      o.applyAll total (i + 1) rest

theorem applyAll_cons (o : Order) (total i : Nat) (entry : Entry) (rest : List Entry) :
    o.applyAll total i (entry :: rest) =
      ((apply entry (formatIndex i total)).attempt >>= o.afterEntry total i entry rest) := by
  refine bind_congr fun exit => ?_
  cases exit with
  | ok m => rfl
  | panic text => rfl
  | error e => cases e <;> rfl

theorem afterEntry_failFast {o : Order} {total i : Nat} {entry : Entry} {rest : List Entry}
    (policy : o.strategy.failurePolicy = .failFast) (e : DeployError) :
    o.afterEntry total i entry rest (.error e) = fail e := by
  cases e <;> simp [afterEntry, policy]

/-- What is told before the next entry is tried. -/
theorem afterEntry_bestEffort {o : Order} {total i : Nat} {entry : Entry} {rest : List Entry}
    {e : DeployError} (policy : o.strategy.failurePolicy = .bestEffort) (other : e ≠ .cancelled) :
    o.afterEntry total i entry rest (.error e) = narrate
      [.log ⟨.warn, "Continuing after error",
        [("machine_id", .text entry.machine.id.text), ("error", .text e.message)]⟩,
        leftBehindNote e]
      (o.applyAll total (i + 1) rest) := by
  cases e with
  | cancelled => exact absurd rfl other
  | _ =>
    simp only [afterEntry, policy]
    rfl

section Entries

variable {o : Order} {entry : Entry} {rest : List Entry} {calm : Prop} {total i : Nat}
  {x y : List Event} {r : RunEnd Unit}

/-- An entry that was carried out is done once its machine is ready. -/
theorem work_after_ok {m : Machine} (whole : entry.procedure.Done x m)
    (ih : (o.applyAll total (i + 1) rest).Works o (rest.map .settle) (.ok ()))
    (h : (o.afterEntry total i entry rest (.ok m)).Speaks calm y r) :
    Work o calm (.ok ()) ((entry :: rest).map .settle) (x ++ y) r := by
  rcases (o.gate_performs m _).bind_cases h with
    ⟨⟨⟩, ready, y, isReady, told, rfl⟩ | ⟨stop, stops, rfl⟩
  · rw [← List.append_assoc]
    exact .past (.done (whole.andThen isReady)) (ih.work told)
  · -- A strategy that waits leaves no entry behind.
    refine .stopped (.andThen_right whole stops) fun _ _ _ _ bestEffort => ?_
    rw [failFast_of_readiness stops] at bestEffort
    cases bestEffort

/-- An entry that failed ends the work or is left behind. -/
theorem work_after_error {e : DeployError} (stops : entry.procedure.Stops calm x (.error e))
    (ih : (o.applyAll total (i + 1) rest).Works o (rest.map .settle) (.ok ()))
    (h : (o.afterEntry total i entry rest (.error e)).Speaks calm y r) :
    Work o calm (.ok ()) ((entry :: rest).map .settle) (x ++ y) r := by
  cases policy : o.strategy.failurePolicy with
  | failFast =>
    rw [afterEntry_failFast policy] at h
    obtain ⟨rfl, rfl⟩ := h.done_inv
    rw [List.append_nil]
    exact .stopped_settle stops fun _ _ bestEffort => by simp [policy] at bestEffort
  | bestEffort =>
    by_cases cancelled : e = .cancelled
    · subst cancelled
      obtain ⟨rfl, rfl⟩ := h.done_inv
      rw [List.append_nil]
      refine .stopped_settle stops fun e eq _ => ?_
      cases eq
      rfl
    · rw [afterEntry_bestEffort policy cancelled] at h
      obtain ⟨y, rfl, told⟩ := (h.skip (transcript_log (by simp))).note_inv
      rw [transcript_leftBehindNote]
      have isPast : Past o calm (.settle entry) (x ++ [.note (leftBehindNote e)]) :=
        .leftBehind policy cancelled stops.andThen_left
      rw [← List.append_assoc]
      exact .past isPast (ih.work told)

end Entries

theorem applyAll_works (o : Order) (total i : Nat) (entries : List Entry) :
    (o.applyAll total i entries).Works o (entries.map .settle) (.ok ()) := by
  induction entries generalizing i with
  | nil => exact .done _
  | cons entry rest ih =>
    constructor
    intro calm x r h
    rw [applyAll_cons] at h
    rcases h.attempt_bind_inv with ⟨exit, x, y, tried, told, rfl⟩ | ⟨hanging, rfl⟩
    · rcases (apply_performs entry _).cases tried with ⟨m, whole, eq⟩ | ⟨stop, stops, eq⟩
      · cases eq
        exact work_after_ok whole (ih _) told
      · cases stop with
        | error e =>
          cases eq
          exact work_after_error stops (ih _) told
        | panic text =>
          cases eq
          obtain ⟨rfl, rfl⟩ := told.done_inv
          rw [List.append_nil]
          exact Work.stopped_settle stops fun e eq => by cases eq
        | hung => cases eq
    · rcases (apply_performs entry _).cases hanging with ⟨m, _, eq⟩ | ⟨stop, stops, eq⟩
      · cases eq
      · obtain rfl := Stop.hung_eq_toEnd.mp eq
        exact .stopped_settle stops fun e eq => by cases eq

theorem updateMachines_works (o : Order) (entries : List Entry) :
    (o.updateMachines entries).Works o (entries.map .settle) (.ok ()) := by
  have told : (progress "  Finished deploying").Works o [] (.ok ()) :=
    .note (transcript_progress (by simp)) (.done _)
  have works := (o.applyAll_works entries.length 0 entries).bind fun _ => told
  rw [List.append_nil] at works
  exact .note (transcript_progress (by simp)) works

theorem planEntries_works (o : Order) {updates : List PlannedUpdate}
    (planned : (Plan.remainingOf o.deployment o.resolver).mapM
      (Plan.planUpdate o.deployment o.resolver) = .ok updates) :
    (o.planEntries (Plan.remainingOf o.deployment o.resolver) >>= o.updateMachines).Works o
      ((List.zipWith (fun m update => ⟨m, update.plan⟩)
        (Plan.remainingOf o.deployment o.resolver) updates).map .settle) (.ok ()) := by
  rw [planEntries_eq o planned, narrate_bind]
  exact .narrate (fun _ => quiet_warnings) (o.updateMachines_works _)

theorem planEntries_works_of_error (o : Order) {e : DeployError}
    (refused : (Plan.remainingOf o.deployment o.resolver).mapM
      (Plan.planUpdate o.deployment o.resolver) = .error e) :
    (o.planEntries (Plan.remainingOf o.deployment o.resolver) >>= o.updateMachines).Works o []
      (.error e) := by
  obtain ⟨updates, told⟩ := planEntries_fails o refused
  rw [told, narrate_bind]
  exact .narrate (fun _ => quiet_warnings) (.done _)

theorem createNeeded_works (o : Order) (diff : GroupDiff) :
    (o.createNeeded diff).Works o
      ((made (Plan.planLaunch o.deployment o.resolver) diff.groupsNeedingMachines).map .create)
      (.ofExcept (diff.groupsNeedingMachines.mapM
        (Plan.planLaunch o.deployment o.resolver))) := by
  rw [createNeeded]
  split
  · rename_i none
    rw [List.isEmpty_iff.mp none]
    exact .done _
  · have told : (progress "Finished launching new machines").Works o [] (.ok ()) :=
      .note (transcript_progress (by simp)) (.done _)
    have created := o.createAll_works diff.groupsNeedingMachines
      diff.groupsNeedingMachines.length 0
    cases planned : diff.groupsNeedingMachines.mapM
        (Plan.planLaunch o.deployment o.resolver) with
    | error e =>
      rw [planned] at created
      exact created.bind_error
    | ok launches =>
      rw [planned] at created
      have works := created.bind fun _ => told
      rwa [List.append_nil] at works

/-- The work of the deploy pass, once it is told what it comes to. -/
def carryOut (o : Order) : Script Unit := do
  destroyAll o.diff.machinesToRemove
  o.createNeeded o.diff
  o.planEntries (Plan.remainingOf o.deployment o.resolver) >>= o.updateMachines

section Deploys

variable {o : Order} (deploys : o.settings.restartOnly = false)
include deploys

theorem diff_of_deploys : o.diff = Plan.diffOf o.deployment o.resolver := by
  simp [diff, deploys]

theorem plan_of_deploys : o.plan = Plan.deploy o.deployment o.resolver := by
  simp [plan, deploys]

theorem converge_eq_carryOut : o.converge = narrate (changeNotes o.diff) o.carryOut := by
  rw [converge_eq, prepare, tellChanges_eq, narrate_bind, narrate_bind, diff_of_deploys deploys,
    carryOut, diff_of_deploys deploys]
  simp only [bind_assoc, pure_bind]

theorem carryOut_works : o.carryOut.Works o o.tasks o.finish := by
  have diff := diff_of_deploys deploys
  have plan := plan_of_deploys deploys
  have created := o.createNeeded_works o.diff
  rw [carryOut, tasks, List.append_assoc, finish]
  refine (o.destroyAll_works _).bind fun _ => ?_
  cases planned : Plan.deploy o.deployment o.resolver with
  | ok whole =>
    obtain ⟨launches, updates, launched, updated, rfl⟩ := Plan.deploy_eq_ok_iff.mp planned
    rw [diff, launched, ← diff] at created
    have entries : o.entries = List.zipWith (fun m update => ⟨m, update.plan⟩)
        (Plan.remainingOf o.deployment o.resolver) updates := by
      rw [Order.entries, plan, planned]
      rfl
    rw [plan, planned, entries]
    exact created.bind fun _ => o.planEntries_works updated
  | error e =>
    have entries : o.entries = [] := by rw [Order.entries, plan, planned]
    rw [plan, planned, entries]
    rcases Plan.deploy_eq_error_iff.mp planned with unlaunched | ⟨launches, launched, unplanned⟩
    · rw [diff, unlaunched, ← diff] at created
      rw [List.map_nil, List.append_nil]
      exact created.bind_error
    · rw [diff, launched, ← diff] at created
      exact created.bind fun _ => o.planEntries_works_of_error unplanned

end Deploys

def body (o : Order) : Script Unit :=
  if o.settings.restartOnly then
    o.updateMachines (o.deployment.machines.map fun m => ⟨m, o.builder.forRestart m⟩)
  else o.converge

def preface (o : Order) : List Note := if o.settings.restartOnly then [] else changeNotes o.diff

/-- A restart settles every machine. -/
theorem tasks_of_restarts {o : Order} (restarts : o.settings.restartOnly = true) :
    o.tasks = (o.deployment.machines.map fun m =>
      ⟨m, o.builder.forRestart m⟩).map Task.settle := by
  have diff : o.diff = {} := by simp [Order.diff, restarts]
  have plan : o.plan = .ok (.restart o.deployment o.resolver) := by simp [Order.plan, restarts]
  have entries : o.entries =
      o.deployment.machines.map fun m => ⟨m, o.builder.forRestart m⟩ := by
    rw [Order.entries, plan]
    simp [Plan.entries, Plan.restart, GroupDiff.remaining, List.zipWith_map_right, builder]
  rw [tasks, entries, launches, diff]
  rfl

theorem body_eq (o : Order) :
    ∃ script, o.body = narrate o.preface script ∧ script.Works o o.tasks o.finish := by
  rw [body, preface]
  cases restarts : o.settings.restartOnly with
  | true =>
    have finish : o.finish = .ok () := by simp [Order.finish, Order.plan, restarts, Exit.ofExcept]
    refine ⟨_, rfl, ?_⟩
    rw [tasks_of_restarts restarts, finish]
    exact o.updateMachines_works _
  | false => exact ⟨_, converge_eq_carryOut restarts, carryOut_works restarts⟩

end Order

end Rollout
