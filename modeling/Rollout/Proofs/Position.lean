import Rollout.Proofs.Course

/-!
# Positions in a pass

The calls that have succeeded so far tell where in a pass the next one stands: which machines
are gone, which were created, and so which task it belongs to. `Order.blame` reads off the error
that a failure of the call counts as, and `Order.isFatal` whether it stops the pass.
-/

namespace Rollout

def Event.destroyed? : Event → Option Machine
  | .ended .pass (.destroy m _) (.ok _) => some m
  | _ => none

def Event.launched? : Event → Option Machine
  | .ended .pass (.launch _) (.ok m) => some m
  | _ => none

/-- The machines that the pass has destroyed. -/
def destroyed (events : List Event) : List Machine := events.filterMap Event.destroyed?

def launched (events : List Event) : List Machine := events.filterMap Event.launched?

@[simp] theorem destroyed_append (before later : List Event) :
    destroyed (before ++ later) = destroyed before ++ destroyed later :=
  List.filterMap_append

@[simp] theorem launched_append (before later : List Event) :
    launched (before ++ later) = launched before ++ launched later :=
  List.filterMap_append

@[simp] theorem destroyed_nil : destroyed [] = [] := rfl

@[simp] theorem launched_nil : launched [] = [] := rfl

@[simp] theorem destroyed_began (call : Call) (rest : List Event) :
    destroyed (.began .pass call :: rest) = destroyed rest := rfl

@[simp] theorem launched_began (call : Call) (rest : List Event) :
    launched (.began .pass call :: rest) = launched rest := rfl

/-- After either events the same machines are gone, and the same ones are new. -/
structure SameMachines (events other : List Event) : Prop where
  gone : destroyed events = destroyed other
  new : launched events = launched other

namespace SameMachines

variable {a b c : List Event}

theorem refl (events : List Event) : SameMachines events events := ⟨rfl, rfl⟩

theorem symm (same : SameMachines a b) : SameMachines b a := ⟨same.gone.symm, same.new.symm⟩

theorem trans (first : SameMachines a b) (second : SameMachines b c) : SameMachines a c :=
  ⟨first.gone.trans second.gone, first.new.trans second.new⟩

theorem append {before other : List Event} (first : SameMachines before other)
    (second : SameMachines a b) : SameMachines (before ++ a) (other ++ b) := by
  constructor
  · rw [destroyed_append, destroyed_append, first.gone, second.gone]
  · rw [launched_append, launched_append, first.new, second.new]

theorem began (events : List Event) (call : Call) :
    SameMachines (events ++ [.began .pass call]) events :=
  ⟨by simp, by simp⟩

theorem of_transcript (events : List Event) : SameMachines (transcript events) events := by
  constructor
  · refine filterMap_transcript (fun e m gone => ?_) events
    unfold Event.destroyed? at gone
    split at gone
    · rfl
    · cases gone
  · refine filterMap_transcript (fun e m new => ?_) events
    unfold Event.launched? at new
    split at new
    · rfl
    · cases new

end SameMachines

namespace Order

theorem sameMachines_foreword (o : Order) : SameMachines o.foreword [] :=
  ⟨o.filterMap_foreword fun _ => rfl, o.filterMap_foreword fun _ => rfl⟩

theorem sameMachines_admitting (o : Order) : SameMachines o.admitting [] := by
  rw [admitting]
  split
  · exact ⟨rfl, rfl⟩
  · exact ⟨rfl, rfl⟩

/-- What a pass does before its first task leaves the machines alone. -/
theorem sameMachines_work (o : Order) (current : List Event) (call : Call) :
    SameMachines (o.admitting ++ (o.foreword ++ (current ++ [.began .pass call]))) current :=
  o.sameMachines_admitting.append (o.sameMachines_foreword.append (.began current call))

/-- Whether machines of undeclared groups are left to be destroyed. -/
def isRemoving (o : Order) (before : List Event) : Bool :=
  (destroyed before).length < o.diff.machinesToRemove.length

def nextGroup (o : Order) (before : List Event) : Option String :=
  o.diff.groupsNeedingMachines[(launched before).length]?

/-- Whether a failure of the call stops the pass. Where the strategy goes on after a failure,
that is not so for calls that update the machines that stay, and never for what is carried
through in the end. -/
def isFatal (o : Order) (before : List Event) : Call → Bool
  | .setStatus _ status => status = .running
  | .releaseCommand => true
  | .acquire .. => true
  | .release _ => false
  | .destroy .. => o.strategy = .rolling || o.isRemoving before
  | .launch _ => o.strategy = .rolling || (o.nextGroup before).isSome
  | .update .. => o.strategy = .rolling
  | .waitForState .. => true
  | .waitForHealthchecks .. => true

/-- The error that a failure of the call counts as. Once every group has its machine, a launch
replaces the machine that was destroyed last. -/
def blame (o : Order) (before : List Event) (call : Call) (failure : Failure) :
    Option DeployError :=
  match call with
  | .setStatus _ .running => some (.releaseStatus failure)
  | .setStatus _ .complete => some (.finalReleaseStatus failure)
  | .setStatus _ .failed => none
  | .releaseCommand => some (.releaseCommand failure)
  | .acquire .. => some (.leaseAcquisition failure)
  | .release _ => none
  | .destroy m _ => some (.destroy m.id failure)
  | .launch _ =>
    match o.nextGroup before with
    | some group => some (.create group (o.createHint failure) failure)
    | none => (destroyed before).getLast?.map fun m => .launch m.id failure
  | .update m _ => some (.update m.id failure)
  | .waitForState m .. => some (.wait m.id .started failure)
  | .waitForHealthchecks m _ => some (.wait m.id .healthy failure)

section Congruence

variable {o : Order} {call : Call} {failure : Failure} {before before' : List Event}

/-- What a failure means depends on the machines that are gone and those that are new. -/
theorem blame_congr (same : SameMachines before before') :
    o.blame before call failure = o.blame before' call failure := by
  cases call <;> simp [Order.blame, nextGroup, same.gone, same.new]

theorem isFatal_congr (same : SameMachines before before') :
    o.isFatal before call = o.isFatal before' call := by
  cases call <;> simp [isFatal, isRemoving, nextGroup, same.gone, same.new]

end Congruence

end Order

/-- A failure of a call that admits the pass stops it. -/
theorem Order.admission_next {o : Order} {u : List Event} {call : Call}
    {blame : Failure → DeployError} (next : o.admission.Next u call blame) :
    (∀ before failure, o.blame before call failure = some (blame failure)) ∧
      ∀ before, o.isFatal before call = true := by
  rcases admission_next_inv next with ⟨_, rfl, rfl⟩ | ⟨_, rfl, rfl⟩
  · exact ⟨fun _ _ => rfl, fun _ => rfl⟩
  · exact ⟨fun _ _ => rfl, fun _ => rfl⟩

theorem Strategy.failurePolicy_eq_bestEffort {strategy : Strategy} :
    strategy.failurePolicy = .bestEffort ↔ strategy = .immediate := by
  cases strategy <;> simp [Strategy.failurePolicy]

section Reaches

variable {o : Order} {calm : Prop} {finish : Exit Unit} {tasks : List Task} {x u v : List Event}
  {r : RunEnd Unit} {call : Call} {failure : Failure}

/-- After these events the tasks before this one are past, and the call is its next one. -/
inductive Reaches (o : Order) (calm : Prop) (tasks : List Task) :
    List Event → Task → Call → (Failure → DeployError) → Prop
  | intro {before rest segments task current call blame} :
    tasks = before ++ task :: rest → List.Forall₂ (Past o calm) before segments →
      (task.procedure o).Next current call blame →
        Reaches o calm tasks (segments.flatten ++ current) task call blame

theorem Reaches.here {task : Task} {rest : List Task} {blame : Failure → DeployError}
    (next : (task.procedure o).Next u call blame) :
    Reaches o calm (task :: rest) u task call blame := by
  have reaches : Reaches o calm ([] ++ task :: rest) ([].flatten ++ u) task call blame :=
    .intro rfl .nil next
  exact reaches

theorem Reaches.later {first task : Task} {blame : Failure → DeployError}
    (past : Past o calm first x) (reaches : Reaches o calm tasks u task call blame) :
    Reaches o calm (first :: tasks) (x ++ u) task call blame := by
  obtain ⟨rfl, pasts, next⟩ := reaches
  rw [← List.append_assoc]
  exact .intro rfl (.cons past pasts) next

theorem Past.next {task : Task} (past : Past o calm task x)
    (eq : x = u ++ .began .pass call :: v) : ∃ blame, (task.procedure o).Next u call blame := by
  cases past with
  | done whole => exact whole.next eq
  | @leftBehind _ _ e _ _ stops =>
    rcases split_append eq with ⟨mid, _, tail⟩ | ⟨mid, head, _⟩
    · have mem : Event.began .pass call ∈ [.note (leftBehindNote e)] := by simp [tail]
      simp at mem
    · exact stops.next head

/-- A call that is begun during the work is the next one of a task. -/
theorem Work.next (work : Work o calm finish tasks x r) (eq : x = u ++ .began .pass call :: v) :
    ∃ task blame, Reaches o calm tasks u task call blame := by
  induction work generalizing u with
  | finished => simp at eq
  | past isPast _ ih =>
    rcases split_append eq with ⟨mid, rfl, tail⟩ | ⟨mid, head, _⟩
    · obtain ⟨task, blame, reaches⟩ := ih tail
      exact ⟨task, blame, reaches.later isPast⟩
    · obtain ⟨blame, next⟩ := isPast.next head
      exact ⟨_, blame, .here next⟩
  | stopped stops _ =>
    obtain ⟨blame, next⟩ := stops.next eq
    exact ⟨_, blame, .here next⟩

/-- Among the calls of a task that is past, none has failed but one of an entry that was left
behind. -/
theorem Past.failed {task : Task} (past : Past o calm task x)
    (eq : x = u ++ .ended .pass call (.failed failure) :: v) : ∃ before blame,
      u = before ++ [.began .pass call] ∧ (task.procedure o).Next before call blame ∧
        o.strategy = .immediate ∧ ∃ entry, task = .settle entry := by
  cases past with
  | done whole =>
    have mem : Event.ended .pass call (.failed failure) ∈ x := by simp [eq]
    exact absurd mem whole.succeed.failed_notMem
  | @leftBehind entry _ e policy _ stops =>
    rcases split_append eq with ⟨mid, _, tail⟩ | ⟨mid, head, _⟩
    · have mem : Event.ended .pass call (.failed failure) ∈ [.note (leftBehindNote e)] := by
        simp [tail]
      simp at mem
    · obtain ⟨before, blame, next, rfl, _, _⟩ := stops.failed head
      exact ⟨before, blame, rfl, next, Strategy.failurePolicy_eq_bestEffort.mp policy, entry, rfl⟩

/-- A failure of a call stops the work, unless the strategy leaves the entry behind. -/
theorem Work.failed (work : Work o calm finish tasks x r)
    (eq : x = u ++ .ended .pass call (.failed failure) :: v) : ∃ before task blame,
      u = before ++ [.began .pass call] ∧ Reaches o calm tasks before task call blame ∧
      ((o.strategy = .immediate ∧ ∃ entry, task = .settle entry) ∨
        (v = [] ∧ r = .exit (.error (blame failure)) ∧
          (o.strategy = .immediate → ∀ entry, task = .settle entry →
            blame failure = .cancelled))) := by
  induction work generalizing u with
  | finished => simp at eq
  | @past task _ _ _ _ isPast _ ih =>
    rcases split_append eq with ⟨mid, rfl, tail⟩ | ⟨mid, head, _⟩
    · obtain ⟨before, task, blame, rfl, reaches, ending⟩ := ih tail
      exact ⟨_, task, blame, (List.append_assoc ..).symm, reaches.later isPast, ending⟩
    · obtain ⟨before, blame, rfl, next, left⟩ := isPast.failed head
      exact ⟨before, task, blame, rfl, .here next, .inl left⟩
  | @stopped task _ _ _ stops fatal =>
    obtain ⟨before, blame, next, rfl, rfl, rfl⟩ := stops.failed eq
    refine ⟨before, task, blame, rfl, .here next, .inr ⟨rfl, rfl, fun immediate entry same => ?_⟩⟩
    exact fatal entry _ same rfl (Strategy.failurePolicy_eq_bestEffort.mpr immediate)

/-- Work that ends with an error was cancelled, or a call of it failed, or there was no more to
do. -/
theorem Work.error {e : DeployError} (work : Work o calm finish tasks x (.exit (.error e))) :
    finish = .error e ∨ e = .cancelled ∨ ∃ before task call blame failure,
      x = before ++ [.began .pass call, .ended .pass call (.failed failure)] ∧
      Reaches o calm tasks before task call blame ∧ e = blame failure ∧
      (o.strategy = .immediate → ∀ entry, task = .settle entry → e = .cancelled) := by
  generalize ending : RunEnd.exit (Exit.error e) = r at work
  induction work with
  | finished =>
    cases ending
    exact .inl rfl
  | past isPast _ ih =>
    rcases ih ending with none | cancelled |
      ⟨before, task, call, blame, failure, rfl, reaches, rest⟩
    · exact .inl none
    · exact .inr (.inl cancelled)
    · exact .inr (.inr ⟨_, task, call, blame, failure, (List.append_assoc ..).symm,
        reaches.later isPast, rest⟩)
  | @stopped task _ _ stop stops fatal =>
    obtain rfl : Stop.error e = stop := Stop.toEnd_inj.mp ending
    rcases stops.error with ⟨_, cancelled⟩ | ⟨before, call, blame, failure, next, rfl, rfl⟩
    · exact .inr (.inl cancelled)
    · refine .inr (.inr ⟨before, task, call, blame, failure, rfl, .here next, rfl, ?_⟩)
      intro immediate entry same
      exact fatal entry _ same rfl (Strategy.failurePolicy_eq_bestEffort.mpr immediate)

end Reaches

theorem forall₂_of_append_left {α β : Type} {R : α → β → Prop} {as bs : List α} {cs : List β}
    (related : List.Forall₂ R (as ++ bs) cs) :
    ∃ first second, cs = first ++ second ∧ List.Forall₂ R as first ∧ List.Forall₂ R bs second := by
  induction as generalizing cs with
  | nil => exact ⟨[], cs, rfl, .nil, related⟩
  | cons a as ih =>
    cases related with
    | @cons _ c _ _ holds related =>
      obtain ⟨first, second, rfl, left, right⟩ := ih related
      exact ⟨c :: first, second, rfl, .cons holds left, right⟩

section Counting

variable {o : Order} {calm : Prop} {x : List Event} {segments : List (List Event)}

/-- Tasks other than entries are past only once they are done. -/
theorem dones_of_pasts {tasks : List Task} (unsettling : ∀ entry, .settle entry ∉ tasks)
    (pasts : List.Forall₂ (Past o calm) tasks segments) :
    List.Forall₂ (Finished o) tasks segments := by
  induction pasts with
  | nil => exact .nil
  | @cons task _ tasks _ past _ ih =>
    have others : ∀ entry, .settle entry ∉ tasks := fun entry mem =>
      unsettling entry (List.mem_cons_of_mem task mem)
    cases past with
    | done whole => exact .cons whole (ih others)
    | leftBehind => exact absurd List.mem_cons_self (unsettling _)

theorem readiness_done {m : Machine} (whole : (o.readiness m).Done x ()) :
    destroyed x = [] ∧ launched x = [] := by
  rw [Order.readiness] at whole
  split at whole
  · cases whole with
    | call whole =>
      split at whole
      · cases whole
        exact ⟨rfl, rfl⟩
      · cases whole with
        | call whole =>
          cases whole
          exact ⟨rfl, rfl⟩
  · cases whole
    exact ⟨rfl, rfl⟩

theorem destroyed_of_removals {machines : List Machine}
    (dones : List.Forall₂ (Finished o) (machines.map .remove) segments) :
    destroyed segments.flatten = machines ∧ launched segments.flatten = [] := by
  induction machines generalizing segments with
  | nil =>
    cases dones
    exact ⟨rfl, rfl⟩
  | cons m machines ih =>
    obtain ⟨x, rest, whole, others, rfl⟩ := List.forall₂_cons_left_iff.mp dones
    obtain ⟨gone, new⟩ := ih others
    have only : x = exchange (.destroy m true) () := by
      cases whole with
      | call whole =>
        cases whole
        rfl
    rw [List.flatten_cons, destroyed_append, launched_append, gone, new, only]
    exact ⟨rfl, rfl⟩

theorem launched_of_creations {launches : List PlannedLaunch}
    (dones : List.Forall₂ (Finished o) (launches.map .create) segments) :
    destroyed segments.flatten = [] ∧
      (launched segments.flatten).length = launches.length := by
  induction launches generalizing segments with
  | nil =>
    cases dones
    exact ⟨rfl, rfl⟩
  | cons l launches ih =>
    obtain ⟨x, rest, whole, others, rfl⟩ := List.forall₂_cons_left_iff.mp dones
    obtain ⟨gone, new⟩ := ih others
    have one : destroyed x = [] ∧ (launched x).length = 1 := by
      cases whole with
      | @call _ _ _ created _ _ whole =>
        obtain ⟨none, none'⟩ := readiness_done whole
        rw [destroyed_append, launched_append, none, none']
        exact ⟨rfl, rfl⟩
    rw [List.flatten_cons, destroyed_append, launched_append, gone, one.1, List.length_append,
      one.2, new, List.length_cons, Nat.add_comm]
    exact ⟨rfl, rfl⟩

end Counting

namespace Order

theorem made_eq_of_mapM {ε α β : Type} {f : α → Except ε β} {as : List α} {bs : List β}
    (all : as.mapM f = .ok bs) : made f as = bs := by
  induction as generalizing bs with
  | nil =>
    cases all
    rfl
  | cons a as ih =>
    obtain ⟨b, rest, first, later, rfl⟩ := mapM_cons_eq_ok.mp all
    rw [made, first, ih later]

/-- The machines to be created are for the first of the groups that need one. -/
theorem groups_of_launches (o : Order) :
    o.launches.map PlannedLaunch.group <+: o.diff.groupsNeedingMachines := by
  rw [launches]
  induction o.diff.groupsNeedingMachines with
  | nil => exact List.prefix_rfl
  | cons group groups ih =>
    rw [made]
    cases planned : Plan.planLaunch o.deployment o.resolver group with
    | error e => exact List.nil_prefix
    | ok launch =>
      rw [List.map_cons, (Plan.planLaunch_eq_ok planned).1]
      exact List.cons_prefix_cons.mpr ⟨rfl, ih⟩

section Planned

variable {o : Order} {plan : Plan} (planned : o.plan = .ok plan)
include planned

theorem diff_of_plan : o.diff = plan.diff := by
  cases restarts : o.settings.restartOnly with
  | true =>
    simp only [Order.plan, restarts, if_true, Except.ok.injEq] at planned
    rw [diff, restarts, ← planned]
    rfl
  | false =>
    rw [plan_of_deploys restarts] at planned
    rw [diff_of_deploys restarts, Plan.diff_of_deploy planned]

theorem mapM_groups : o.diff.groupsNeedingMachines.mapM
    (Plan.planLaunch o.deployment o.resolver) = .ok plan.launches := by
  cases restarts : o.settings.restartOnly with
  | true =>
    simp only [Order.plan, restarts, if_true, Except.ok.injEq] at planned
    rw [diff, restarts, ← planned]
    rfl
  | false =>
    rw [plan_of_deploys restarts] at planned
    rw [diff_of_deploys restarts, mapM_eq_ok_iff]
    exact Plan.planLaunch_forall₂ planned

theorem launches_of_plan : o.launches = plan.launches := made_eq_of_mapM (mapM_groups planned)

/-- Where there is a plan, every group that needs a machine gets one. -/
theorem length_launches : o.launches.length = o.diff.groupsNeedingMachines.length := by
  rw [launches_of_plan planned]
  exact (mapM_eq_ok_iff.mp (mapM_groups planned)).length_eq.symm

theorem entries_of_plan : o.entries = plan.entries o.deployment.machines := by
  rw [Order.entries, planned]

theorem finish_of_plan : o.finish = .ok () := by
  rw [finish, planned]
  rfl

end Planned

end Order

section Position

variable {o : Order} {calm : Prop} {before u : List Event} {call : Call}
  {blame : Failure → DeployError} {segments : List (List Event)} {done rest : List Task}

/-- What the events before a call tell about its failure. -/
structure Reads (o : Order) (before : List Event) (task : Task) (call : Call)
    (blame : Failure → DeployError) : Prop where
  blame : ∀ failure, o.blame before call failure = some (blame failure)
  fatal : o.isFatal before call = true ↔
    (o.strategy = .immediate → ∀ entry, task ≠ .settle entry)

theorem Reads.of_readiness {m : Machine} {task : Task}
    (next : (o.readiness m).Next u call blame) : Reads o before task call blame := by
  rw [Order.readiness] at next
  cases strategy : o.strategy with
  | immediate =>
    rw [strategy] at next
    cases next
  | rolling =>
    rw [strategy] at next
    cases next with
    | here => exact ⟨fun _ => rfl, by simp [Order.isFatal, strategy]⟩
    | later next =>
      split at next
      · cases next
      · cases next with
        | here => exact ⟨fun _ => rfl, by simp [Order.isFatal, strategy]⟩
        | later next => cases next

theorem Reads.of_remove {m : Machine} (removing : u = [] → o.isRemoving before = true)
    (next : ((Task.remove m).procedure o).Next u call blame) :
    Reads o before (.remove m) call blame := by
  cases next with
  | here => exact ⟨fun _ => rfl, by simp [Order.isFatal, removing rfl]⟩
  | later next => cases next

/-- A group's machine is launched first, and then it is waited for. -/
theorem Reads.of_create {launch : PlannedLaunch}
    (creating : u = [] → o.nextGroup before = some launch.group)
    (next : ((Task.create launch).procedure o).Next u call blame) :
    Reads o before (.create launch) call blame := by
  cases next with
  | here =>
    have group := creating rfl
    exact ⟨fun _ => by simp [Order.blame, group], by simp [Order.isFatal, group]⟩
  | later next => exact .of_readiness next

theorem Reads.of_settle {entry : Entry} (removed : o.isRemoving before = false)
    (created : o.nextGroup before = none)
    (last : ∀ m rest, destroyed u = rest ++ [m] → (destroyed before).getLast? = some m)
    (next : ((Task.settle entry).procedure o).Next u call blame) :
    Reads o before (.settle entry) call blame := by
  have rolling : o.strategy = .rolling ↔ ¬ o.strategy = .immediate := by
    cases o.strategy <;> simp
  have unfolded : (entry.procedure.andThen o.readiness).Next u call blame := next
  rw [Entry.procedure] at unfolded
  cases plan : entry.plan with
  | update id input =>
    rw [plan] at unfolded
    cases unfolded with
    | here => exact ⟨fun _ => rfl, by simp [Order.isFatal, rolling]⟩
    | later next => exact .of_readiness next
  | replace id input =>
    rw [plan] at unfolded
    cases unfolded with
    | here => exact ⟨fun _ => rfl, by simp [Order.isFatal, rolling, removed]⟩
    | later next =>
      cases next with
      | here =>
        have gone := last entry.machine [] rfl
        exact ⟨fun _ => by simp [Order.blame, created, gone],
          by simp [Order.isFatal, rolling, created]⟩
      | later next => exact .of_readiness next

/-- The tasks before a removal are removals. -/
theorem tasks_eq_remove {m : Machine} (eq : o.tasks = done ++ .remove m :: rest) :
    ∃ machines later, o.diff.machinesToRemove = machines ++ m :: later ∧
      done = machines.map .remove := by
  rw [Order.tasks, List.append_assoc] at eq
  rcases split_append eq with ⟨mid, _, tail⟩ | ⟨mid, head, _⟩
  · have mem : Task.remove m ∈ o.launches.map .create ++ o.entries.map .settle := by simp [tail]
    simp at mem
  · obtain ⟨machines, _, whole, rfl, cut⟩ := List.map_eq_append_iff.mp head
    obtain ⟨m', later, rfl, same, _⟩ := List.map_eq_cons_iff.mp cut
    cases same
    exact ⟨machines, later, whole, rfl⟩

/-- The tasks before a creation are the removals and other creations. -/
theorem tasks_eq_create {launch : PlannedLaunch} (eq : o.tasks = done ++ .create launch :: rest) :
    ∃ launches later, o.launches = launches ++ launch :: later ∧
      done = o.diff.machinesToRemove.map .remove ++ launches.map .create := by
  rw [Order.tasks, List.append_assoc] at eq
  obtain ⟨mid, rfl, tail⟩ := split_later eq (by simp)
  rcases split_append tail with ⟨mid', _, tail⟩ | ⟨mid', head, _⟩
  · have mem : Task.create launch ∈ o.entries.map .settle := by simp [tail]
    simp at mem
  · obtain ⟨launches, _, whole, rfl, cut⟩ := List.map_eq_append_iff.mp head
    obtain ⟨launch', later, rfl, same, _⟩ := List.map_eq_cons_iff.mp cut
    cases same
    exact ⟨launches, later, whole, rfl⟩

/-- The tasks before an entry are all removals, all creations and other entries. -/
theorem tasks_eq_settle {entry : Entry} (eq : o.tasks = done ++ .settle entry :: rest) :
    ∃ entries later, o.entries = entries ++ entry :: later ∧
      done = o.diff.machinesToRemove.map .remove ++ o.launches.map .create ++
        entries.map .settle := by
  rw [Order.tasks] at eq
  obtain ⟨mid, rfl, tail⟩ := split_later eq (by simp)
  obtain ⟨entries, _, whole, rfl, cut⟩ := List.map_eq_append_iff.mp tail
  obtain ⟨entry', later, rfl, same, _⟩ := List.map_eq_cons_iff.mp cut
  cases same
  exact ⟨entries, later, whole, rfl⟩

/-- Where there are entries there is a plan. -/
theorem plan_of_entry {entry : Entry} (mem : entry ∈ o.entries) : ∃ plan, o.plan = .ok plan := by
  rw [Order.entries] at mem
  split at mem
  · exact ⟨_, ‹_›⟩
  · cases mem

theorem nextGroup_of_launches {launch : PlannedLaunch}
    (next : o.launches[(launched before).length]? = some launch) :
    o.nextGroup before = some launch.group := by
  obtain ⟨others, groups⟩ := o.groups_of_launches
  have short : (launched before).length < o.launches.length :=
    (List.getElem?_eq_some_iff.mp next).1
  rw [Order.nextGroup, ← groups, List.getElem?_append_left (by simpa using short),
    List.getElem?_map, next]
  rfl

/-- When it is a group's turn, as many machines were launched as groups came before. -/
theorem launches_of_pasts {launch : PlannedLaunch} (eq : o.tasks = done ++ .create launch :: rest)
    (pasts : List.Forall₂ (Past o calm) done segments) :
    o.launches[(launched segments.flatten).length]? = some launch := by
  obtain ⟨launches, later, whole, rfl⟩ := tasks_eq_create eq
  obtain ⟨first, second, rfl, removals, creations⟩ := forall₂_of_append_left pasts
  have removed := destroyed_of_removals (dones_of_pasts (by simp) removals)
  have created := launched_of_creations (dones_of_pasts (by simp) creations)
  have count : (launched (first ++ second).flatten).length = launches.length := by
    simp [removed.2, created.2]
  rw [count, whole]
  simp

/-- What has happened during the work tells what a failure of the next call means. -/
theorem Reaches.reads {task : Task} (reaches : Reaches o calm o.tasks u task call blame)
    (same : SameMachines before u) : Reads o before task call blame := by
  obtain ⟨gone, new⟩ := same
  obtain ⟨eq, pasts, next⟩ := reaches
  cases task with
  | remove m =>
    obtain ⟨machines, later, whole, rfl⟩ := tasks_eq_remove eq
    have removed := destroyed_of_removals (dones_of_pasts (by simp) pasts)
    refine .of_remove ?_ next
    rintro rfl
    rw [List.append_nil, removed.1] at gone
    simp [Order.isRemoving, gone, whole]
  | create launch =>
    refine .of_create ?_ next
    rintro rfl
    rw [List.append_nil] at new
    exact nextGroup_of_launches (new ▸ launches_of_pasts eq pasts)
  | settle entry =>
    obtain ⟨entries, later, whole, rfl⟩ := tasks_eq_settle eq
    have mem : entry ∈ o.entries := by simp [whole]
    obtain ⟨plan, planned⟩ := plan_of_entry mem
    obtain ⟨opening, third, rfl, both, _⟩ := forall₂_of_append_left pasts
    obtain ⟨first, second, rfl, removals, creations⟩ := forall₂_of_append_left both
    have removed := destroyed_of_removals (dones_of_pasts (by simp) removals)
    have created := launched_of_creations (dones_of_pasts (by simp) creations)
    refine .of_settle ?_ ?_ ?_ next
    · simp [Order.isRemoving, gone, removed.1]
    · have count := created.2
      rw [Order.length_launches planned] at count
      rw [Order.nextGroup, List.getElem?_eq_none_iff]
      simp only [new, launched_append, List.flatten_append, List.length_append, count]
      omega
    · intro m others last
      simp [gone, last]

/-- A launch whose failure names the group, or the machine, that its own input was planned for. -/
inductive BlamesOwn (o : Order) (before : List Event) (input : LaunchInput) (failure : Failure) :
    Prop
  | created {launch : PlannedLaunch} : o.launches[(launched before).length]? = some launch →
    launch.input = input → o.blame before (.launch input) failure =
      some (.create launch.group (o.createHint failure) failure) → BlamesOwn o before input failure
  | replaced {entry : Entry} {id : MachineId} : entry ∈ o.entries →
    entry.plan = .replace id input → (destroyed before).getLast? = some entry.machine →
      o.blame before (.launch input) failure = some (.launch entry.machine.id failure) →
        BlamesOwn o before input failure

/-- Whatever the events before it are counted for, a launch is blamed for its own task. -/
theorem Reaches.blamesOwn {task : Task} {input : LaunchInput}
    (reaches : Reaches o calm o.tasks u task (.launch input) blame)
    (same : SameMachines before u) (failure : Failure) : BlamesOwn o before input failure := by
  have means := (reaches.reads same).blame failure
  obtain ⟨gone, new⟩ := same
  obtain ⟨eq, pasts, next⟩ := reaches
  have none : ∀ {m w}, ¬ (o.readiness m).Next w (.launch input) blame :=
    fun next => Bool.false_ne_true (next.uses (o.readiness_waits _))
  cases task with
  | remove m =>
    cases next with
    | later next => cases next
  | create launch =>
    cases next with
    | here =>
      rw [List.append_nil] at new
      exact .created (new ▸ launches_of_pasts eq pasts) rfl means
    | later next => exact absurd next none
  | settle entry =>
    have mem : entry ∈ o.entries := by
      obtain ⟨entries, later, whole, _⟩ := tasks_eq_settle eq
      simp [whole]
    have unfolded : (entry.procedure.andThen o.readiness).Next _ (.launch input) blame := next
    rw [Entry.procedure] at unfolded
    cases plan : entry.plan with
    | update id input =>
      rw [plan] at unfolded
      cases unfolded with
      | later next => exact absurd next none
    | replace id input =>
      rw [plan] at unfolded
      cases unfolded with
      | later next =>
        cases next with
        | here =>
          have last : ∀ answer, destroyed (exchange (.destroy entry.machine true) answer) =
            [entry.machine] := fun _ => rfl
          exact .replaced mem plan (by simp [gone, last]) means
        | later next => exact absurd next none

end Position

end Rollout
