import Rollout.Proofs.PlanAgreement
import Rollout.Proofs.Position

/-!
# The gate of a rolling rollout

A rolling rollout turns to the next machine only when the one before is ready: it was updated,
or destroyed and replaced, or created, and then it started and became healthy. So wherever a run
is cut short, at most one machine that was to stay is gone without a ready replacement.
-/

namespace Rollout

open Script

/-- Whether an event is the beginning or the end of a call that touches a machine. -/
def Event.touches : Event → Bool
  | .began .pass made => made.role = .work
  | .ended .pass made _ => made.role = .work
  | _ => false

def machineEvents (events : List Event) : List Event := events.filter Event.touches

@[simp] theorem machineEvents_append (before later : List Event) :
    machineEvents (before ++ later) = machineEvents before ++ machineEvents later :=
  List.filter_append ..

theorem machineEvents_transcript (events : List Event) :
    machineEvents (transcript events) = machineEvents events := by
  refine filter_transcript (fun e touches => ?_) events
  unfold Event.touches at touches
  split at touches
  · rfl
  · rfl
  · cases touches

theorem machineEvents_exchange {made : Call} (work : made.role = .work) (answer : made.Answer) :
    machineEvents (exchange made answer) = exchange made answer := by
  simp [machineEvents, exchange, Event.touches, work]

theorem machineEvents_exchange_nil {made : Call} (other : made.role ≠ .work)
    (answer : made.Answer) : machineEvents (exchange made answer) = [] := by
  simp [machineEvents, exchange, Event.touches, other]

/-- The pass has dealt with machines by doing some of its tasks, in order, every call of theirs
having succeeded; the next task is at hand, and the call is the next one of it. -/
def Order.Gated (o : Order) (before : List Event) (call : Call) : Prop :=
  ∃ done task rest segments current blame, o.tasks = done ++ task :: rest ∧
    List.Forall₂ (Finished o) done segments ∧
    machineEvents before = segments.flatten ++ current ∧ (task.procedure o).Next current call blame

/-- After the machine was destroyed, its replacement was launched at once and became ready. -/
def Order.Replaced (o : Order) (m : Machine) (later : List Event) : Prop :=
  ∃ entry ∈ o.entries, entry.machine = m ∧ ∃ id input, entry.plan = .replace id input ∧
    ∃ created ready rest,
      machineEvents later = exchange (.launch input) created ++ (ready ++ rest) ∧
      (o.readiness created).Done ready ()

/-- Among the events, a machine that was to stay was destroyed after these ones, and has no
ready replacement yet. -/
def Order.OutAfter (o : Order) (events before : List Event) : Prop :=
  ∃ m force later, events = before ++ .ended .pass (.destroy m force) (.ok ()) :: later ∧
    m ∈ o.diff.remaining o.deployment.machines ∧ ¬ o.Replaced m later

structure RollingGate (o : Order) (events : List Event) : Prop where
  /-- Whenever a machine is touched, the call is the next one of a task that follows tasks that
  are done. -/
  gated : ∀ before call later, events = before ++ .began .pass call :: later →
    call.role = .work → o.Gated before call
  /-- At no time are two machines that were to stay without a ready replacement. -/
  available : ∀ before later, events = before ++ later →
    ∀ first second, o.OutAfter before first → o.OutAfter before second → first = second

section Gate

variable {α : Type} {o : Order} {calm : Prop} {x u v : List Event} {r : RunEnd Unit} {call : Call}
  {blame : Failure → DeployError}

theorem machineEvents_of_done {p : Procedure α} {a : α} (uses : p.Uses (·.role = .work))
    (whole : p.Done x a) : machineEvents x = x := by
  induction whole with
  | finish => rfl
  | call _ ih => rw [machineEvents_append, machineEvents_exchange uses.1, ih (uses.2 _)]

theorem machineEvents_of_next {p : Procedure α} (uses : p.Uses (·.role = .work))
    (next : p.Next x call blame) : machineEvents x = x := by
  induction next with
  | here => rfl
  | later _ ih => rw [machineEvents_append, machineEvents_exchange uses.1, ih (uses.2 _)]

/-- A rolling rollout leaves no entry behind. -/
theorem Past.done_of_rolling {task : Task} (rolling : o.strategy = .rolling)
    (past : Past o calm task x) : (task.procedure o).Done x () := by
  cases past with
  | done whole => exact whole
  | leftBehind policy =>
    rw [rolling] at policy
    cases policy

namespace Order

theorem machineEvents_foreword (o : Order) : machineEvents o.foreword = [] := by
  refine List.filter_eq_nil_iff.mpr fun e mem => ?_
  obtain ⟨line, rfl⟩ := mem_foreword mem
  exact Bool.false_ne_true

theorem machineEvents_admitting (o : Order) : machineEvents o.admitting = [] := by
  have command : Call.releaseCommand.role ≠ .work := by simp [Call.role]
  have leases : o.acquisition.role ≠ .work := by simp [Call.role]
  rw [admitting, machineEvents_append, machineEvents_exchange_nil leases]
  split
  · rw [machineEvents_exchange_nil command]
    rfl
  · rfl

theorem passage_next_work (passage : o.Passage calm x r) (eq : x = u ++ .began .pass call :: v)
    (role : call.role = .work) : ∃ w task blame, machineEvents u = machineEvents w ∧
      Reaches o calm o.tasks w task call blame := by
  cases passage with
  | barred stops =>
    obtain ⟨_, next⟩ := stops.next eq
    rcases next.uses o.admission_uses with rfl | rfl
    · cases role
    · cases role
  | @admitted x y z _ _ whole work handed =>
    have notAdmitting : .began .pass call ∉ o.admitting := fun mem => by
      have touched : .began .pass call ∈ machineEvents o.admitting :=
        List.mem_filter.mpr ⟨mem, by simpa [Event.touches] using role⟩
      rw [machineEvents_admitting] at touched
      cases touched
    have notForeword : .began .pass call ∉ o.foreword := fun mem => by
      obtain ⟨line, eq⟩ := mem_foreword mem
      cases eq
    rw [eq_admitting whole] at eq
    obtain ⟨u₁, rfl, tail₁⟩ := split_later eq notAdmitting
    obtain ⟨u₂, rfl, tail₂⟩ := split_later tail₁ notForeword
    rcases split_append tail₂ with ⟨u₃, _, tail₃⟩ | ⟨_, head, _⟩
    · have mem : .began .pass call ∈ z := by simp [tail₃]
      obtain rfl := handed.begun_eq mem
      cases role
    · obtain ⟨task, blame, reaches⟩ := work.next head
      refine ⟨u₂, task, blame, ?_, reaches⟩
      simp [machineEvents_admitting, machineEvents_foreword]

/-- A machine is touched only during the work. -/
theorem course_next_work (course : o.Course calm x r) (eq : x = u ++ .began .pass call :: v)
    (role : call.role = .work) : ∃ w task blame, machineEvents u = machineEvents w ∧
      Reaches o calm o.tasks w task call blame := by
  cases course with
  | unannounced breaks =>
    obtain ⟨_, rfl⟩ := breaks.next eq
    cases role
  | @announced p y r₀ _ passage concluded =>
    rcases Procedure.split_exchange_began eq with ⟨_, rfl⟩ | ⟨u₁, rfl, tail₁⟩
    · cases role
    · rcases split_append tail₁ with ⟨u₂, _, tail₂⟩ | ⟨_, head, _⟩
      · have mem : .began .pass call ∈ y := by simp [tail₂]
        rcases concluded.begun_eq mem with rfl | rfl
        · cases role
        · cases role
      · have other : o.markRunning.role ≠ .work := by simp [Call.role]
        have marking := machineEvents_exchange_nil other ()
        rw [machineEvents_append, marking]
        exact passage_next_work passage head role

end Order

theorem machineEvents_of_dones {tasks : List Task} {segments : List (List Event)}
    (dones : List.Forall₂ (Finished o) tasks segments) :
    machineEvents segments.flatten = segments.flatten := by
  induction dones with
  | nil => rfl
  | @cons task segment _ _ whole _ ih =>
    rw [List.flatten_cons, machineEvents_append, ih,
      machineEvents_of_done (task.procedure_uses o) whole]

theorem Reaches.gated {task : Task} {w before : List Event} (rolling : o.strategy = .rolling)
    (reaches : Reaches o calm o.tasks w task call blame)
    (same : machineEvents before = machineEvents w) : o.Gated before call := by
  obtain ⟨eq, pasts, next⟩ := reaches
  have dones := pasts.imp fun _ _ past => Past.done_of_rolling rolling past
  refine ⟨_, task, _, _, _, blame, eq, dones, ?_, next⟩
  rw [same, machineEvents_append, machineEvents_of_next (task.procedure_uses o) next,
    machineEvents_of_dones dones]

/-- An event of several segments in a row stands in one of them. -/
theorem split_segments {α : Type} {R : α → List Event → Prop} {as : List α}
    {segments : List (List Event)} {e : Event} (related : List.Forall₂ R as segments)
    (eq : segments.flatten = u ++ e :: v) : ∃ a ∈ as, ∃ current later rest,
      R a (current ++ e :: later) ∧ v = later ++ rest := by
  induction related generalizing u with
  | nil => simp at eq
  | @cons a _ as segments holds _ ih =>
    rw [List.flatten_cons] at eq
    rcases split_append eq with ⟨mid, _, tail⟩ | ⟨mid, rfl, rfl⟩
    · obtain ⟨a', mem, found⟩ := ih tail
      exact ⟨a', List.mem_cons_of_mem a mem, found⟩
    · exact ⟨a, List.mem_cons_self, u, mid, segments.flatten, holds, rfl⟩

theorem destroyed_ne_nil {m : Machine} {force : Bool} :
    destroyed (u ++ .ended .pass (.destroy m force) (.ok ()) :: v) ≠ [] := by
  have one : Event.destroyed? (.ended .pass (.destroy m force) (.ok ())) = some m := rfl
  simp [destroyed, one]

/-- A task that is done has destroyed a machine to remove it, or to replace it at once. -/
theorem destroyed_in_done {task : Task} {m : Machine} {force : Bool}
    (whole : (task.procedure o).Done (u ++ .ended .pass (.destroy m force) (.ok ()) :: v) ()) :
    task = .remove m ∨ ∃ entry id input created ready, task = .settle entry ∧ entry.machine = m ∧
      entry.plan = .replace id input ∧ v = exchange (.launch input) created ++ ready ∧
      (o.readiness created).Done ready () := by
  have found : destroyed (u ++ .ended .pass (.destroy m force) (.ok ()) :: v) ≠ [] :=
    destroyed_ne_nil
  generalize eq : u ++ .ended .pass (.destroy m force) (.ok ()) :: v = x at whole found
  cases task with
  | remove m₀ =>
    cases whole with
    | call whole =>
      cases whole
      left
      rcases u with _ | ⟨first, _ | ⟨second, u⟩⟩
      · cases eq
      · cases eq
        rfl
      · simp [exchange] at eq
  | create launch =>
    cases whole with
    | call whole =>
      refine absurd ?_ found
      rw [destroyed_append, (readiness_done whole).1]
      rfl
  | settle entry =>
    have unfolded : (entry.procedure.andThen o.readiness).Done x () := whole
    rw [Entry.procedure] at unfolded
    cases plan : entry.plan with
    | update id input =>
      rw [plan] at unfolded
      cases unfolded with
      | call ready =>
        refine absurd ?_ found
        rw [destroyed_append, (readiness_done ready).1]
        rfl
    | replace id input =>
      rw [plan] at unfolded
      cases unfolded with
      | call launched =>
        cases launched with
        | @call _ _ _ created ready _ isReady =>
          right
          rcases u with _ | ⟨first, _ | ⟨second, u⟩⟩
          · cases eq
          · cases eq
            exact ⟨entry, id, input, created, ready, rfl, rfl, plan, rfl, isReady⟩
          · -- Neither the launch nor the waits destroy a machine.
            have later : u ++ .ended .pass (.destroy m force) (.ok ()) :: v =
                exchange (.launch input) created ++ ready :=
              (List.cons.inj (List.cons.inj eq).2).2
            have none : destroyed (u ++ .ended .pass (.destroy m force) (.ok ()) :: v) = [] := by
              rw [later, destroyed_append, (readiness_done isReady).1]
              rfl
            exact absurd none destroyed_ne_nil

/-- A machine is destroyed first of all. -/
theorem next_destroy {task : Task} {m : Machine} {force : Bool}
    (next : (task.procedure o).Next u (.destroy m force) blame) : u = [] := by
  have none : ∀ {m' w}, ¬ (o.readiness m').Next w (.destroy m force) blame :=
    fun next => Bool.false_ne_true (next.uses (o.readiness_waits _))
  cases task with
  | remove m₀ =>
    cases next with
    | here => rfl
    | later next => cases next
  | create launch =>
    cases next with
    | later next => exact absurd next none
  | settle entry =>
    have unfolded : (entry.procedure.andThen o.readiness).Next u (.destroy m force) blame := next
    rw [Entry.procedure] at unfolded
    cases plan : entry.plan with
    | update id input =>
      rw [plan] at unfolded
      cases unfolded with
      | later next => exact absurd next none
    | replace id input =>
      rw [plan] at unfolded
      cases unfolded with
      | here => rfl
      | later next =>
        cases next with
        | later next => exact absurd next none

theorem removal_notMem_remaining {m : Machine} (mem : .remove m ∈ o.tasks) :
    m ∉ o.diff.remaining o.deployment.machines := by
  have removed : m ∈ o.diff.machinesToRemove := by simpa [Order.tasks] using mem
  intro stays
  have other : m.id ∉ o.diff.machinesToRemove.map Machine.id := by
    simpa using (List.mem_filter.mp stays).2
  exact other (List.mem_map_of_mem removed)

/-- In a list that ends with a call that is begun, an event before stands before that call. -/
theorem split_before_begun {first mid before noise : List Event} {e : Event}
    (scripted : e.isScripted = true) (other : e ≠ .began .pass call)
    (silent : transcript noise = [])
    (eq : first ++ e :: mid = before ++ .began .pass call :: noise) : ∃ between,
      before = first ++ e :: between ∧ mid = between ++ .began .pass call :: noise := by
  rcases split_append eq with ⟨w, rfl, tail⟩ | ⟨w, _, rfl⟩
  · cases w with
    | nil => exact absurd (List.cons.inj tail).1 other
    | cons _ between =>
      obtain ⟨rfl, rfl⟩ := List.cons.inj tail
      exact ⟨between, rfl, rfl⟩
  · have mem : e ∈ transcript (w ++ e :: mid) := (mem_transcript scripted).mpr (by simp)
    rw [silent] at mem
    cases mem

/-- A machine that was to stay is replaced before the next one is destroyed. -/
theorem replaced_between {events first mid rest : List Event} {m m' : Machine} {force force' : Bool}
    (gated : ∀ before call later, events = before ++ .began .pass call :: later →
      call.role = .work → o.Gated before call)
    (replied : ∀ {u call reply v}, transcript events = u ++ .ended .pass call reply :: v →
      ∃ w, u = w ++ [.began .pass call])
    (eq : events = (first ++ .ended .pass (.destroy m force) (.ok ()) :: mid) ++
      .ended .pass (.destroy m' force') (.ok ()) :: rest)
    (stays : m ∈ o.diff.remaining o.deployment.machines) (later : List Event) :
    o.Replaced m (mid ++ later) := by
  -- The gate speaks of calls that begin, so it is applied where the second destroy began.
  obtain ⟨w, kept⟩ := replied (by rw [eq, transcript_append, transcript_ended])
  obtain ⟨before, noise, split, _, silent⟩ := split_transcript kept
  obtain ⟨between, rfl, rfl⟩ := split_before_begun rfl (by simp) silent split
  have begins : events = (first ++ .ended .pass (.destroy m force) (.ok ()) :: between) ++
      .began .pass (.destroy m' force') ::
        (noise ++ .ended .pass (.destroy m' force') (.ok ()) :: rest) := by simp [eq]
  obtain ⟨done, task, after, segments, current, blame, tasks, dones, touched, next⟩ :=
    gated _ _ _ begins rfl
  obtain rfl := next_destroy next
  have whole : segments.flatten = machineEvents first ++
      .ended .pass (.destroy m force) (.ok ()) :: machineEvents between := by
    rw [List.append_nil] at touched
    rw [← touched, machineEvents_append]
    rfl
  obtain ⟨task', mem, current, ready, others, isDone, grown⟩ := split_segments dones whole
  have among : task' ∈ o.tasks := by simp [tasks, mem]
  rcases destroyed_in_done isDone with rfl |
    ⟨entry, id, input, created, waits, rfl, rfl, plan, rfl, isReady⟩
  · exact absurd stays (removal_notMem_remaining among)
  · have entries : entry ∈ o.entries := by simpa [Order.tasks] using among
    refine ⟨entry, entries, rfl, id, input, plan, created, waits,
      others ++ machineEvents (.began .pass (.destroy m' force') :: noise ++ later), ?_, isReady⟩
    rw [List.append_assoc, machineEvents_append, grown]
    simp only [List.append_assoc]

theorem available_of_gated {events : List Event}
    (gated : ∀ before call later, events = before ++ .began .pass call :: later →
      call.role = .work → o.Gated before call)
    (replied : ∀ {u call reply v}, transcript events = u ++ .ended .pass call reply :: v →
      ∃ w, u = w ++ [.began .pass call]) {before later : List Event} (eq : events = before ++ later)
    {first second : List Event} (out : o.OutAfter before first) (out' : o.OutAfter before second) :
    first = second := by
  obtain ⟨m, force, after, split, stays, unready⟩ := out
  obtain ⟨m', force', after', split', stays', unready'⟩ := out'
  rcases split_append (split.symm.trans split') with ⟨mid, rfl, tail⟩ | ⟨mid, rfl, tail⟩
  · cases mid with
    | nil => rw [List.append_nil]
    | cons _ mid =>
      obtain ⟨rfl, rfl⟩ := List.cons.inj tail
      have order : events = (first ++ .ended .pass (.destroy m force) (.ok ()) :: mid) ++
          .ended .pass (.destroy m' force') (.ok ()) :: (after' ++ later) := by simp [eq, split']
      exact absurd (replaced_between gated replied order stays _) unready
  · subst tail
    have order : events = (second ++ .ended .pass (.destroy m' force') (.ok ()) :: mid) ++
        .ended .pass (.destroy m force) (.ok ()) :: (after ++ later) := by simp [eq, split]
    exact absurd (replaced_between gated replied order stays' _) unready'

end Gate

namespace Order

theorem script_rollingGate {o : Order} {s later : Stage} {events : List Event} {r : RunEnd Unit}
    (rolling : o.strategy = .rolling) (h : o.script.Tells s events r later) :
    RollingGate o events := by
  have gated : ∀ before call later, events = before ++ .began .pass call :: later →
      call.role = .work → o.Gated before call := by
    intro before call later eq role
    have split : transcript events =
        transcript before ++ .began .pass call :: transcript later := by simp [eq]
    obtain ⟨w, task, blame, same, reaches⟩ := course_next_work (script_course h.speaks) split role
    rw [machineEvents_transcript] at same
    exact reaches.gated rolling same
  exact ⟨gated, fun before later eq first second out out' =>
    available_of_gated gated h.speaks.replied eq out out'⟩

/-- In every run of a rolling rollout the gate holds, wherever the run is cut short. -/
theorem run_rollingGate {σ : Type} (o : Order) (c : Collaborators σ) (horizon : Horizon)
    (signal : Signal) (schedule : List (Nat × SignalChange)) (memory : σ)
    (rolling : o.strategy = .rolling) :
    RollingGate o (o.run c horizon (.start signal schedule memory)).1.events :=
  script_rollingGate rolling (o.run_tells c horizon signal schedule memory)

end Order

namespace Rehearsal

def mountedMachine (id : MachineId) : Machine :=
  { loneMachine with
    id
    config := { fixtureConfig "app" with mount := some { name := "data", path := "/data" } } }

def replacingOrder : Order where
  settings := {}
  deployment := deployment
    [mountedMachine loneMachine.id,
      mountedMachine thirdId] []
  resolver := AppConfig.resolver
    { primaryRegion := "ord", processes := Dict.ofList [("app", {})] }

/-- The first replacement never becomes ready, and the second machine is left alone. -/
theorem replacingOrder_rollingGate : replacingOrder.strategy = .rolling ∧
    RollingGate replacingOrder (replacingOrder.run Fleet.collaborators ⟨60000, false⟩
      (.start {} [] { faults := { hangWaits := true } })).1.events :=
  ⟨rfl, Order.run_rollingGate replacingOrder Fleet.collaborators ⟨60000, false⟩ {} []
    { faults := { hangWaits := true } } rfl⟩

example : (begun (replacingOrder.run Fleet.collaborators ⟨60000, false⟩
    (.start {} [] { faults := { hangWaits := true } })).1.events).map Call.name =
      ["set_status", "release_command", "acquire", "destroy", "launch", "wait_for_state"] := rfl

end Rehearsal

end Rollout
