import Rollout.Proofs.Completion
import Rollout.Proofs.Position
import Rollout.Proofs.Stamping

/-!
# A restart stamps the fleet

A restart updates every machine of the snapshot once, in place and in order, to its own
configuration with the release stamped over it. Whatever the app config says and however the
collaborators behave, it runs no release command and creates and destroys nothing.
-/

namespace Rollout

open Script

/-- An input that leaves a machine as it is, but for the stamp of the release. -/
structure Restamped (ctx : LaunchContext) (m : Machine) (input : LaunchInput) : Prop
    extends ctx.release.Stamped m.config input.config where
  app : input.app = ctx.app
  orgSlug : input.orgSlug = ctx.orgSlug
  region : input.region = m.region

structure PlannedUpdate.Restamps (ctx : LaunchContext) (m : Machine) (update : PlannedUpdate) :
    Prop where
  group : update.group = m.processGroup
  inPlace : update.plan = .update m.id update.plan.input
  restamped : Restamped ctx m update.plan.input

theorem LaunchBuilder.restamped_forRestart (b : LaunchBuilder) (m : Machine) :
    Restamped b.ctx m (b.forRestart m).input where
  toStamped := b.ctx.release.stamped_stamp m.config
  app := rfl
  orgSlug := rfl
  region := rfl

/-- A restart is planned for every machine of the snapshot and for no group. -/
structure Plan.RestampsAll (plan : Plan) (d : Deployment) : Prop where
  unchanged : plan.diff.isEmpty = true
  diff : plan.diff = {}
  launches : plan.launches = []
  warnings : plan.warnings = []
  updates : List.Forall₂ (PlannedUpdate.Restamps d.launch) d.machines plan.updates

theorem Plan.restart_restampsAll (d : Deployment) (resolver : Resolver) :
    (Plan.restart d resolver).RestampsAll d where
  unchanged := rfl
  diff := rfl
  launches := rfl
  warnings := by simp [Plan.warnings, Plan.restart]
  updates := by
    rw [Plan.restart, List.forall₂_map_right_iff, List.forall₂_same]
    intro m _
    exact ⟨rfl, rfl, (d.builder resolver).restamped_forRestart m⟩

section Whole

variable {o : Order} {calm : Prop} {x : List Event} {r : RunEnd Unit}

/-- Where every call succeeds, shutdown is not requested and nothing hangs, a procedure does not
stop. -/
theorem Procedure.Stops.not_succeed {α : Type} {p : Procedure α} {stop : Stop}
    (stops : p.Stops calm x stop) (calmly : calm) (hung : (stop.toEnd : RunEnd Unit) ≠ .hung) :
    ¬ Succeed x := by
  intro succeed
  have notHung : stop ≠ .hung := fun eq => hung (Stop.toEnd_eq_hung.mpr eq)
  obtain ⟨current, call, blame, failure, _, rfl, _⟩ :=
    stops.of_calm calmly notHung succeed.panicked_notMem
  have failed : .ended .pass call (.failed failure) ∈
      current ++ [.began .pass call, .ended .pass call (.failed failure)] := by simp
  exact succeed.failed_notMem failed

/-- Work whose calls all succeed does all of its tasks. -/
theorem Work.dones {finish : Exit Unit} {tasks : List Task} (work : Work o calm finish tasks x r)
    (calmly : calm) (succeed : Succeed x) (hung : r ≠ .hung) : r = .exit finish ∧
      ∃ segments, x = segments.flatten ∧ List.Forall₂ (Finished o) tasks segments := by
  induction work with
  | finished => exact ⟨rfl, [], rfl, .nil⟩
  | @past task rest x y r isPast _ ih =>
    obtain ⟨first, later⟩ := succeed_append.mp succeed
    obtain ⟨rfl, segments, rfl, dones⟩ := ih later hung
    cases isPast with
    | done whole => exact ⟨rfl, x :: segments, rfl, .cons whole dones⟩
    | leftBehind _ _ stops =>
      exact absurd (succeed_append.mp first).1 (stops.not_succeed calmly (by simp))
  | stopped stops fatal => exact absurd succeed (stops.not_succeed calmly hung)

namespace Order

/-- A pass whose calls all succeed is admitted, does its tasks and gives the leases back. -/
theorem Passage.whole (passage : o.Passage calm x r) (calmly : calm) (succeed : Succeed x)
    (hung : r ≠ .hung) : r = .exit o.finish ∧ ∃ segments, x = o.admitting ++ (o.foreword ++
      (segments.flatten ++ exchange o.handback ())) ∧
        List.Forall₂ (Finished o) o.tasks segments := by
  cases passage with
  | barred stops => exact absurd succeed (stops.not_succeed calmly hung)
  | @admitted x y z r₀ _ whole work handed =>
    obtain ⟨_, rest⟩ := succeed_append.mp succeed
    obtain ⟨_, rest⟩ := succeed_append.mp rest
    obtain ⟨worked, back⟩ := succeed_append.mp rest
    have hung₀ : r₀ ≠ .hung := handed.ne_hung hung
    obtain ⟨rfl, segments, rfl, dones⟩ := work.dones calmly worked hung₀
    obtain ⟨⟨reply, rfl⟩, rfl⟩ := handed.smooth hung back.panicked_notMem
    obtain ⟨answer, rfl⟩ := back o.handback reply (by simp)
    rw [eq_admitting whole]
    exact ⟨rfl, segments, rfl, dones⟩

/-- A rollout whose calls all succeed is announced, makes its pass and is marked as complete. -/
theorem Course.whole (course : o.Course calm x r) (finishes : o.finish = .ok ()) (calmly : calm)
    (succeed : Succeed x) (hung : r ≠ .hung) : r = .exit (.ok ()) ∧ ∃ segments,
      x = exchange o.markRunning () ++ (o.admitting ++ (o.foreword ++ (segments.flatten ++
        exchange o.handback ())) ++ exchange o.markComplete ()) ∧
        List.Forall₂ (Finished o) o.tasks segments := by
  cases course with
  | @unannounced x stop breaks =>
    have stops : (Procedure.call o.markRunning .releaseStatus .finish).Stops calm x stop :=
      .here breaks
    exact absurd succeed (stops.not_succeed calmly hung)
  | @announced x y r₀ _ passage concluded =>
    obtain ⟨_, rest⟩ := succeed_append.mp succeed
    obtain ⟨passed, closed⟩ := succeed_append.mp rest
    have hung₀ : r₀ ≠ .hung := concluded.ne_hung hung
    obtain ⟨rfl, segments, rfl, dones⟩ := passage.whole calmly passed hung₀
    rw [finishes] at concluded
    obtain ⟨rfl, rfl⟩ :=
      concluded.smooth_ok hung closed.panicked_notMem fun _ => closed.failed_notMem
    exact ⟨rfl, segments, rfl, dones⟩

end Order

end Whole

namespace Order

def waits (o : Order) (m : Machine) : List Call :=
  if o.strategy.isHealthGated then
    .waitForState m .started o.settings.startTimeout ::
      if o.settings.skipHealthChecks then [] else [.waitForHealthchecks m o.settings.healthTimeout]
  else []

/-- The calls of a restart that goes through: every machine is updated to what the plan says,
and waited for if the strategy asks for it. -/
def restartCalls (o : Order) : List Call :=
  o.markRunning :: o.acquisition ::
    (List.zipWith (fun m update => Call.update m update.plan.input :: o.waits m)
      o.deployment.machines (Plan.restart o.deployment o.resolver).updates).flatten ++
    [o.handback, o.markComplete]

def Reshapes : Call → Prop
  | .releaseCommand => True
  | .launch _ => True
  | .destroy .. => True
  | _ => False

structure Restarts (o : Order) (signal : Signal) (events : List Event) (r : RunEnd Unit) :
    Prop where
  /-- Whatever happens, no release command is run and nothing is created or destroyed. -/
  spares : ∀ call ∈ begun events, ¬ Reshapes call
  /-- Where every call succeeds these are the calls, and the rollout ends well. -/
  whole : Succeed events → signal.StaysDown events →
    r = .hung ∨ (r = .exit (.ok ()) ∧ begun events = o.restartCalls)

variable {o : Order} {calm : Prop} {x : List Event} {r : RunEnd Unit}

theorem begun_exchange (call : Call) (answer : call.Answer) :
    begun (exchange call answer) = [call] := rfl

theorem begun_of_readiness {m : Machine} (ready : (o.readiness m).Done x ()) :
    begun x = o.waits m := by
  rw [readiness] at ready
  rw [waits]
  split at ready
  · rename_i gated
    rw [if_pos gated]
    cases ready with
    | call ready =>
      split at ready
      · rename_i skips
        cases ready
        rw [if_pos skips]
        rfl
      · rename_i checks
        rw [if_neg checks]
        cases ready with
        | call ready =>
          cases ready
          rfl
  · rename_i ungated
    cases ready
    rw [if_neg ungated]
    rfl

/-- Every machine is updated and made ready, one after another. -/
theorem begun_of_updates {machines : List Machine} {input : Machine → LaunchInput}
    {segments : List (List Event)}
    (dones : List.Forall₂ (Finished o)
      (machines.map fun m => .settle ⟨m, .update m.id (input m)⟩) segments) :
    begun segments.flatten =
      (machines.map fun m => Call.update m (input m) :: o.waits m).flatten := by
  induction machines generalizing segments with
  | nil =>
    cases dones
    rfl
  | cons m machines ih =>
    obtain ⟨x, rest, whole, others, rfl⟩ := List.forall₂_cons_left_iff.mp dones
    rw [List.flatten_cons, begun_append, ih others]
    have updated : begun x = .update m (input m) :: o.waits m := by
      cases whole with
      | call ready =>
        rw [begun_append, begun_of_readiness ready]
        rfl
    rw [updated, List.map_cons, List.flatten_cons]

section Restarting

variable (restarts : o.settings.restartOnly = true)
include restarts

theorem finish_of_restarts : o.finish = .ok () := by
  simp [finish, plan, restarts, Exit.ofExcept]

theorem foreword_of_restarts : o.foreword = [] := by
  simp [foreword, preface, restarts, transcript]

theorem tasks_of_restarts_eq : o.tasks = o.deployment.machines.map fun m =>
    .settle ⟨m, .update m.id (o.builder.forRestart m).input⟩ := by
  rw [tasks_of_restarts restarts, List.map_map]
  rfl

theorem not_runsCommand_of_restarts : o.runsCommand = false := by
  simp [runsCommand, restarts]

theorem course_restartCalls (course : o.Course calm x r) (calmly : calm) (succeed : Succeed x)
    (hung : r ≠ .hung) : r = .exit (.ok ()) ∧ begun x = o.restartCalls := by
  obtain ⟨ended, segments, rfl, dones⟩ :=
    course.whole (finish_of_restarts restarts) calmly succeed hung
  rw [tasks_of_restarts_eq restarts] at dones
  refine ⟨ended, ?_⟩
  have opened : begun o.admitting = [o.acquisition] := by
    rw [begun_admitting, not_runsCommand_of_restarts restarts]
    rfl
  simp only [begun_append, begun_exchange, opened, foreword_of_restarts restarts, begun_nil,
    begun_of_updates dones, restartCalls, Plan.restart, List.zipWith_map_right, List.zipWith_self]
  simp [builder]

/-- The work of a restart updates machines and waits for them. -/
theorem spares_of_work {finish : Exit Unit} (work : Work o calm finish o.tasks x r) :
    ∀ call ∈ begun x, ¬ Reshapes call := by
  have uses : ∀ task ∈ o.tasks, (task.procedure o).Uses (¬ Reshapes ·) := by
    intro task mem
    rw [tasks_of_restarts_eq restarts] at mem
    obtain ⟨m, _, rfl⟩ := List.mem_map.mp mem
    refine ⟨id, fun _ => (o.readiness_waits m).mono fun call waits => ?_⟩
    cases call with
    | waitForState | waitForHealthchecks => exact id
    | _ => cases waits
  generalize o.tasks = tasks at work uses
  induction work with
  | finished => simp
  | @past task rest x y r isPast _ ih =>
    intro call mem
    rw [begun_append] at mem
    rcases List.mem_append.mp mem with mem | mem
    · have used := uses task List.mem_cons_self
      cases isPast with
      | done whole => exact whole.uses used call mem
      | leftBehind _ _ stops =>
        rw [begun_append] at mem
        rcases List.mem_append.mp mem with mem | told
        · exact stops.uses used call mem
        · cases told
    · exact ih (fun task mem => uses task (List.mem_cons_of_mem _ mem)) call mem
  | stopped stops _ => exact stops.uses (uses _ List.mem_cons_self)

theorem spares_of_passage (passage : o.Passage calm x r) :
    ∀ call ∈ begun x, ¬ Reshapes call := by
  have admission : o.admission.Uses (¬ Reshapes ·) := by
    rw [admission, not_runsCommand_of_restarts restarts]
    exact ⟨id, fun _ => trivial⟩
  cases passage with
  | barred stops => exact stops.uses admission
  | admitted whole work handed =>
    intro call mem
    simp only [begun_append, List.mem_append, begun_foreword, List.not_mem_nil, false_or] at mem
    rcases mem with admitting | working | handing
    · exact whole.uses admission call admitting
    · exact spares_of_work restarts work call working
    · rw [handed.begun_eq (mem_begun.mp handing)]
      exact id

theorem spares_of_course (course : o.Course calm x r) : ∀ call ∈ begun x, ¬ Reshapes call := by
  cases course with
  | unannounced breaks =>
    intro call mem
    rw [← breaks.begun_eq mem]
    exact id
  | announced passage concluded =>
    intro call mem
    simp only [begun_append, List.mem_append] at mem
    rcases mem with announcing | passing | concluding
    · cases List.mem_singleton.mp announcing
      exact id
    · exact spares_of_passage restarts passage call passing
    · rcases concluded.begun_eq (mem_begun.mp concluding) with rfl | rfl
      · exact id
      · exact id

end Restarting

theorem script_restarts {s later : Stage} {events : List Event}
    (h : o.script.Tells s events r later) (restarts : o.settings.restartOnly = true) :
    Restarts o s.signal events r where
  spares := by
    rw [← begun_transcript]
    exact spares_of_course restarts (script_course h.speaks)
  whole succeed down := by
    by_cases hung : r = .hung
    · exact .inl hung
    · refine .inr ?_
      have heard : Succeed (transcript events) := fun call reply mem =>
        succeed call reply ((mem_transcript rfl).mp mem)
      rw [← begun_transcript]
      exact course_restartCalls restarts (script_course h.speaks) down heard hung

/-- A restart updates every machine of the snapshot, in order and in place, to its own
configuration with the release stamped over it, whatever the resolver says; under collaborators
that all return it does not hang. -/
theorem run_restarts {σ : Type} (o : Order) (c : Collaborators σ) (signal : Signal)
    (schedule : List (Nat × SignalChange)) (memory : σ) (restarts : o.settings.restartOnly = true) :
    (∀ horizon, o.Restarts signal (o.run c horizon (.start signal schedule memory)).1.events
      (o.run c horizon (.start signal schedule memory)).2) ∧
    (Plan.restart o.deployment o.resolver).RestampsAll o.deployment ∧
    (c.Return → ∃ time, ∀ horizon : Horizon, time < horizon.time →
      (o.run c horizon (.start signal schedule memory)).2 ≠ .hung) := by
  refine ⟨fun horizon => ?_, Plan.restart_restampsAll _ _, fun returns => o.run_returns returns _⟩
  exact script_restarts (o.run_tells c horizon signal schedule memory) restarts

end Order

namespace Rehearsal

/-- A resolver that declares nothing and has no configuration for any group. -/
def barringResolver : Resolver where
  resolve group _ := .error (.unknownProcessGroup group)
  processNames := []
  primaryRegion := "ord"

/-- A restart of a machine in an undeclared group with an unbound mount, and of one without a
group. -/
def barringOrder : Order where
  settings := { restartOnly := true }
  deployment := deployment
    [{ loneMachine with
        config := { fixtureConfig "old" with mount := some ⟨"", "/data", none⟩ } },
      { loneMachine with id := secondId, config := {} }] []
  resolver := barringResolver

def isSmooth : Event → Bool
  | .ended .pass _ (.ok _) => true
  | .ended .pass _ _ => false
  | .signal _ => false
  | _ => true

theorem succeed_of_smooth {events : List Event} (smooth : events.all isSmooth = true) :
    Succeed events ∧ ({} : Signal).StaysDown events := by
  rw [List.all_eq_true] at smooth
  constructor
  · intro call reply mem
    have fine := smooth _ mem
    cases reply with
    | ok answer => exact ⟨answer, rfl⟩
    | failed failure => cases fine
    | panicked text => cases fine
    | cancelled => cases fine
  · exact .of_still rfl fun c mem => absurd (smooth _ mem) Bool.false_ne_true

/-- Both machines are updated and waited for, and nothing else is done to the fleet. -/
theorem barringOrder_restarts :
    begun (barringOrder.run willing ⟨60000, false⟩ (.start {} [] ())).1.events =
      barringOrder.restartCalls ∧
    (Plan.restart barringOrder.deployment barringOrder.resolver).RestampsAll
      barringOrder.deployment ∧
    ∃ time, ∀ horizon : Horizon, time < horizon.time →
      (barringOrder.run willing horizon (.start {} [] ())).2 ≠ .hung := by
  obtain ⟨goes, plan, returns⟩ := Order.run_restarts barringOrder willing {} [] () rfl
  have smooth : (barringOrder.run willing ⟨60000, false⟩ (.start {} [] ())).1.events.all
      isSmooth = true := rfl
  obtain ⟨succeed, down⟩ := succeed_of_smooth smooth
  refine ⟨?_, plan, returns willing_return⟩
  rcases (goes ⟨60000, false⟩).whole succeed down with hung | ⟨_, calls⟩
  · cases hung
  · exact calls

example : barringOrder.restartCalls.map Call.name =
    ["set_status", "acquire", "update", "wait_for_state", "wait_for_healthchecks", "update",
      "wait_for_state", "wait_for_healthchecks", "release", "set_status"] := by decide

end Rehearsal

end Rollout
