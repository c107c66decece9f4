import Rollout.Proofs.Completion
import Rollout.Proofs.PlanAgreement
import Rollout.Proofs.Position

/-!
# An immediate rollout tries every machine

An immediate rollout goes on after an entry that failed. Where everything around the updates
succeeds, every entry is tried once, in the order of the plan, whichever of them fail; each that
failed is told of once, nothing is waited for, and the rollout ends well.
-/

namespace Rollout

open Script

def setback (call : Call) (cause : Failure) (e : DeployError) : List Event :=
  [.began .pass call, .ended .pass call (.failed cause), .note (leftBehindNote e)]

/-- The transcripts of trying an entry. A machine is replaced only if it was destroyed. -/
inductive Attempt : Entry → List Event → Prop
  | updated {m id input} : Attempt ⟨m, .update id input⟩ (exchange (.update m input) ())
  | notUpdated {m id input cause} :
    Attempt ⟨m, .update id input⟩ (setback (.update m input) cause (.update m.id cause))
  | replaced {m id input created} : Attempt ⟨m, .replace id input⟩
    (exchange (.destroy m true) () ++ exchange (.launch input) created)
  | notDestroyed {m id input cause} :
    Attempt ⟨m, .replace id input⟩ (setback (.destroy m true) cause (.destroy m.id cause))
  | notLaunched {m id input cause} : Attempt ⟨m, .replace id input⟩
    (exchange (.destroy m true) () ++ setback (.launch input) cause (.launch m.id cause))

/-- Whether the call has to succeed when it is made after these events: it stops the pass when it
fails, or it writes the state in which the release is left. -/
def Order.Required (o : Order) (before : List Event) (call : Call) : Prop :=
  o.isFatal before call = true ∨ call.role = .conclusion

def Order.prelude (o : Order) (plan : Plan) : List Call :=
  o.markRunning :: (if o.runsCommand then [.releaseCommand] else []) ++
    o.acquisition :: plan.openingCalls

/-- How an immediate rollout carries out a plan. -/
structure BestEffort (o : Order) (plan : Plan) (events : List Event) (r : RunEnd Unit) : Prop where
  /-- Every entry is tried once, in order, between the calls that prepare for that, all of which
  succeed, and those that follow, of which the last succeeds. Before the first entry at most the
  summary of changes is told. -/
  tried : ∃ opening attempts reply,
    transcript events = opening ++ attempts.flatten ++
      .began .pass o.handback :: .ended .pass o.handback reply :: exchange o.markComplete () ∧
    begun opening = o.prelude plan ∧ Succeed opening ∧
    (∀ n, .note n ∈ opening → n ∈ o.preface) ∧
    List.Forall₂ Attempt (plan.entries o.deployment.machines) attempts
  /-- Nothing is waited for. -/
  unwaited : ∀ call ∈ begun events, call.isWait = false
  ends : r = .exit (.ok ())

section Tasks

variable {o : Order} {calm : Prop} {x : List Event} {segments : List (List Event)}

/-- What is done has succeeded, and nothing was told meanwhile. -/
theorem succeed_of_dones {tasks : List Task}
    (dones : List.Forall₂ (Finished o) tasks segments) :
    Succeed segments.flatten ∧ ∀ n, .note n ∉ segments.flatten := by
  induction dones with
  | nil => simp [Succeed]
  | @cons task x _ rest whole _ ih =>
    rw [List.flatten_cons]
    refine ⟨succeed_append.mpr ⟨whole.succeed, ih.1⟩, fun n mem => ?_⟩
    rcases List.mem_append.mp mem with mem | mem
    · exact whole.note_notMem mem
    · exact ih.2 n mem

theorem begun_of_removals {machines : List Machine}
    (dones : List.Forall₂ (Finished o) (machines.map .remove) segments) :
    begun segments.flatten = machines.map (.destroy · true) := by
  induction machines generalizing segments with
  | nil =>
    cases dones
    rfl
  | cons m machines ih =>
    obtain ⟨x, rest, whole, others, rfl⟩ := List.forall₂_cons_left_iff.mp dones
    rw [List.flatten_cons, begun_append, ih others]
    cases whole with
    | call whole =>
      cases whole
      rfl

/-- Nothing is waited for. -/
theorem readiness_immediate (immediate : o.strategy = .immediate) (m : Machine) :
    o.readiness m = .finish () := by
  rw [Order.readiness, immediate]
  rfl

theorem ready_at_once (immediate : o.strategy = .immediate) {m : Machine}
    (ready : (o.readiness m).Done x ()) : x = [] := by
  rw [readiness_immediate immediate] at ready
  cases ready
  rfl

theorem begun_of_creations (immediate : o.strategy = .immediate) {launches : List PlannedLaunch}
    (dones : List.Forall₂ (Finished o) (launches.map .create) segments) :
    begun segments.flatten = launches.map (.launch ·.input) := by
  induction launches generalizing segments with
  | nil =>
    cases dones
    rfl
  | cons launch launches ih =>
    obtain ⟨x, rest, whole, others, rfl⟩ := List.forall₂_cons_left_iff.mp dones
    rw [List.flatten_cons, begun_append, ih others]
    cases whole with
    | call ready =>
      rw [ready_at_once immediate ready]
      rfl

theorem not_stops_readiness (immediate : o.strategy = .immediate) {m : Machine} {stop : Stop} :
    ¬ (o.readiness m).Stops calm x stop := by
  rw [readiness_immediate immediate]
  rintro ⟨⟩

/-- In a calm rollout a call is broken off with an error only if it failed. -/
theorem Breaks.setback_of_calm {blame : Failure → DeployError} {call : Call} {e : DeployError}
    (calmly : calm) (breaks : Breaks calm blame call x (.error e)) :
    ∃ cause, e = blame cause ∧ x ++ [.note (leftBehindNote e)] = setback call cause e := by
  generalize ending : Stop.error e = stop at breaks
  cases breaks with
  | refused alarmed => exact absurd calmly alarmed
  | abandoned alarmed => exact absurd calmly alarmed
  | failed cause =>
    cases ending
    exact ⟨cause, rfl, rfl⟩
  | panicked text => cases ending
  | unanswered => cases ending

/-- An entry that is past has been tried. -/
theorem Past.attempt (immediate : o.strategy = .immediate) (calmly : calm) {entry : Entry}
    (past : Past o calm (.settle entry) x) : Attempt entry x := by
  obtain ⟨m, plan⟩ := entry
  cases past with
  | done whole =>
    have unfolded : ((Entry.procedure ⟨m, plan⟩).andThen o.readiness).Done x () := whole
    cases plan with
    | update id input =>
      cases unfolded with
      | call ready =>
        rw [ready_at_once immediate ready, List.append_nil]
        exact .updated
    | replace id input =>
      cases unfolded with
      | call launched =>
        cases launched with
        | call ready =>
          rw [ready_at_once immediate ready, List.append_nil]
          exact .replaced
  | @leftBehind _ x e _ _ stops =>
    have unfolded : ((Entry.procedure ⟨m, plan⟩).andThen o.readiness).Stops calm x (.error e) :=
      stops
    cases plan with
    | update id input =>
      cases unfolded with
      | here breaks =>
        obtain ⟨cause, rfl, told⟩ := breaks.setback_of_calm calmly
        rw [told]
        exact .notUpdated
      | later waiting => exact absurd waiting (not_stops_readiness immediate)
    | replace id input =>
      cases unfolded with
      | here breaks =>
        obtain ⟨cause, rfl, told⟩ := breaks.setback_of_calm calmly
        rw [told]
        exact .notDestroyed
      | later launching =>
        cases launching with
        | here breaks =>
          obtain ⟨cause, rfl, told⟩ := breaks.setback_of_calm calmly
          rw [List.append_assoc, told]
          exact .notLaunched
        | later waiting => exact absurd waiting (not_stops_readiness immediate)

theorem entries_tried (immediate : o.strategy = .immediate) (calmly : calm) {entries : List Entry}
    (pasts : List.Forall₂ (Past o calm) (entries.map .settle) segments) :
    List.Forall₂ Attempt entries segments :=
  (List.forall₂_map_left_iff.mp pasts).imp fun _ _ past => past.attempt immediate calmly

theorem Attempt.unwaited {entry : Entry} (attempt : Attempt entry x) :
    ∀ call ∈ begun x, call.isWait = false := by
  cases attempt <;> simp [exchange, setback, begun, Event.begun?, Call.isWait]

end Tasks

namespace Order

section Course

variable {o : Order} {calm : Prop} {plan : Plan} {x : List Event} {r : RunEnd Unit}

theorem blame_ne_cancelled {before : List Event} {call : Call} {failure : Failure} :
    o.blame before call failure ≠ some .cancelled := by
  unfold Order.blame
  split <;> simp
  split <;> simp

/-- Work in which every required call succeeds leaves no task undone. -/
theorem work_whole (before : List Event) (work : Work o calm o.finish o.tasks x r)
    (calmly : calm) (planned : o.plan = .ok plan) (hung : r ≠ .hung)
    (noPanic : ∀ call text, .ended .pass call (.panicked text) ∉ x)
    (untouched : SameMachines before [])
    (required : ∀ u call failure v, x = u ++ .ended .pass call (.failed failure) :: v →
      o.isFatal (before ++ u) call = false) :
    r = .exit (.ok ()) ∧ ∃ segments, x = segments.flatten ∧
      List.Forall₂ (Past o calm) o.tasks segments := by
  rcases work.whole with ⟨segments, pasts, rfl, rfl⟩ |
    ⟨done, task, rest, segments, current, stop, tasks, pasts, rfl, stops, rfl, left⟩
  · rw [finish_of_plan planned]
    exact ⟨rfl, segments, rfl, pasts⟩
  · -- The work stopped at a call that failed, and which was one of those that have to succeed.
    exfalso
    obtain ⟨current, call, blame, failure, next, rfl, rfl⟩ := stops.of_calm calmly
      (fun eq => hung (by rw [eq]; rfl)) fun call text mem => noPanic call text (by simp [mem])
    have reads : Reads o (before ++ (segments.flatten ++ current ++ [.began .pass call])) task call
        blame := by
      have reaches : Reaches o calm o.tasks (segments.flatten ++ current) task call blame :=
        .intro tasks pasts next
      exact reaches.reads (untouched.append (.began _ call))
    have spared := required (segments.flatten ++ current ++ [.began .pass call]) call failure []
      (by simp)
    have fatal := reads.fatal.mpr fun immediate entry same => by
      have cancelled := left entry _ same rfl (Strategy.failurePolicy_eq_bestEffort.mpr immediate)
      have blamed := reads.blame failure
      rw [cancelled] at blamed
      exact blame_ne_cancelled blamed
    rw [spared] at fatal
    cases fatal

theorem succeed_foreword (o : Order) : Succeed o.foreword := by
  intro call reply mem
  obtain ⟨line, eq⟩ := mem_foreword mem
  cases eq

/-- The pass of an immediate rollout in which every required call succeeds. -/
theorem passage_tried (before : List Event) (passage : o.Passage calm x r) (calmly : calm)
    (immediate : o.strategy = .immediate) (planned : o.plan = .ok plan) (hung : r ≠ .hung)
    (noPanic : ∀ call text, .ended .pass call (.panicked text) ∉ x)
    (untouched : SameMachines before [])
    (required : ∀ u call failure v, x = u ++ .ended .pass call (.failed failure) :: v →
      o.isFatal (before ++ u) call = false) :
    ∃ opening attempts reply, x = opening ++ (attempts.flatten ++
        [.began .pass o.handback, .ended .pass o.handback reply]) ∧
      begun opening = (if o.runsCommand then [.releaseCommand] else []) ++
        o.acquisition :: plan.openingCalls ∧ Succeed opening ∧
      (∀ n, .note n ∈ opening → n ∈ o.preface) ∧
      List.Forall₂ Attempt (plan.entries o.deployment.machines) attempts ∧ r = .exit (.ok ()) := by
  cases passage with
  | barred stops =>
    exfalso
    obtain ⟨current, call, blame, failure, next, rfl, rfl⟩ := stops.of_calm calmly
      (fun eq => hung (by rw [eq]; rfl)) noPanic
    have spared := required (current ++ [.began .pass call]) call failure [] (by simp)
    rw [(admission_next next).2] at spared
    cases spared
  | @admitted x y z r₀ _ whole work handed =>
    have hung₀ : r₀ ≠ .hung := handed.ne_hung hung
    obtain rfl := eq_admitting whole
    obtain ⟨rfl, segments, rfl, pasts⟩ := work_whole (before ++ (o.admitting ++ o.foreword)) work
      calmly planned hung₀ (fun call text mem => noPanic call text (by simp [mem]))
      (untouched.append (o.sameMachines_admitting.append o.sameMachines_foreword))
      fun u call failure v eq => by
        have spared := required (o.admitting ++ (o.foreword ++ u)) call failure (v ++ z)
          (by simp [eq])
        simpa using spared
    obtain ⟨⟨reply, rfl⟩, rfl⟩ := handed.smooth hung fun call text mem =>
      noPanic call text (by simp [mem])
    rw [tasks] at pasts
    obtain ⟨opening, attempts, rfl, both, entries⟩ := forall₂_of_append_left pasts
    obtain ⟨removals, creations, rfl, removing, creating⟩ := forall₂_of_append_left both
    have removed := dones_of_pasts (by simp) removing
    have created := dones_of_pasts (by simp) creating
    obtain ⟨removals_succeed, removals_silent⟩ := succeed_of_dones removed
    obtain ⟨creations_succeed, creations_silent⟩ := succeed_of_dones created
    refine ⟨o.admitting ++ (o.foreword ++ (removals.flatten ++ creations.flatten)), attempts, reply,
      by simp, ?_, ?_, fun n mem => ?_, ?_, rfl⟩
    · simp [begun_admitting, begun_foreword, begun_of_removals removed,
        begun_of_creations immediate created, Plan.openingCalls, diff_of_plan planned,
        launches_of_plan planned]
    · simp [succeed_append, whole.succeed, succeed_foreword, removals_succeed, creations_succeed]
    · simp only [List.mem_append, whole.note_notMem, removals_silent, creations_silent, or_false,
        false_or] at mem
      exact mem_preface mem
    · rw [← entries_of_plan planned]
      exact entries_tried immediate calmly entries

/-- An immediate rollout in which every required call succeeds. -/
theorem course_tried (course : o.Course calm x r) (calmly : calm)
    (immediate : o.strategy = .immediate) (planned : o.plan = .ok plan) (hung : r ≠ .hung)
    (noPanic : ∀ call text, .ended .pass call (.panicked text) ∉ x)
    (required : ∀ u call failure v, x = u ++ .ended .pass call (.failed failure) :: v →
      ¬ o.Required u call) :
    ∃ opening attempts reply, x = opening ++ attempts.flatten ++
        .began .pass o.handback :: .ended .pass o.handback reply :: exchange o.markComplete () ∧
      begun opening = o.prelude plan ∧ Succeed opening ∧
      (∀ n, .note n ∈ opening → n ∈ o.preface) ∧
      List.Forall₂ Attempt (plan.entries o.deployment.machines) attempts ∧ r = .exit (.ok ()) := by
  cases course with
  | unannounced breaks =>
    exfalso
    cases breaks with
    | refused alarmed => exact alarmed calmly
    | abandoned alarmed => exact alarmed calmly
    | failed failure => exact required [.began .pass o.markRunning] _ failure [] rfl (.inl rfl)
    | panicked text => exact noPanic o.markRunning text (by simp)
    | unanswered => exact hung rfl
  | @announced x y r₀ _ passage concluded =>
    have hung₀ : r₀ ≠ .hung := concluded.ne_hung hung
    obtain ⟨opening, attempts, reply, rfl, calls, succeed, told, tried, rfl⟩ :=
      passage_tried (exchange o.markRunning ()) passage calmly immediate planned hung₀
        (fun call text mem => noPanic call text (by simp [mem])) ⟨rfl, rfl⟩
        fun u call failure v eq => by
          have spared := required (exchange o.markRunning () ++ u) call failure (v ++ y)
            (by simp [eq])
          exact Bool.eq_false_iff.mpr fun fatal => spared (.inl fatal)
    obtain ⟨rfl, rfl⟩ := concluded.smooth_ok hung
      (fun call text mem => noPanic call text (by simp [mem]))
      fun failure mem => by
        obtain ⟨u, v, rfl⟩ := List.append_of_mem mem
        exact required _ o.markComplete failure v (by simp only [← List.append_assoc]; rfl)
          (.inr rfl)
    refine ⟨exchange o.markRunning () ++ opening, attempts, reply, by simp, ?_, ?_, fun n mem => ?_,
      tried, rfl⟩
    · rw [begun_append, calls]
      rfl
    · exact succeed_append.mpr ⟨Procedure.succeed_exchange _, succeed⟩
    · exact told n (by simpa [exchange] using mem)

theorem unwaited_prelude {call : Call} (mem : call ∈ o.prelude plan) : call.isWait = false := by
  rw [prelude, List.cons_append] at mem
  rcases List.mem_cons.mp mem with rfl | mem
  · rfl
  · rcases List.mem_append.mp mem with command | rest
    · split at command
      · cases List.mem_singleton.mp command
        rfl
      · cases command
    · rcases List.mem_cons.mp rest with rfl | changes
      · rfl
      · rw [Plan.openingCalls] at changes
        rcases List.mem_append.mp changes with destroys | launches
        · obtain ⟨m, _, rfl⟩ := List.mem_map.mp destroys
          rfl
        · obtain ⟨launch, _, rfl⟩ := List.mem_map.mp launches
          rfl

theorem unwaited_attempts {entries : List Entry} {attempts : List (List Event)}
    (tried : List.Forall₂ Attempt entries attempts) :
    ∀ call ∈ begun attempts.flatten, call.isWait = false := by
  induction tried with
  | nil => simp
  | cons first _ ih =>
    intro call mem
    rw [List.flatten_cons, begun_append] at mem
    rcases List.mem_append.mp mem with mem | mem
    · exact first.unwaited call mem
    · exact ih call mem

theorem script_bestEffort {s later : Stage} {events : List Event}
    (h : o.script.Tells s events r later) (immediate : o.strategy = .immediate)
    (planned : o.plan = .ok plan) (down : s.signal.StaysDown events) (hung : r ≠ .hung)
    (noPanic : ∀ call text, .ended .pass call (.panicked text) ∉ events)
    (required : ∀ before call failure later,
      events = before ++ .ended .pass call (.failed failure) :: later → ¬ o.Required before call) :
    BestEffort o plan events r := by
  obtain ⟨opening, attempts, reply, whole, calls, succeed, told, tried, rfl⟩ :=
    course_tried (script_course h.speaks) down immediate planned hung
      (fun call text mem => noPanic call text ((mem_transcript rfl).mp mem))
      fun u call failure v eq => by
        obtain ⟨before, later, rfl, rfl, rfl⟩ := split_transcript eq
        rw [Required, isFatal_congr (SameMachines.of_transcript before)]
        exact required before call failure later rfl
  refine ⟨⟨opening, attempts, reply, whole, calls, succeed, told, tried⟩, ?_, rfl⟩
  intro call mem
  rw [← begun_transcript, whole, begun_append, begun_append, calls] at mem
  rcases List.mem_append.mp mem with mem | closing
  · rcases List.mem_append.mp mem with opens | tries
    · exact unwaited_prelude opens
    · exact unwaited_attempts tried call tries
  · have among : call ∈ [o.handback, o.markComplete] := closing
    rcases List.mem_pair.mp among with rfl | rfl
    · rfl
    · rfl

end Course

/-- An immediate rollout with a plan in which shutdown is never requested, nothing panics, and
every required call succeeds, tries every entry and ends well, whichever of them fail. Where
every call of the collaborators returns it does not hang. -/
theorem run_bestEffort {σ : Type} (o : Order) (c : Collaborators σ) (signal : Signal)
    (schedule : List (Nat × SignalChange)) (memory : σ) (plan : Plan)
    (immediate : o.strategy = .immediate) (planned : o.plan = .ok plan) :
    (∀ horizon, signal.StaysDown (o.run c horizon (.start signal schedule memory)).1.events →
      (o.run c horizon (.start signal schedule memory)).2 ≠ .hung →
      (∀ call text, .ended .pass call (.panicked text) ∉
        (o.run c horizon (.start signal schedule memory)).1.events) →
      (∀ before call failure later, (o.run c horizon (.start signal schedule memory)).1.events =
        before ++ .ended .pass call (.failed failure) :: later → ¬ o.Required before call) →
      BestEffort o plan (o.run c horizon (.start signal schedule memory)).1.events
        (o.run c horizon (.start signal schedule memory)).2) ∧
    (c.Return → ∃ time, ∀ horizon : Horizon, time < horizon.time →
      (o.run c horizon (.start signal schedule memory)).2 ≠ .hung) := by
  refine ⟨fun horizon down hung noPanic required => ?_, fun returns => o.run_returns returns _⟩
  exact script_bestEffort (o.run_tells c horizon signal schedule memory) immediate planned down hung
    noPanic required

end Order

namespace Rehearsal

/-- A deployment that removes a machine, creates one and updates one, without waiting. -/
def immediateOrder : Order := { mixedOrder with settings := { strategy := .immediate } }

def immediatePlan : Plan := immediateOrder.plan.toOption.getD {}

def isMild : Event → Bool
  | .ended .pass (.update ..) (.failed _) => true
  | .ended .pass _ (.failed _) => false
  | .ended .pass _ (.panicked _) => false
  | .signal _ => false
  | _ => true

section Mild

variable {events : List Event} (mild : events.all isMild = true)
include mild

theorem staysDown_of_mild : ({} : Signal).StaysDown events :=
  .of_still rfl fun c mem =>
    absurd (List.all_eq_true.mp mild (.signal c) mem) Bool.false_ne_true

theorem not_panicked_of_mild (call : Call) (text : String) :
    .ended .pass call (.panicked text) ∉ events := by
  intro mem
  have fine := List.all_eq_true.mp mild _ mem
  cases call <;> exact Bool.false_ne_true fine

theorem not_required_of_mild (before : List Event) (call : Call) (failure : Failure)
    (later : List Event) (eq : events = before ++ .ended .pass call (.failed failure) :: later) :
    ¬ immediateOrder.Required before call := by
  have fine := List.all_eq_true.mp mild (.ended .pass call (.failed failure)) (by simp [eq])
  cases call with
  | update m input => exact fun required => by rcases required with h | h <;> cases h
  | _ => exact absurd fine Bool.false_ne_true

end Mild

/-- The only update fails, and the rollout ends well. -/
theorem immediateOrder_bestEffort : ∃ time,
    BestEffort immediateOrder immediatePlan
      (immediateOrder.run Fleet.collaborators ⟨60000, false⟩
        (.start {} [] { faults := { failUpdate := ["m_1"] } })).1.events (.exit (.ok ())) ∧
    ∀ horizon : Horizon, time < horizon.time →
      (immediateOrder.run willing horizon (.start {} [] ())).2 ≠ .hung := by
  have mild : (immediateOrder.run Fleet.collaborators ⟨60000, false⟩
      (.start {} [] { faults := { failUpdate := ["m_1"] } })).1.events.all isMild = true := rfl
  obtain ⟨tries, _⟩ := Order.run_bestEffort immediateOrder Fleet.collaborators {} []
    { faults := { failUpdate := ["m_1"] } } immediatePlan rfl rfl
  obtain ⟨_, returns⟩ := Order.run_bestEffort immediateOrder willing {} [] () immediatePlan rfl rfl
  obtain ⟨time, ends⟩ := returns willing_return
  refine ⟨time, ?_, ends⟩
  exact tries ⟨60000, false⟩ (staysDown_of_mild mild) (fun eq => by cases eq)
    (not_panicked_of_mild mild) (not_required_of_mild mild)

end Rehearsal

end Rollout
