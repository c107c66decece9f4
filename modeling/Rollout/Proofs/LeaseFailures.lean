import Rollout.Proofs.Due
import Rollout.Proofs.Frame

/-!
# Failures around leases

Once the leases of a pass are held, it does not matter to a rollout whether renewing them or giving
them back fails. The rollout makes the same calls at the same times, and returns the same, as with
collaborators that behave alike but never fail at that.
-/

namespace Rollout

open Script

variable {σ α β : Type}

/-- The answer that stands in for a failure about leases. -/
def Call.pardon : (call : Call) → Option call.Answer
  | .acquire .. => some ()
  | .release _ => some ()
  | .setStatus .. => none
  | .releaseCommand => none
  | .launch _ => none
  | .update .. => none
  | .destroy .. => none
  | .waitForState .. => none
  | .waitForHealthchecks .. => none

theorem Call.pardon_eq_none {call : Call} (notAcquire : call.role ≠ .acquire)
    (notRelease : call.role ≠ .release) : call.pardon = none := by
  cases call with
  | acquire machines ttl => exact absurd rfl notAcquire
  | release machines => exact absurd rfl notRelease
  | _ => rfl

def Reply.mended (answer : Option α) : Reply α → Reply α
  | .failed failure =>
    match answer with
    | some a => .ok a
    | none => .failed failure
  | reply => reply

@[simp] theorem Reply.mended_none (reply : Reply α) : reply.mended none = reply := by
  cases reply <;> rfl

def Reaction.mended (answer : Option α) : Reaction α → Reaction α
  | .fail failure =>
    match answer with
    | some a => .succeed a
    | none => .fail failure
  | .sleep ms next => .sleep ms (next.mended answer)
  | .signal change next => .signal change (next.mended answer)
  | .succeed a => .succeed a
  | .panic text => .panic text
  | .hang => .hang

def Halt.mended (answer : Option α) : Halt α → Halt α
  | .ended reply => .ended (reply.mended answer)
  | .asleep ms next => .asleep ms (next.mended answer)
  | .hung => .hung

/-- The same collaborators, but for failures to acquire or to release leases. -/
def Collaborators.lenient (c : Collaborators σ) : Collaborators σ where
  react memory time call :=
    ((c.react memory time call).1, (c.react memory time call).2.mended call.pardon)

theorem Reaction.settle_mended (answer : Option α) (reaction : Reaction α) :
    (reaction.mended answer).settle = (reaction.settle.1, reaction.settle.2.mended answer) := by
  induction reaction with
  | succeed a => rfl
  | fail failure => cases answer <;> rfl
  | panic text => rfl
  | hang => rfl
  | sleep ms next ih =>
    cases ms with
    | zero => exact ih
    | succ ms => rfl
  | signal change next ih => simp [mended, settle, ih]

/-- What a loop does that no failure reaches. -/
def RenewalPhase.mended : RenewalPhase → RenewalPhase
  | .inFlight wake rest => .inFlight wake (rest.mended (some ()))
  | .waiting => .waiting
  | .ended => .ended
  | .crashed => .crashed

def Renewal.mended (r : Renewal) : Renewal := { r with failures := 0, phase := r.phase.mended }

namespace Renewal

theorem phase_mended (r : Renewal) : r.mended.phase = r.phase.mended := rfl

theorem due?_mended (r : Renewal) : r.mended.due? = r.due? := by
  rw [due?, due?, phase_mended]
  cases r.phase <;> rfl

theorem isLive_mended (r : Renewal) : r.mended.isLive = r.isLive := by
  rw [isLive, isLive, phase_mended]
  cases r.phase <;> rfl

theorem finish_mended (r : Renewal) (reply : Reply Unit) :
    (r.mended.finish (reply.mended (some ()))).1 = (r.finish reply).1.mended := by
  cases reply <;> rfl

end Renewal

namespace World

def replied (call : Call) :
    World σ × Option (Reply call.Answer) → World σ × Option (Reply call.Answer)
  | (w, some reply) => (w.record (.ended .pass call reply), some reply)
  | (w, none) => (w, none)

theorem perform_of_open (c : Collaborators σ) (horizon : Horizon) {w : World σ} {call : Call}
    (admitted : (call.cancellable && w.signal.raised) = false) : w.perform c horizon call =
      replied call ((w.asked c .pass call).await c horizon call.cancellable
        (c.react w.memory w.now call).2) := by
  rw [perform, admitted]
  rfl

/-- Two worlds that are alike but for failed renewals in the first one. -/
structure Alike (w w' : World σ) : Prop where
  now : w'.now = w.now
  signal : w'.signal = w.signal
  schedule : w'.schedule = w.schedule
  memory : w'.memory = w.memory
  renewal : w'.renewal = w.renewal.map Renewal.mended
  calls : w'.trace.calls = w.trace.calls

namespace Alike

variable {w w' : World σ}

theorem calls_record (w : World σ) (e : Event) :
    (w.record e).trace.calls = w.trace.calls ++ Trace.calls [⟨w.now, e⟩] := by
  rw [World.trace_record, Trace.calls_append]

theorem asked (c : Collaborators σ) (alike : w.Alike w') (actor : Actor) (call : Call) :
    (w.asked c actor call).Alike (w'.asked c.lenient actor call) := by
  refine ⟨alike.now, alike.signal, alike.schedule, ?_, alike.renewal, ?_⟩
  · simp only [World.asked, Collaborators.lenient, alike.memory, alike.now]
  · have grown := calls_record w (.began actor call)
    have grown' := calls_record w' (.began actor call)
    rw [alike.calls, alike.now] at grown'
    exact grown'.trans grown.symm

/-- What is recorded in one of the worlds only is no call. -/
theorem record_left (alike : w.Alike w') {e : Event} (silent : Trace.calls [⟨w.now, e⟩] = []) :
    (w.record e).Alike w' := by
  refine ⟨alike.now, alike.signal, alike.schedule, alike.memory, alike.renewal, ?_⟩
  rw [calls_record, silent, List.append_nil, alike.calls]

theorem record_right (alike : w.Alike w') {e : Event} (silent : Trace.calls [⟨w'.now, e⟩] = []) :
    w.Alike (w'.record e) := by
  refine ⟨alike.now, alike.signal, alike.schedule, alike.memory, alike.renewal, ?_⟩
  rw [calls_record, silent, List.append_nil, alike.calls]

theorem note (alike : w.Alike w') (n n' : Note) :
    (w.record (.note n)).Alike (w'.record (.note n')) :=
  (alike.record_left rfl).record_right rfl

theorem ended (alike : w.Alike w') (actor : Actor) (call : Call) (reply reply' : Reply call.Answer) :
    (w.record (.ended actor call reply)).Alike (w'.record (.ended actor call reply')) :=
  (alike.record_left rfl).record_right rfl

theorem moveTo (alike : w.Alike w') (time : Nat) : (w.moveTo time).Alike (w'.moveTo time) :=
  ⟨by simp [World.moveTo, alike.now], alike.signal, alike.schedule, alike.memory, alike.renewal,
    alike.calls⟩

theorem change (alike : w.Alike w') (c : SignalChange) : (w.change c).Alike (w'.change c) := by
  have changed : World.Alike { w with signal := w.signal.change c }
      { w' with signal := w'.signal.change c } :=
    ⟨alike.now, by rw [alike.signal], alike.schedule, alike.memory, alike.renewal, alike.calls⟩
  exact (changed.record_left rfl).record_right rfl

theorem changeAll (alike : w.Alike w') (changes : List SignalChange) :
    (w.changeAll changes).Alike (w'.changeAll changes) := by
  induction changes generalizing w w' with
  | nil => exact alike
  | cons c rest ih => exact ih (alike.change c)

theorem catchUp (alike : w.Alike w') : w.catchUp.Alike w'.catchUp := by
  rw [World.catchUp, World.catchUp, alike.now, alike.schedule]
  have caught : ∀ schedule, World.Alike { w with schedule } { w' with now := w.now, schedule } :=
    fun _ => ⟨rfl, alike.signal, rfl, alike.memory, alike.renewal, alike.calls⟩
  exact (caught _).changeAll _

theorem logAll_left (alike : w.Alike w') (logs : List LogRecord) : (w.logAll logs).Alike w' := by
  induction logs generalizing w with
  | nil => exact alike
  | cons record rest ih => exact ih (alike.record_left rfl)

theorem logAll_right (alike : w.Alike w') (logs : List LogRecord) : w.Alike (w'.logAll logs) := by
  induction logs generalizing w' with
  | nil => exact alike
  | cons record rest ih => exact ih (alike.record_right rfl)

theorem setRenewal (alike : w.Alike w') {r r' : Renewal × List LogRecord}
    (mended : r'.1 = r.1.mended) : (w.setRenewal r).Alike (w'.setRenewal r') := by
  have set : World.Alike { w with renewal := some r.1 } { w' with renewal := some r'.1 } :=
    ⟨alike.now, alike.signal, alike.schedule, alike.memory, congrArg some mended, alike.calls⟩
  exact (set.logAll_left r.2).logAll_right r'.2

theorem startRenewal (alike : w.Alike w') (machines : List MachineId) (ttl interval : Duration) :
    (w.startRenewal machines ttl interval).Alike (w'.startRenewal machines ttl interval) := by
  rw [World.startRenewal, World.startRenewal, alike.now]
  exact alike.setRenewal rfl

theorem goOn (alike : w.Alike w') (r : Renewal) (reaction : Reaction Unit) :
    (w.goOn r reaction).Alike (w'.goOn r.mended (reaction.mended (some ()))) := by
  rw [World.goOn, World.goOn, Reaction.settle_mended]
  have changed := alike.changeAll reaction.settle.1
  cases reaction.settle.2 with
  | ended reply =>
    exact (changed.ended .renewal r.call reply _).setRenewal (r.finish_mended reply)
  | asleep ms rest =>
    simp only [Halt.mended, changed.now]
    exact changed.setRenewal rfl
  | hung => exact changed.setRenewal rfl

theorem fire (c : Collaborators σ) (alike : w.Alike w') (r : Renewal) :
    (w.fire c r).Alike (w'.fire c.lenient r.mended) := by
  cases phase : r.phase with
  | waiting =>
    have mended : r.mended.phase = .waiting := by rw [r.phase_mended, phase]; rfl
    have gone := (alike.asked c .renewal r.call).goOn r.nextTick (c.react w.memory w.now r.call).2
    rw [fire_of_waiting c w phase, fire_of_waiting c.lenient w' mended, Collaborators.lenient,
      alike.memory, alike.now]
    exact gone
  | inFlight wake rest =>
    simpa only [World.fire, r.phase_mended, phase, RenewalPhase.mended] using alike.goOn r rest
  | ended => simpa only [World.fire, r.phase_mended, phase, RenewalPhase.mended] using alike
  | crashed => simpa only [World.fire, r.phase_mended, phase, RenewalPhase.mended] using alike

theorem live (alike : w.Alike w') : w'.renewalIsLive = w.renewalIsLive := by
  rw [renewalIsLive, renewalIsLive, alike.renewal]
  cases w.renewal with
  | none => rfl
  | some r => exact r.isLive_mended

theorem due (alike : w.Alike w') : w'.renewalDue? = w.renewalDue? := by
  rw [renewalDue?, renewalDue?, alike.renewal]
  cases w.renewal with
  | none => rfl
  | some r => exact r.due?_mended

theorem endRenewal (alike : w.Alike w') : w.endRenewal.Alike w'.endRenewal := by
  have renewal := alike.renewal
  rw [World.endRenewal, World.endRenewal, renewal]
  cases w.renewal with
  | none => exact alike
  | some r =>
    have phase := r.phase_mended
    simp only [Option.map_some]
    cases here : r.phase with
    | waiting =>
      rw [here] at phase
      simp only [phase]
      exact alike.setRenewal rfl
    | inFlight wake rest =>
      rw [here] at phase
      simp only [phase]
      exact (alike.ended .renewal r.call .cancelled .cancelled).setRenewal
        (r.finish_mended .cancelled)
    | ended =>
      rw [here] at phase
      simp only [phase]
      exact alike
    | crashed =>
      rw [here] at phase
      simp only [phase]
      exact alike

theorem dropRenewal (alike : w.Alike w') : w.dropRenewal.Alike w'.dropRenewal :=
  have ended := alike.endRenewal
  ⟨ended.now, ended.signal, ended.schedule, ended.memory, rfl, ended.calls⟩

theorem stopRenewal (alike : w.Alike w') : w.stopRenewal.Alike w'.stopRenewal := by
  have renewal := alike.renewal
  rw [World.stopRenewal, World.stopRenewal, renewal]
  cases w.renewal with
  | none => exact alike
  | some r => exact (alike.dropRenewal.logAll_left _).logAll_right _

theorem renewalStep (c : Collaborators σ) (limit : Nat) (alike : w.Alike w') :
    Option.Rel Alike (w.renewalStep c limit) (w'.renewalStep c.lenient limit) := by
  have renewal := alike.renewal
  rw [World.renewalStep, World.renewalStep, renewal]
  cases w.renewal with
  | none => exact .none
  | some r =>
    simp only [Option.map_some, r.due?_mended]
    cases r.due? with
    | none => exact .none
    | some time =>
      dsimp only
      split
      · exact .some ((alike.moveTo time).fire c r)
      · exact .none

theorem step (c : Collaborators σ) (limit : Nat) (alike : w.Alike w') :
    Option.Rel Alike (w.step c limit) (w'.step c.lenient limit) := by
  rw [World.step, World.step, alike.signal, alike.live, alike.schedule, alike.due]
  split
  · exact .some alike.endRenewal
  · split
    · exact alike.renewalStep c limit
    · rename_i time next rest _
      split
      · have taken : World.Alike { w with schedule := rest }
            { w' with signal := w.signal, schedule := rest } :=
          ⟨alike.now, rfl, rfl, alike.memory, alike.renewal, alike.calls⟩
        exact .some ((taken.moveTo time).change next)
      · exact alike.renewalStep c limit

theorem advanceBy (c : Collaborators σ) (interruptible : Bool) (limit bound : Nat)
    (alike : w.Alike w') : (w.advanceBy c interruptible limit bound).Alike
      (w'.advanceBy c.lenient interruptible limit bound) := by
  induction bound generalizing w w' with
  | zero => exact alike
  | succ bound ih =>
    rw [World.advanceBy, World.advanceBy, alike.signal]
    split
    · exact alike
    · have stepped := alike.step c limit
      generalize w.step c limit = next, w'.step c.lenient limit = next' at stepped
      cases stepped with
      | none => exact alike
      | some alike => exact ih alike

theorem stepBound (alike : w.Alike w') (limit : Nat) :
    w'.stepBound limit = w.stepBound limit := by
  rw [World.stepBound, World.stepBound, alike.schedule, alike.renewal, alike.now, Option.map_map]
  rfl

theorem advance (c : Collaborators σ) (interruptible : Bool) (limit : Nat) (alike : w.Alike w') :
    (w.advance c interruptible limit).Alike (w'.advance c.lenient interruptible limit) := by
  rw [World.advance, World.advance, alike.stepBound]
  exact alike.advanceBy c interruptible limit _

theorem isOver (alike : w.Alike w') (horizon : Horizon) : w'.isOver horizon = w.isOver horizon := by
  rw [World.isOver, World.isOver, alike.now]

def Outcomes (answer : Option α) (out out' : World σ × Option (Reply α)) : Prop :=
  out.1.Alike out'.1 ∧ out'.2 = out.2.map (Reply.mended answer)

theorem cutOff (answer : Option α) (horizon : Horizon) (interruptible : Bool)
    (alike : w.Alike w') : Outcomes answer (w.cutOff horizon interruptible)
      (w'.cutOff horizon interruptible) := by
  have moved := alike.moveTo horizon.time
  rw [World.cutOff, World.cutOff]
  cases horizon.inclusive with
  | false => exact ⟨moved, rfl⟩
  | true =>
    have caught := moved.catchUp
    refine ⟨caught, ?_⟩
    simp only [if_true, caught.signal]
    split <;> rfl

theorem await (c : Collaborators σ) (horizon : Horizon) (interruptible : Bool) (answer : Option α)
    (reaction : Reaction α) (alike : w.Alike w') :
    Outcomes answer (w.await c horizon interruptible reaction)
      (w'.await c.lenient horizon interruptible (reaction.mended answer)) := by
  induction reaction generalizing w w' with
  | succeed a => exact ⟨alike, rfl⟩
  | fail failure => cases answer <;> exact ⟨alike, rfl⟩
  | panic text => exact ⟨alike, rfl⟩
  | signal change next ih => exact ih (alike.change change)
  | hang =>
    simp only [Reaction.mended, World.await, alike.isOver]
    have gone := alike.advance c interruptible horizon.time
    split
    · exact ⟨alike, rfl⟩
    · simp only [gone.signal]
      split
      · exact ⟨gone, rfl⟩
      · exact gone.cutOff answer horizon interruptible
  | sleep ms next ih =>
    cases ms with
    | zero => exact ih alike
    | succ ms =>
      simp only [Reaction.mended, World.await, alike.isOver, alike.now]
      have gone := alike.advance c interruptible (min (w.now + (ms + 1)) horizon.time)
      split
      · exact ⟨alike, rfl⟩
      · simp only [gone.signal]
        split
        · exact ⟨gone, rfl⟩
        · split
          · exact gone.cutOff answer horizon interruptible
          · exact ih (gone.moveTo _)

theorem perform (c : Collaborators σ) (horizon : Horizon) (call : Call) (alike : w.Alike w') :
    Outcomes call.pardon (w.perform c horizon call) (w'.perform c.lenient horizon call) := by
  cases admitted : call.cancellable && w.signal.raised with
  | true =>
    rw [World.perform, World.perform, alike.signal, admitted]
    exact ⟨alike, rfl⟩
  | false =>
    have waited := (alike.asked c .pass call).await c horizon call.cancellable call.pardon
      (c.react w.memory w.now call).2
    rw [perform_of_open c horizon admitted,
      perform_of_open c.lenient horizon (by rw [alike.signal, admitted])]
    simp only [Collaborators.lenient, alike.memory, alike.now] at waited ⊢
    generalize World.await c horizon call.cancellable _ _ = out at waited ⊢
    generalize World.await _ horizon call.cancellable _ _ = out' at waited ⊢
    obtain ⟨after, reply⟩ := out
    obtain ⟨after', reply'⟩ := out'
    obtain ⟨gone, rfl⟩ := waited
    cases reply with
    | none => exact ⟨gone, rfl⟩
    | some reply => exact ⟨gone.ended .pass call reply _, rfl⟩

end Alike

end World

/-- Two scripts that differ in what they say only, if failures about leases become answers in the
second one. The leases may not be refused in the first place. -/
inductive Script.Like : Script α → Script α → Prop
  | done (exit : Exit α) : Like (.done exit) (.done exit)
  | note {n n' next next'} : Like next next' → Like (.note n next) (.note n' next')
  | checkpoint {next next'} : (∀ raised, Like (next raised) (next' raised)) →
    Like (.checkpoint next) (.checkpoint next')
  | call {made next next'} : (∀ reply, (made.role = .acquire → ∀ failure, reply ≠ .failed failure) →
      Like (next reply) (next' (reply.mended made.pardon))) →
    Like (.call made next) (.call made next')
  | startRenewal {machines ttl interval next next'} : Like next next' →
    Like (.startRenewal machines ttl interval next) (.startRenewal machines ttl interval next')
  | stopRenewal {next next'} : Like next next' → Like (.stopRenewal next) (.stopRenewal next')

namespace Script.Like

theorem bind {first first' : Script α} {next next' : α → Script β} (like : first.Like first')
    (rest : ∀ a, (next a).Like (next' a)) : (first >>= next).Like (first' >>= next') := by
  change (first.bind next).Like (first'.bind next')
  induction like with
  | done exit =>
    cases exit with
    | ok a => exact rest a
    | error e => exact .done _
    | panic text => exact .done _
  | note _ ih => exact .note ih
  | checkpoint _ ih => exact .checkpoint ih
  | call _ ih => exact .call ih
  | startRenewal _ ih => exact .startRenewal ih
  | stopRenewal _ ih => exact .stopRenewal ih

theorem attempt {script script' : Script α} (like : script.Like script') :
    script.attempt.Like script'.attempt := by
  induction like with
  | done exit => exact .done _
  | note _ ih => exact .note ih
  | checkpoint _ ih => exact .checkpoint ih
  | call _ ih => exact .call ih
  | startRenewal _ ih => exact .startRenewal ih
  | stopRenewal _ ih => exact .stopRenewal ih

/-- A script that leaves leases alone. -/
theorem of_uses {allowed : Call → Prop} {script : Script α} (uses : script.Uses allowed)
    (others : ∀ call, allowed call → call.pardon = none) : script.Like script := by
  induction script with
  | done exit => exact .done exit
  | note n next ih => exact .note (ih uses)
  | checkpoint next ih => exact .checkpoint fun raised => ih raised (uses raised)
  | call made next ih =>
    refine .call fun reply _ => ?_
    rw [others made uses.1, Reply.mended_none]
    exact ih reply (uses.2 reply)
  | startRenewal machines ttl interval next ih => exact uses.elim
  | stopRenewal next ih => exact uses.elim

end Script.Like

/-- Nobody is refused the leases that a pass works with. -/
def Granted (events : List Event) : Prop := ∀ call failure, call.role = .acquire →
  .ended .pass call (.failed failure) ∉ events

/-- A reply other than a cancellation is told. -/
theorem World.ended_mem_perform {c : Collaborators σ} {horizon : Horizon} {w : World σ}
    {call : Call} {reply : Reply call.Answer} (replied : (w.perform c horizon call).2 = some reply)
    (notCancelled : reply ≠ .cancelled) :
    .ended .pass call reply ∈ (w.perform c horizon call).1.events := by
  rcases w.perform_cases c horizon call with ⟨_, refused⟩ |
    ⟨_, noise, mid, reply', grown, _, _, _, replied'⟩ | ⟨_, _, _, _, _, _, none⟩
  · rw [refused] at replied
    cases replied
    exact absurd rfl notCancelled
  · rw [replied'] at replied
    cases replied
    simp [grown]
  · rw [none] at replied
    cases replied

/-- Runs of scripts that differ in what they say only. -/
theorem Script.Like.run {script script' : Script α} (c : Collaborators σ) (horizon : Horizon)
    {w w' : World σ} (like : script.Like script') (alike : w.Alike w')
    (granted : Granted (script.run c horizon w).1.events) :
    (script.run c horizon w).1.Alike (script'.run c.lenient horizon w').1 ∧
      (script'.run c.lenient horizon w').2 = (script.run c horizon w).2 := by
  induction like generalizing w w' with
  | done exit => exact ⟨alike, rfl⟩
  | note _ ih => exact ih (alike.note _ _) granted
  | checkpoint _ ih =>
    simp only [Script.run, alike.signal] at granted ⊢
    exact ih _ alike granted
  | startRenewal _ ih => exact ih (alike.startRenewal _ _ _) granted
  | stopRenewal _ ih =>
    simp only [Script.run, alike.isOver, alike.live] at granted ⊢
    split
    · exact ⟨alike.dropRenewal, rfl⟩
    · rename_i goesOn
      rw [if_neg goesOn] at granted
      exact ih alike.stopRenewal granted
  | @call made next next' _ ih =>
    have performed := alike.perform c horizon made
    have told : ∀ reply, (w.perform c horizon made).2 = some reply → reply ≠ .cancelled →
        .ended .pass made reply ∈ (w.perform c horizon made).1.events :=
      fun _ => World.ended_mem_perform
    simp only [Script.run] at granted ⊢
    generalize w.perform c horizon made = out at performed granted told ⊢
    generalize w'.perform c.lenient horizon made = out' at performed ⊢
    obtain ⟨after, reply⟩ := out
    obtain ⟨after', reply'⟩ := out'
    obtain ⟨gone, rfl⟩ := performed
    cases reply with
    | none => exact ⟨gone.dropRenewal, rfl⟩
    | some reply =>
      refine ih reply (fun acquires failure eq => ?_) gone granted
      obtain ⟨more, grown, _⟩ := (next reply).run_tells c horizon after
      subst eq
      refine granted made failure acquires ?_
      rw [grown]
      exact List.mem_append_left more (told _ rfl (by simp))

namespace Order

theorem giveBack_like (o : Order) (exit : Exit Unit) : (o.giveBack exit).Like (o.giveBack exit) := by
  refine .stopRenewal (.call fun reply _ => ?_)
  cases reply with
  | ok answer => exact .note (.done _)
  | failed failure => exact .note (.done _)
  | panicked text => exact .done _
  | cancelled => exact .note (.done _)

theorem acquire_like (o : Order) :
    (request .leaseAcquisition o.acquisition).Like (request .leaseAcquisition o.acquisition) := by
  refine .call fun reply granted => ?_
  cases reply with
  | ok answer => exact .done _
  | failed failure => exact absurd rfl (granted rfl failure)
  | panicked text => exact .done _
  | cancelled => exact .note (.done _)

theorem pass_like (o : Order) : o.pass.Like o.pass := by
  obtain ⟨opening, body, eq, uses, work⟩ := o.pass_eq_withLeases
  rw [eq, withLeases_eq]
  refine .bind (.of_uses uses fun call same => by rw [same]; rfl) fun _ => ?_
  refine .bind o.acquire_like fun _ => .note (.startRenewal ?_)
  refine .bind (.attempt (.of_uses work fun call role => ?_)) o.giveBack_like
  exact Call.pardon_eq_none (by simp [role]) (by simp [role])

theorem script_like (o : Order) : o.script.Like o.script := by
  rw [script_eq]
  refine .bind (.of_uses o.announce_uses fun call role => ?_) fun _ =>
    .bind (.attempt o.pass_like) fun exit => .of_uses (o.conclude_uses exit) fun call role => ?_
  · exact Call.pardon_eq_none (by simp [role]) (by simp [role])
  · exact Call.pardon_eq_none (by simp [role]) (by simp [role])

/-- If the pass is not refused its leases, the rollout does not mind failures to renew or to
release them. -/
theorem run_lenient (o : Order) (c : Collaborators σ) (horizon : Horizon) (signal : Signal)
    (schedule : List (Nat × SignalChange)) (memory : σ)
    (granted : Granted (o.run c horizon (.start signal schedule memory)).1.events) :
    (o.run c.lenient horizon (.start signal schedule memory)).2 =
      (o.run c horizon (.start signal schedule memory)).2 ∧
    (o.run c.lenient horizon (.start signal schedule memory)).1.trace.calls =
      (o.run c horizon (.start signal schedule memory)).1.trace.calls := by
  have start : (World.start signal schedule memory).Alike (.start signal schedule memory) :=
    ⟨rfl, rfl, rfl, rfl, rfl, rfl⟩
  obtain ⟨alike, same⟩ := o.script_like.run c horizon start granted
  exact ⟨same, alike.calls⟩

end Order

end Rollout
