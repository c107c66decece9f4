import Rollout.Proofs.Transcript

/-!
# Moments of a run

A world grows by events and remembers every call among them. What the world does at once happens
at one time: a change of the signal that is due, a tick of the loop that renews the leases, the
end of that loop. So a wait that shutdown interrupts is over in the very step in which shutdown is
requested, and everything in that step has the same time.
-/

namespace Rollout

variable {σ : Type}

namespace Trace

theorem calls_append (first second : Trace) :
    calls (first ++ second) = calls first ++ calls second :=
  List.filterMap_append

theorem calls_eq_nil {t : Trace} (none : ∀ e ∈ t, ∀ actor call, e.event ≠ .began actor call) :
    t.calls = [] := by
  refine List.filterMap_eq_nil_iff.mpr fun e mem => ?_
  obtain ⟨time, event⟩ := e
  cases event with
  | began actor call => exact absurd rfl (none _ mem actor call)
  | _ => rfl

@[simp] theorem events_append (first second : Trace) :
    events (first ++ second) = events first ++ events second :=
  List.map_append

@[simp] theorem events_cons (e : Timed) (rest : Trace) :
    events (e :: rest) = e.event :: events rest := rfl

@[simp] theorem events_nil : events [] = [] := rfl

theorem split_events {t : Trace} {u v : List Event} {e : Event} (eq : t.events = u ++ e :: v) :
    ∃ before time later, t = before ++ ⟨time, e⟩ :: later ∧ events later = v := by
  obtain ⟨before, rest, rfl, _, tail⟩ := List.map_eq_append_iff.mp eq
  obtain ⟨⟨time, _⟩, later, rfl, rfl, rfl⟩ := List.map_eq_cons_iff.mp tail
  exact ⟨before, time, later, rfl, rfl⟩

end Trace

/-- The state of the collaborators after calls that began at these times. -/
def Collaborators.recall (c : Collaborators σ) (memory : σ) (calls : List (Nat × Call)) : σ :=
  calls.foldl (fun memory call => (c.react memory call.1 call.2).1) memory

theorem Collaborators.recall_append (c : Collaborators σ) (memory : σ)
    (first second : List (Nat × Call)) :
    c.recall memory (first ++ second) = c.recall (c.recall memory first) second :=
  List.foldl_append

namespace World

/-- One world comes of another with these events, and its collaborators remember the calls among
them. -/
structure Gains (c : Collaborators σ) (w : World σ) (new : Trace) (later : World σ) : Prop where
  trace : later.trace = w.trace ++ new
  memory : later.memory = c.recall w.memory new.calls

namespace Gains

variable {c : Collaborators σ} {w mid later : World σ} {new first second : Trace}

theorem refl (c : Collaborators σ) (w : World σ) : w.Gains c [] w := ⟨by simp, rfl⟩

theorem trans (gains : w.Gains c first mid) (gains' : mid.Gains c second later) :
    w.Gains c (first ++ second) later where
  trace := by rw [gains'.trace, gains.trace, List.append_assoc]
  memory := by rw [gains'.memory, gains.memory, Trace.calls_append, Collaborators.recall_append]

theorem unique (gains : w.Gains c first later) (gains' : w.Gains c second later) :
    first = second :=
  List.append_cancel_left (gains.trace.symm.trans gains'.trace)

theorem events_eq {events : List Event} (gains : w.Gains c new later)
    (grown : later.events = w.events ++ events) : new.events = events := by
  have both : w.events ++ new.events = w.events ++ events := by
    rw [← grown, World.events, World.events, gains.trace, Trace.events_append]
  exact List.append_cancel_left both

/-- What is gained in the background is background. -/
theorem background (gains : w.Gains c new later) (drifts : w.Drifts later) :
    w.stage.Background new.events later.stage := by
  obtain ⟨events, grown, background⟩ := drifts
  rwa [gains.events_eq grown]

theorem signal (gains : w.Gains c new later) (drifts : w.Drifts later) :
    later.signal = w.signal.after new.events := (gains.background drifts).signal

end Gains

theorem trace_record (w : World σ) (e : Event) : (w.record e).trace = w.trace ++ [⟨w.now, e⟩] := by
  simp [trace, record]

/-- A world gains what it records, a call with the memory that the call leaves. -/
theorem gains_record (c : Collaborators σ) (w : World σ) {e : Event}
    (other : ∀ actor call, e ≠ .began actor call) : w.Gains c [⟨w.now, e⟩] (w.record e) := by
  refine ⟨trace_record w e, ?_⟩
  rw [Trace.calls_eq_nil fun e' mem => by
    obtain rfl := List.mem_singleton.mp mem
    exact other]
  rfl

theorem gains_began (c : Collaborators σ) (w : World σ) (actor : Actor) (call : Call) :
    w.Gains c [⟨w.now, .began actor call⟩]
      { w.record (.began actor call) with memory := (c.react w.memory w.now call).1 } :=
  ⟨trace_record w (.began actor call), rfl⟩

/-- One world comes of another while no time passes. -/
structure AtOnce (c : Collaborators σ) (w later : World σ) : Prop where
  now : later.now = w.now
  gains : ∃ new, w.Gains c new later ∧ ∀ e ∈ new, e.time = w.now

namespace AtOnce

variable {c : Collaborators σ} {w mid later : World σ}

theorem refl (c : Collaborators σ) (w : World σ) : w.AtOnce c w := ⟨rfl, [], .refl c w, by simp⟩

theorem trans (first : w.AtOnce c mid) (second : mid.AtOnce c later) : w.AtOnce c later := by
  obtain ⟨now, new, gains, times⟩ := first
  obtain ⟨now', new', gains', times'⟩ := second
  refine ⟨now'.trans now, new ++ new', gains.trans gains', ?_⟩
  intro e mem
  rcases List.mem_append.mp mem with mem | mem
  · exact times e mem
  · exact (times' e mem).trans now

end AtOnce

/-- What neither the trace nor the collaborators show may change at once. -/
theorem atOnce_unseen (c : Collaborators σ) {w later : World σ} (now : later.now = w.now)
    (history : later.history = w.history) (memory : later.memory = w.memory) :
    w.AtOnce c later :=
  ⟨now, [], ⟨by simp [trace, history], memory⟩, by simp⟩

theorem atOnce_record (c : Collaborators σ) (w : World σ) {e : Event}
    (other : ∀ actor call, e ≠ .began actor call) : w.AtOnce c (w.record e) :=
  ⟨rfl, _, gains_record c w other, by simp⟩

theorem atOnce_change (c : Collaborators σ) (w : World σ) (change : SignalChange) :
    w.AtOnce c (w.change change) := by
  have changed : w.AtOnce c { w with signal := w.signal.change change } :=
    atOnce_unseen c rfl rfl rfl
  exact changed.trans (atOnce_record c _ (by simp))

theorem atOnce_changeAll (c : Collaborators σ) (w : World σ) (changes : List SignalChange) :
    w.AtOnce c (w.changeAll changes) := by
  induction changes generalizing w with
  | nil => exact .refl c w
  | cons change rest ih => exact (atOnce_change c w change).trans (ih _)

theorem atOnce_catchUp (c : Collaborators σ) (w : World σ) : w.AtOnce c w.catchUp := by
  have unseen : ∀ schedule, w.AtOnce c { w with schedule } :=
    fun _ => atOnce_unseen c rfl rfl rfl
  exact (unseen _).trans (atOnce_changeAll c _ _)

theorem atOnce_logAll (c : Collaborators σ) (w : World σ) (logs : List LogRecord) :
    w.AtOnce c (w.logAll logs) := by
  induction logs generalizing w with
  | nil => exact .refl c w
  | cons record rest ih => exact (atOnce_record c w (by simp)).trans (ih _)

theorem atOnce_setRenewal (c : Collaborators σ) (w : World σ) (r : Renewal × List LogRecord) :
    w.AtOnce c (w.setRenewal r) := by
  have unseen : w.AtOnce c { w with renewal := some r.1 } := atOnce_unseen c rfl rfl rfl
  exact unseen.trans (atOnce_logAll c _ r.2)

theorem atOnce_goOn (c : Collaborators σ) (w : World σ) (r : Renewal)
    (reaction : Reaction Unit) : w.AtOnce c (w.goOn r reaction) := by
  have changed := atOnce_changeAll c w reaction.settle.1
  rw [goOn]
  cases reaction.settle.2 with
  | ended reply =>
    exact (changed.trans (atOnce_record c _ (by simp))).trans (atOnce_setRenewal c _ _)
  | asleep ms rest => exact changed.trans (atOnce_setRenewal c _ _)
  | hung => exact changed.trans (atOnce_setRenewal c _ _)

theorem atOnce_fire (c : Collaborators σ) (w : World σ) (r : Renewal) :
    w.AtOnce c (w.fire c r) := by
  cases phase : r.phase with
  | waiting =>
    simp only [fire, phase]
    have began : w.AtOnce c { w.record (.began .renewal r.call) with
        memory := (c.react w.memory w.now r.call).1 } :=
      ⟨rfl, _, gains_began c w .renewal r.call, by simp⟩
    exact began.trans (atOnce_goOn c _ r.nextTick _)
  | inFlight wake rest => simpa only [fire, phase] using atOnce_goOn c w r rest
  | ended => simpa only [fire, phase] using AtOnce.refl c w
  | crashed => simpa only [fire, phase] using AtOnce.refl c w

theorem atOnce_endRenewal (c : Collaborators σ) (w : World σ) : w.AtOnce c w.endRenewal := by
  cases current : w.renewal with
  | none => simpa only [endRenewal, current] using AtOnce.refl c w
  | some r =>
    cases phase : r.phase with
    | waiting => simpa only [endRenewal, current, phase] using atOnce_setRenewal c w r.leave
    | inFlight wake rest =>
      simp only [endRenewal, current, phase]
      exact (atOnce_record c w (by simp)).trans (atOnce_setRenewal c _ _)
    | ended => simpa only [endRenewal, current, phase] using AtOnce.refl c w
    | crashed => simpa only [endRenewal, current, phase] using AtOnce.refl c w

theorem atOnce_dropRenewal (c : Collaborators σ) (w : World σ) : w.AtOnce c w.dropRenewal :=
  (atOnce_endRenewal c w).trans (atOnce_unseen c rfl rfl rfl)

theorem atOnce_stopRenewal (c : Collaborators σ) (w : World σ) : w.AtOnce c w.stopRenewal := by
  cases current : w.renewal with
  | none => simpa only [stopRenewal, current] using AtOnce.refl c w
  | some r =>
    simp only [stopRenewal, current]
    exact (atOnce_dropRenewal c w).trans (atOnce_logAll c _ _)

theorem atOnce_startRenewal (c : Collaborators σ) (w : World σ) (machines : List MachineId)
    (ttl interval : Duration) : w.AtOnce c (w.startRenewal machines ttl interval) :=
  atOnce_setRenewal c w _

structure Quiet (w : World σ) (new : Trace) (later : World σ) : Prop where
  signal : later.signal = w.signal.after new.events
  began_notMem : ∀ call, .began .pass call ∉ new.events

section Quiet

variable {c : Collaborators σ} {w : World σ} {new : Trace}

theorem quiet_note (w : World σ) (n : Note) : w.Quiet [⟨w.now, .note n⟩] (w.record (.note n)) :=
  ⟨rfl, by simp⟩

theorem quiet_startRenewal {machines : List MachineId} {ttl interval : Duration}
    (gains : w.Gains c new (w.startRenewal machines ttl interval)) :
    w.Quiet new (w.startRenewal machines ttl interval) := by
  obtain ⟨logs, grown, only, stage⟩ := w.startRenewal_tells machines ttl interval
  obtain rfl := gains.events_eq grown
  constructor
  · have still : w.signal.after new.events = w.signal := Signal.after_eq_self fun e mem c eq => by
      obtain ⟨record, rfl⟩ := only e mem
      cases eq
    rw [still]
    exact congrArg Stage.signal stage
  · intro call mem
    obtain ⟨record, eq⟩ := only _ mem
    cases eq

theorem quiet_of_closing {later : World σ} {closing : List Event} {mid : Stage}
    (gains : w.Gains c new later) (grown : later.events = w.events ++ closing)
    (background : w.stage.Background closing mid) (alone : later.stage = mid.alone) :
    w.Quiet new later := by
  obtain rfl := gains.events_eq grown
  have signal : later.signal = mid.signal := congrArg Stage.signal alone
  exact ⟨signal.trans background.signal, background.began_notMem⟩

theorem quiet_dropRenewal (gains : w.Gains c new w.dropRenewal) : w.Quiet new w.dropRenewal := by
  obtain ⟨closing, mid, grown, background, alone⟩ := w.dropRenewal_tells
  exact quiet_of_closing gains grown background alone

theorem quiet_stopRenewal (gains : w.Gains c new w.stopRenewal) : w.Quiet new w.stopRenewal := by
  obtain ⟨closing, mid, grown, background, alone⟩ := w.stopRenewal_tells
  exact quiet_of_closing gains grown background alone

end Quiet

theorem moveTo_self (w : World σ) : w.moveTo w.now = w := by simp [moveTo]

theorem moveTo_now_of_le {w : World σ} {time : Nat} (early : w.now ≤ time) :
    (w.moveTo time).now = time := Nat.max_eq_right early

theorem renewalStep_atOnce {c : Collaborators σ} {limit : Nat} {w later : World σ}
    (step : w.renewalStep c limit = some later) :
    ∃ time < limit, (w.moveTo time).AtOnce c later := by
  rw [renewalStep] at step
  split at step
  · cases step
  · rename_i r _
    split at step
    · cases step
    · rename_i time _
      split at step
      · rename_i early
        cases step
        exact ⟨time, early, atOnce_fire c _ r⟩
      · cases step

/-- A step happens at one time, which is before the limit unless it is now. -/
theorem step_atOnce {c : Collaborators σ} {limit : Nat} {w later : World σ}
    (step : w.step c limit = some later) :
    ∃ time, (time < limit ∨ time = w.now) ∧ (w.moveTo time).AtOnce c later := by
  have renewal : w.renewalStep c limit = some later →
      ∃ time, (time < limit ∨ time = w.now) ∧ (w.moveTo time).AtOnce c later := by
    intro step
    obtain ⟨time, early, atOnce⟩ := renewalStep_atOnce step
    exact ⟨time, .inl early, atOnce⟩
  rw [World.step] at step
  split at step
  · cases step
    refine ⟨w.now, .inr rfl, ?_⟩
    rw [moveTo_self]
    exact atOnce_endRenewal c w
  · split at step
    · exact renewal step
    · rename_i time next rest _
      split at step
      · rename_i due
        cases step
        have early : time < limit := by
          simp only [Bool.and_eq_true, decide_eq_true_eq] at due
          exact due.1
        have unseen : (w.moveTo time).AtOnce c ({ w with schedule := rest }.moveTo time) :=
          atOnce_unseen c rfl rfl rfl
        exact ⟨time, .inl early, unseen.trans (atOnce_change c _ next)⟩
      · exact renewal step

theorem gains_moveTo (c : Collaborators σ) (w : World σ) (time : Nat) :
    w.Gains c [] (w.moveTo time) := ⟨by simp [trace, moveTo], rfl⟩

theorem advanceBy_gains (c : Collaborators σ) (interruptible : Bool) (limit bound : Nat)
    (w : World σ) : ∃ new, w.Gains c new (w.advanceBy c interruptible limit bound) := by
  induction bound generalizing w with
  | zero => exact ⟨[], .refl c w⟩
  | succ bound ih =>
    rw [advanceBy]
    split
    · exact ⟨[], .refl c w⟩
    · split
      · exact ⟨[], .refl c w⟩
      · rename_i next step
        obtain ⟨time, _, _, new, gains, _⟩ := step_atOnce step
        obtain ⟨rest, gains'⟩ := ih next
        exact ⟨_, (gains_moveTo c w time).trans (gains.trans gains')⟩

/-- The time does not pass the limit. -/
theorem advanceBy_now_le (c : Collaborators σ) (interruptible : Bool) {limit : Nat} (bound : Nat)
    {w : World σ} (early : w.now ≤ limit) :
    (w.advanceBy c interruptible limit bound).now ≤ limit := by
  induction bound generalizing w with
  | zero => exact early
  | succ bound ih =>
    rw [advanceBy]
    split
    · exact early
    · split
      · exact early
      · rename_i next step
        obtain ⟨time, due, atOnce⟩ := step_atOnce step
        have now : next.now = max w.now time := atOnce.now
        exact ih (by omega)

theorem advance_now_le (c : Collaborators σ) (interruptible : Bool) {limit : Nat} {w : World σ}
    (early : w.now ≤ limit) : (w.advance c interruptible limit).now ≤ limit :=
  advanceBy_now_le c interruptible _ early

end World

end Rollout
