import Rollout.Proofs.Story

/-!
# Runs tell stories

Every run of a script tells one of the script's stories. The world around a waiting script only
changes the signal and lets the renewal loop work, step by step, so what happens there is
background; a run adds the calls and notes of the script to it, in the script's order.
-/

namespace Rollout

def Trace.events (t : Trace) : List Event := t.map Timed.event

namespace World

variable {σ α : Type}

def events (w : World σ) : List Event := w.trace.events

/-- What a story sees of a world. -/
def stage (w : World σ) : Stage := ⟨w.signal, w.renewal.map Renewal.call⟩

/-- One world comes of another by what happens in the background. -/
def Drifts (w later : World σ) : Prop :=
  ∃ events, later.events = w.events ++ events ∧ w.stage.Background events later.stage

theorem events_record (w : World σ) (e : Event) : (w.record e).events = w.events ++ [e] := by
  simp [events, trace, record, Trace.events]

theorem stage_record (w : World σ) (e : Event) : (w.record e).stage = w.stage := rfl

namespace Drifts

theorem refl (w : World σ) : w.Drifts w := ⟨[], by simp, .refl _⟩

theorem trans {w mid later : World σ} (first : w.Drifts mid) (second : mid.Drifts later) :
    w.Drifts later := by
  obtain ⟨before, grown, background⟩ := first
  obtain ⟨after, grown', background'⟩ := second
  exact ⟨before ++ after, by rw [grown', grown, List.append_assoc],
    background.trans background'⟩

end Drifts

/-- What a story does not see may change freely. -/
theorem drifts_unseen {w later : World σ} (history : later.history = w.history)
    (signal : later.signal = w.signal) (renewal : later.renewal = w.renewal) :
    w.Drifts later := by
  refine ⟨[], by simp [events, trace, history], ⟨by simp, signal, ?_⟩⟩
  simp [stage, renewal]

theorem drifts_moveTo (w : World σ) (time : Nat) : w.Drifts (w.moveTo time) :=
  drifts_unseen rfl rfl rfl

theorem drifts_record {w : World σ} {e : Event} (admitted : w.stage.Admits e)
    (still : w.signal.see e = w.signal) : w.Drifts (w.record e) :=
  ⟨[e], events_record w e, ⟨by simpa using admitted, still.symm, rfl⟩⟩

theorem drifts_change (w : World σ) (c : SignalChange) : w.Drifts (w.change c) := by
  refine ⟨[.signal c], ?_, ⟨by simp [Stage.Admits], rfl, rfl⟩⟩
  exact events_record { w with signal := w.signal.change c } (.signal c)

theorem drifts_changeAll (w : World σ) (changes : List SignalChange) :
    w.Drifts (w.changeAll changes) := by
  induction changes generalizing w with
  | nil => exact .refl w
  | cons c rest ih => exact (drifts_change w c).trans (ih (w.change c))

theorem drifts_catchUp (w : World σ) : w.Drifts w.catchUp :=
  (drifts_unseen rfl rfl rfl).trans (drifts_changeAll { w with schedule := _ } _)

theorem drifts_logAll (w : World σ) (logs : List LogRecord) : w.Drifts (w.logAll logs) := by
  induction logs generalizing w with
  | nil => exact .refl w
  | cons record rest ih =>
    have first : w.Drifts (w.record (.renewalLog record)) := drifts_record trivial rfl
    exact first.trans (ih _)

theorem drifts_setRenewal {w : World σ} {r : Renewal × List LogRecord}
    (same : w.renewal.map Renewal.call = some r.1.call) : w.Drifts (w.setRenewal r) := by
  have first : w.Drifts { w with renewal := some r.1 } :=
    ⟨[], by simp [events, trace], ⟨by simp, rfl, same.symm⟩⟩
  exact first.trans (drifts_logAll _ _)

theorem renewal_changeAll (w : World σ) (changes : List SignalChange) :
    (w.changeAll changes).renewal = w.renewal := by
  induction changes generalizing w with
  | nil => rfl
  | cons c rest ih => exact ih (w.change c)

/-- A renewal stays the renewal of the same leases whatever comes of it. -/
theorem call_finish (r : Renewal) (reply : Reply Unit) : (r.finish reply).1.call = r.call := by
  cases reply <;> rfl

theorem drifts_goOn {w : World σ} {r : Renewal} (reaction : Reaction Unit)
    (same : w.renewal.map Renewal.call = some r.call) : w.Drifts (w.goOn r reaction) := by
  simp only [goOn]
  have first := drifts_changeAll w reaction.settle.1
  have same' : (w.changeAll reaction.settle.1).renewal.map Renewal.call = some r.call := by
    rw [renewal_changeAll, same]
  cases reaction.settle.2 with
  | ended reply =>
    have second : (w.changeAll reaction.settle.1).Drifts
        ((w.changeAll reaction.settle.1).record (.ended .renewal r.call reply)) :=
      drifts_record same' rfl
    have third := drifts_setRenewal
      (w := (w.changeAll reaction.settle.1).record (.ended .renewal r.call reply))
      (r := r.finish reply) (by rw [call_finish]; exact same')
    exact (first.trans second).trans third
  | asleep ms rest => exact first.trans (drifts_setRenewal same')
  | hung => exact first.trans (drifts_setRenewal same')

theorem drifts_fire (c : Collaborators σ) {w : World σ} {r : Renewal}
    (same : w.renewal.map Renewal.call = some r.call) : w.Drifts (w.fire c r) := by
  cases phase : r.phase with
  | waiting =>
    simp only [fire, phase]
    have first : w.Drifts (w.record (.began .renewal r.call)) := drifts_record same rfl
    exact first.trans (drifts_goOn (r := r.nextTick) _ same)
  | inFlight wake rest => simpa only [fire, phase] using drifts_goOn rest same
  | ended => simpa only [fire, phase] using Drifts.refl w
  | crashed => simpa only [fire, phase] using Drifts.refl w

theorem drifts_endRenewal (w : World σ) : w.Drifts w.endRenewal := by
  cases current : w.renewal with
  | none => simpa only [endRenewal, current] using Drifts.refl w
  | some r =>
    have same : w.renewal.map Renewal.call = some r.call := by rw [current]; rfl
    cases phase : r.phase with
    | waiting =>
      simp only [endRenewal, current, phase]
      exact drifts_setRenewal same
    | inFlight wake rest =>
      simp only [endRenewal, current, phase]
      have first : w.Drifts (w.record (.ended .renewal r.call .cancelled)) :=
        drifts_record same rfl
      exact first.trans (drifts_setRenewal same)
    | ended => simpa only [endRenewal, current, phase] using Drifts.refl w
    | crashed => simpa only [endRenewal, current, phase] using Drifts.refl w

theorem drifts_renewalStep {c : Collaborators σ} {limit : Nat} {w later : World σ}
    (step : w.renewalStep c limit = some later) : w.Drifts later := by
  simp only [renewalStep] at step
  split at step
  · cases step
  · rename_i r current
    split at step
    · cases step
    · rename_i time due
      split at step
      · cases step
        have same : (w.moveTo time).renewal.map Renewal.call = some r.call := by
          simp [moveTo, current]
        exact (drifts_moveTo w time).trans (drifts_fire c same)
      · cases step

theorem drifts_step {c : Collaborators σ} {limit : Nat} {w later : World σ}
    (step : w.step c limit = some later) : w.Drifts later := by
  simp only [World.step] at step
  split at step
  · cases step
    exact drifts_endRenewal w
  · split at step
    · exact drifts_renewalStep step
    · split at step
      · cases step
        refine Drifts.trans ?_ (drifts_change _ _)
        exact drifts_unseen rfl rfl rfl
      · exact drifts_renewalStep step

theorem drifts_advanceBy (c : Collaborators σ) (interruptible : Bool) (limit bound : Nat)
    (w : World σ) : w.Drifts (w.advanceBy c interruptible limit bound) := by
  induction bound generalizing w with
  | zero => exact .refl w
  | succ bound ih =>
    simp only [advanceBy]
    split
    · exact .refl w
    · split
      · exact .refl w
      · rename_i next step
        exact (drifts_step step).trans (ih next)

theorem drifts_advance (c : Collaborators σ) (interruptible : Bool) (limit : Nat)
    (w : World σ) : w.Drifts (w.advance c interruptible limit) :=
  drifts_advanceBy c interruptible limit _ w

/-- The loop that is dropped may still tell of its end. -/
theorem dropRenewal_tells (w : World σ) :
    ∃ closing mid, w.dropRenewal.events = w.events ++ closing ∧
      w.stage.Background closing mid ∧ w.dropRenewal.stage = mid.alone := by
  obtain ⟨closing, grown, background⟩ := drifts_endRenewal w
  exact ⟨closing, w.endRenewal.stage, grown, background, rfl⟩

theorem stopRenewal_tells (w : World σ) :
    ∃ closing mid, w.stopRenewal.events = w.events ++ closing ∧
      w.stage.Background closing mid ∧ w.stopRenewal.stage = mid.alone := by
  cases current : w.renewal with
  | none =>
    refine ⟨[], w.stage, ?_, .refl _, ?_⟩
    · simp [stopRenewal, current]
    · simp [stopRenewal, current, stage, Stage.alone]
  | some r =>
    obtain ⟨closing, mid, grown, background, alone⟩ := dropRenewal_tells w
    obtain ⟨logs, grown', background'⟩ := drifts_logAll w.dropRenewal r.stopLog
    -- What is logged about the end of the loop is admitted with and without a loop.
    have told : mid.Background logs { mid with signal := mid.signal.after logs } := by
      refine ⟨?_, rfl, rfl⟩
      intro e mem
      have admitted := background'.admitted e mem
      rw [alone] at admitted
      cases e with
      | began actor call => cases actor <;> simp [Stage.Admits, Stage.alone] at admitted
      | ended actor call reply => cases actor <;> simp [Stage.Admits, Stage.alone] at admitted
      | note n => exact admitted
      | renewalLog record => trivial
      | signal change => trivial
    refine ⟨closing ++ logs, _, ?_, background.trans told, ?_⟩
    · simp only [stopRenewal, current]
      rw [grown', grown, List.append_assoc]
    · have signal := background'.signal
      have renewing := background'.renewing
      rw [alone] at signal renewing
      simp only [stopRenewal, current]
      cases later : (w.dropRenewal.logAll r.stopLog).stage
      simp_all [Stage.alone]

/-- What a wait leaves behind: the world has drifted, and only a raised signal has cancelled a
wait that can be interrupted. -/
structure Waits (w : World σ) (interruptible : Bool) (out : World σ × Option (Reply α)) :
    Prop where
  drifts : w.Drifts out.1
  cancelled : out.2 = some .cancelled → interruptible = true ∧ out.1.signal.raised = true

theorem Waits.after {w mid : World σ} {interruptible : Bool}
    {out : World σ × Option (Reply α)} (first : w.Drifts mid)
    (waits : mid.Waits interruptible out) : w.Waits interruptible out :=
  ⟨first.trans waits.drifts, waits.cancelled⟩

theorem waits_cutOff (horizon : Horizon) (interruptible : Bool) (w : World σ) :
    w.Waits interruptible (w.cutOff (α := α) horizon interruptible) := by
  constructor
  · simp only [cutOff]
    cases horizon.inclusive with
    | false => exact drifts_moveTo w _
    | true => exact (drifts_moveTo w _).trans (drifts_catchUp _)
  · intro cancelled
    cases inclusive : horizon.inclusive with
    | false => simp [cutOff, inclusive] at cancelled
    | true => simpa [cutOff, inclusive] using cancelled

theorem waits_advance (c : Collaborators σ) (interruptible : Bool) (limit : Nat) (w : World σ)
    {out : World σ × Option (Reply α)}
    (rest : (w.advance c interruptible limit).Waits interruptible out) :
    w.Waits interruptible
      (if interruptible && (w.advance c interruptible limit).signal.raised then
        (w.advance c interruptible limit, some .cancelled)
      else out) := by
  split
  · rename_i h
    exact ⟨drifts_advance c interruptible limit w, fun _ => by simpa using h⟩
  · exact rest.after (drifts_advance c interruptible limit w)

theorem waits_await (c : Collaborators σ) (horizon : Horizon) (interruptible : Bool)
    (reaction : Reaction α) (w : World σ) :
    w.Waits interruptible (w.await c horizon interruptible reaction) := by
  induction reaction generalizing w with
  | succeed answer => exact ⟨.refl w, by simp [await]⟩
  | fail failure => exact ⟨.refl w, by simp [await]⟩
  | panic text => exact ⟨.refl w, by simp [await]⟩
  | hang =>
    simp only [await]
    split
    · exact ⟨.refl w, by simp⟩
    · exact waits_advance c interruptible horizon.time w (waits_cutOff _ _ _)
  | sleep ms next ih =>
    cases ms with
    | zero => exact ih w
    | succ ms =>
      simp only [await]
      split
      · exact ⟨.refl w, by simp⟩
      · apply waits_advance
        split
        · exact waits_cutOff _ _ _
        · exact (ih _).after (drifts_moveTo _ _)
  | signal change next ih => exact (ih (w.change change)).after (drifts_change w change)

/-- A call is either not begun, or begins, and ends with a reply that it may have or is not
seen to end. -/
theorem perform_cases (c : Collaborators σ) (horizon : Horizon) (w : World σ) (call : Call) :
    (¬ w.stage.MayBegin call ∧ w.perform c horizon call = (w, some .cancelled)) ∨
    (w.stage.MayBegin call ∧ ∃ noise mid reply,
      (w.perform c horizon call).1.events =
        w.events ++ (.began .pass call :: noise ++ [.ended .pass call reply]) ∧
      w.stage.Background noise mid ∧ mid.MayReply call reply ∧
      (w.perform c horizon call).1.stage = mid ∧
      (w.perform c horizon call).2 = some reply) ∨
    (w.stage.MayBegin call ∧ ∃ noise mid,
      (w.perform c horizon call).1.events = w.events ++ (.began .pass call :: noise) ∧
      w.stage.Background noise mid ∧ (w.perform c horizon call).1.stage = mid ∧
      (w.perform c horizon call).2 = none) := by
  by_cases raised : call.cancellable = true ∧ w.signal.raised = true
  · exact .inl ⟨by simpa [Stage.MayBegin, stage] using raised, by simp [perform, raised]⟩
  right
  have may : w.stage.MayBegin call := raised
  have open_ : (call.cancellable && w.signal.raised) = false := by simpa using raised
  let begun := w.record (.began .pass call)
  let answer := c.react begun.memory begun.now call
  have waits := waits_await c horizon call.cancellable answer.2
    { begun with memory := answer.1 }
  obtain ⟨noise, grown, background⟩ := waits.drifts
  have grown' : (World.await c horizon call.cancellable answer.2
      { begun with memory := answer.1 }).1.events = w.events ++ (.began .pass call :: noise) := by
    rw [grown]
    change begun.events ++ noise = _
    rw [show begun.events = w.events ++ [.began .pass call] from events_record _ _]
    simp
  cases outcome : World.await c horizon call.cancellable answer.2
      { begun with memory := answer.1 } with
  | mk after reply? =>
    rw [outcome] at grown' background waits
    cases reply? with
    | none =>
      have performed : w.perform c horizon call = (after, none) := by
        simp only [perform, open_]
        simp [begun, answer] at outcome
        simp [outcome]
      exact .inr ⟨may, noise, after.stage, by rw [performed, grown'], background,
        by rw [performed], by rw [performed]⟩
    | some reply =>
      have performed : w.perform c horizon call =
          (after.record (.ended .pass call reply), some reply) := by
        simp only [perform, open_]
        simp [begun, answer] at outcome
        simp [outcome]
      refine .inl ⟨may, noise, after.stage, reply, ?_, background, ?_, ?_, ?_⟩
      · rw [performed, events_record, grown', List.append_assoc]
      · exact fun cancelled => waits.cancelled (by rw [cancelled])
      · rw [performed, stage_record]
      · rw [performed]

theorem startRenewal_tells (w : World σ) (machines : List MachineId) (ttl interval : Duration) :
    ∃ logs, (w.startRenewal machines ttl interval).events = w.events ++ logs ∧
      (∀ e ∈ logs, ∃ record, e = .renewalLog record) ∧
      (w.startRenewal machines ttl interval).stage =
        w.stage.renewingBy (.acquire machines ttl) := by
  simp only [startRenewal, setRenewal]
  generalize (Renewal.begin w.now machines ttl interval).2 = logs
  have loop : (Renewal.begin w.now machines ttl interval).1.call = .acquire machines ttl := rfl
  generalize (Renewal.begin w.now machines ttl interval).1 = r at loop
  suffices told : ∀ w : World σ, ∃ told, (w.logAll logs).events = w.events ++ told ∧
      (∀ e ∈ told, ∃ record, e = .renewalLog record) ∧ (w.logAll logs).stage = w.stage by
    obtain ⟨told, grown, only, stage⟩ := told { w with renewal := some r }
    refine ⟨told, grown, only, ?_⟩
    rw [stage, ← loop]
    rfl
  induction logs with
  | nil => exact fun w => ⟨[], by simp [logAll], by simp, rfl⟩
  | cons record rest ih =>
    intro w
    obtain ⟨told, grown, only, stage⟩ := ih (w.record (.renewalLog record))
    refine ⟨.renewalLog record :: told, ?_, ?_, stage⟩
    · rw [logAll, grown, events_record, List.append_assoc, List.singleton_append]
    · intro e mem
      rcases List.mem_cons.mp mem with rfl | mem
      · exact ⟨record, rfl⟩
      · exact only e mem

end World

/-- Every run of a script tells one of its stories. -/
theorem Script.run_tells {σ α : Type} (c : Collaborators σ) (horizon : Horizon)
    (script : Script α) (w : World σ) :
    ∃ events, (script.run c horizon w).1.events = w.events ++ events ∧
      script.Tells w.stage events (script.run c horizon w).2
        (script.run c horizon w).1.stage := by
  induction script generalizing w with
  | done exit => exact ⟨[], by simp [run], .done⟩
  | note n next ih =>
    obtain ⟨events, grown, tells⟩ := ih (w.record (.note n))
    refine ⟨.note n :: events, ?_, .note tells⟩
    rw [run, grown, World.events_record, List.append_assoc, List.singleton_append]
  | checkpoint next ih =>
    obtain ⟨events, grown, tells⟩ := ih w.signal.raised w
    exact ⟨events, grown, .checkpoint tells⟩
  | call made next ih =>
    rcases w.perform_cases c horizon made with ⟨refused, performed⟩ |
      ⟨may, noise, mid, reply, grown, background, mayReply, stage, replied⟩ |
      ⟨may, noise, mid, grown, background, stage, replied⟩
    · obtain ⟨events, grown, tells⟩ := ih .cancelled w
      refine ⟨events, ?_, ?_⟩
      · simpa only [run, performed] using grown
      · simpa only [run, performed] using Tells.refused refused tells
    · obtain ⟨events, grown', tells⟩ := ih reply (w.perform c horizon made).1
      cases performed : w.perform c horizon made with
      | mk after reply? =>
        rw [performed] at grown grown' tells stage replied
        obtain rfl : reply? = some reply := replied
        refine ⟨.began .pass made :: noise ++ .ended .pass made reply :: events, ?_, ?_⟩
        · simp only [run, performed]
          rw [grown', grown]
          simp
        · simp only [run, performed]
          exact .answered may background mayReply (stage ▸ tells)
    · cases performed : w.perform c horizon made with
      | mk after reply? =>
        rw [performed] at grown stage replied
        obtain rfl : reply? = none := replied
        obtain ⟨closing, mid', grown', background', alone⟩ := after.dropRenewal_tells
        refine ⟨.began .pass made :: (noise ++ closing), ?_, ?_⟩
        · simp only [run, performed]
          rw [grown', grown]
          simp
        · simp only [run, performed]
          rw [alone]
          exact .unanswered may (background.trans (stage ▸ background'))
  | startRenewal machines ttl interval next ih =>
    obtain ⟨logs, grown, only, stage⟩ := w.startRenewal_tells machines ttl interval
    obtain ⟨events, grown', tells⟩ := ih (w.startRenewal machines ttl interval)
    refine ⟨logs ++ events, ?_, .startRenewal only (stage ▸ tells)⟩
    rw [run, grown', grown, List.append_assoc]
  | stopRenewal next ih =>
    simp only [run]
    split
    · obtain ⟨closing, mid, grown, background, alone⟩ := w.dropRenewal_tells
      exact ⟨closing, grown, alone ▸ .cutOff background⟩
    · obtain ⟨closing, mid, grown, background, alone⟩ := w.stopRenewal_tells
      obtain ⟨events, grown', tells⟩ := ih w.stopRenewal
      refine ⟨closing ++ events, ?_, .stopRenewal background (alone ▸ tells)⟩
      rw [grown', grown, List.append_assoc]

def World.start {σ : Type} (signal : Signal) (schedule : List (Nat × SignalChange))
    (memory : σ) : World σ := { signal, schedule, memory }

/-- The events of a run from the start are a story of the rollout. -/
theorem Order.run_tells {σ : Type} (o : Order) (c : Collaborators σ) (horizon : Horizon)
    (signal : Signal) (schedule : List (Nat × SignalChange)) (memory : σ) :
    o.script.Tells ⟨signal, none⟩ (o.run c horizon (.start signal schedule memory)).1.events
      (o.run c horizon (.start signal schedule memory)).2
      (o.run c horizon (.start signal schedule memory)).1.stage := by
  obtain ⟨events, grown, tells⟩ := o.script.run_tells c horizon (.start signal schedule memory)
  have all : (o.run c horizon (.start signal schedule memory)).1.events = events := grown
  rw [all]
  exact tells

end Rollout
