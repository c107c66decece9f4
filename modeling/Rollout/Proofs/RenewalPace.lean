import Rollout.Proofs.Due
import Rollout.Proofs.Interruption
import Rollout.Proofs.LeaseDiscipline

/-!
# Renewals keep up

A loop renews leases at every multiple of its interval, and makes up for the ticks that pass during
a renewal. So a renewal begins at most an interval after the last one was over: a tick is due by
then, or was due before. If it then takes less than what a lease lasts beyond the interval, it is
over before the lease is. This module follows the loop through a world in which time passes.
-/

namespace Rollout

variable {σ α : Type}

namespace Trace

def grants (t : Trace) : List Nat :=
  t.filterMap fun
    | ⟨time, .ended _ (.acquire ..) (.ok _)⟩ => some time
    | _ => none

def lastGrant? (t : Trace) : Option Nat := t.grants.getLast?

/-- The leases that were acquired last have not run out. -/
def Covers (ttl : Nat) (t : Trace) (now : Nat) : Prop :=
  ∃ last, t.lastGrant? = some last ∧ now < last + ttl

variable {t : Trace} {e : Timed}

theorem lastGrant?_other (other : grants [e] = []) : lastGrant? (t ++ [e]) = t.lastGrant? := by
  rw [lastGrant?, grants, List.filterMap_append]
  change (t.grants ++ grants [e]).getLast? = _
  rw [other, List.append_nil]
  rfl

theorem lastGrant?_acquired {time : Nat} (granted : grants [e] = [time]) :
    lastGrant? (t ++ [e]) = some time := by
  rw [lastGrant?, grants, List.filterMap_append]
  change (t.grants ++ grants [e]).getLast? = _
  rw [granted]
  simp

end Trace

namespace Order

/-- The leases of a pass were acquired and are not being given back. -/
def Holds (o : Order) (t : Trace) : Prop :=
  o.acquired ∈ t.events ∧ o.handback ∉ begun t.events

/-- While the leases of a pass were held, they did not run out. -/
def Watched (o : Order) (ttl : Nat) (t : Trace) : Prop :=
  ∀ before e later, t = before ++ e :: later → o.Holds before → before.Covers ttl e.time

/-- Nor have they by now, if they still are. -/
structure Safe (o : Order) (ttl : Nat) (w : World σ) : Prop where
  watched : o.Watched ttl w.trace
  covered : o.Holds w.trace → w.trace.Covers ttl w.now

structure Guarded (o : Order) (ttl : Nat) (w : World σ) : Prop where
  watched : o.Watched ttl w.trace
  covered : w.trace.Covers ttl w.now

theorem Watched.snoc {o : Order} {ttl : Nat} {t : Trace} {e : Timed} (watched : o.Watched ttl t)
    (covered : o.Holds t → t.Covers ttl e.time) : o.Watched ttl (t ++ [e]) := by
  intro before e' later eq holds
  rcases split_append eq with ⟨mid, rfl, tail⟩ | ⟨mid, rfl, _⟩
  · obtain ⟨rfl, same, _⟩ := split_head (by simp) tail
    rw [List.append_nil] at holds ⊢
    exact same ▸ covered holds
  · exact watched before e' mid rfl holds

namespace Guarded

variable {o : Order} {ttl : Nat} {w : World σ}

theorem safe (guarded : o.Guarded ttl w) : o.Safe ttl w :=
  ⟨guarded.watched, fun _ => guarded.covered⟩

theorem watched_record (guarded : o.Guarded ttl w) (e : Event) :
    o.Watched ttl (w.record e).trace := by
  rw [World.trace_record]
  exact guarded.watched.snoc fun _ => guarded.covered

/-- Anything but an acquisition leaves it at that, -/
theorem record (guarded : o.Guarded ttl w) {e : Event}
    (other : Trace.grants [⟨w.now, e⟩] = []) : o.Guarded ttl (w.record e) := by
  refine ⟨guarded.watched_record e, ?_⟩
  obtain ⟨last, eq, early⟩ := guarded.covered
  refine ⟨last, ?_, early⟩
  rw [World.trace_record, Trace.lastGrant?_other other, eq]

/-- and an acquisition is good for as long as leases last. -/
theorem acquire (guarded : o.Guarded ttl w) (lasts : 0 < ttl) {e : Event}
    (granted : Trace.grants [⟨w.now, e⟩] = [w.now]) : o.Guarded ttl (w.record e) := by
  refine ⟨guarded.watched_record e, w.now, ?_, ?_⟩
  · rw [World.trace_record, Trace.lastGrant?_acquired granted]
  · exact Nat.lt_add_of_pos_right lasts

theorem change (guarded : o.Guarded ttl w) (c : SignalChange) : o.Guarded ttl (w.change c) := by
  have changed : o.Guarded ttl { w with signal := w.signal.change c } :=
    ⟨guarded.watched, guarded.covered⟩
  exact changed.record rfl

theorem changeAll (guarded : o.Guarded ttl w) (changes : List SignalChange) :
    o.Guarded ttl (w.changeAll changes) := by
  induction changes generalizing w with
  | nil => exact guarded
  | cons c rest ih => exact ih (guarded.change c)

theorem logAll (guarded : o.Guarded ttl w) (logs : List LogRecord) :
    o.Guarded ttl (w.logAll logs) := by
  induction logs generalizing w with
  | nil => exact guarded
  | cons record rest ih => exact ih (guarded.record rfl)

theorem setRenewal (guarded : o.Guarded ttl w) (r : Renewal × List LogRecord) :
    o.Guarded ttl (w.setRenewal r) := by
  have unseen : o.Guarded ttl { w with renewal := some r.1 } :=
    ⟨guarded.watched, guarded.covered⟩
  exact unseen.logAll r.2

theorem endRenewal (guarded : o.Guarded ttl w) : o.Guarded ttl w.endRenewal := by
  unfold World.endRenewal
  split
  · exact guarded
  · split
    · exact guarded.setRenewal _
    · exact (guarded.record rfl).setRenewal _
    · exact guarded
    · exact guarded

theorem dropRenewal (guarded : o.Guarded ttl w) : o.Guarded ttl w.dropRenewal :=
  ⟨guarded.endRenewal.watched, guarded.endRenewal.covered⟩

theorem stopRenewal (guarded : o.Guarded ttl w) : o.Guarded ttl w.stopRenewal := by
  unfold World.stopRenewal
  split
  · exact guarded
  · exact guarded.dropRenewal.logAll _

end Guarded

end Order

/-- The loop keeps up at a time, after leases were acquired last and before its next tick. -/
inductive OnTime (i ttl now last next : Nat) : RenewalPhase → Prop
  /-- It waits for a tick that comes within an interval, or makes up for one at once. -/
  | waiting : next ≤ last + i → now ≤ max next last → OnTime i ttl now last next .waiting
  /-- It acquires, and will have done so in time. -/
  | inFlight {wake d rest} : rest.Leads d (.succeed ()) → wake + d < last + ttl →
    next ≤ wake + i → now ≤ wake → OnTime i ttl now last next (.inFlight (some wake) rest)

theorem OnTime.now_lt {i ttl now last next : Nat} {phase : RenewalPhase} (shorter : i < ttl)
    (onTime : OnTime i ttl now last next phase) : now < last + ttl := by
  cases onTime with
  | waiting soon here => omega
  | inFlight leads done soon here => omega

/-- A reaction that leads up to its end is at its end or sleeps on the way there. -/
theorem Reaction.Leads.settle {reaction final : Reaction α} {d : Nat} {reply : Reply α}
    (leads : reaction.Leads d final) (ends : final.settle = ([], .ended reply)) :
    (d = 0 ∧ reaction.settle.2 = .ended reply) ∨ ∃ ms more rest,
      reaction.settle.2 = .asleep ms rest ∧ rest.Leads more final ∧ d = ms + more := by
  induction leads with
  | here => exact .inl ⟨rfl, by rw [ends]⟩
  | @sleep ms next more rest leads ih =>
    cases ms with
    | zero => simpa [Reaction.settle] using ih ends
    | succ ms => exact .inr ⟨_, more, next, rfl, leads, rfl⟩
  | signal leads ih => exact ih ends

/-- The settings that a loop runs by, in milliseconds. -/
structure Order.RunsBy (o : Order) (i ttl : Nat) : Prop where
  interval : o.settings.leaseRenewInterval.nanos = i * 1000000
  lease : o.settings.leaseTtl.nanos = ttl * 1000000
  pos : 0 < i
  shorter : i < ttl

/-- Nothing gets in the way of renewals: shutdown is not requested, and each of them succeeds within
what leases last beyond the interval. -/
structure Smooth (o : Order) (c : Collaborators σ) (signal : Signal) (memory : σ) (i ttl : Nat)
    (t : Trace) : Prop where
  down : signal.StaysDown t.events
  prompt : ∀ before start later, t = before ++ ⟨start, .began .renewal o.acquisition⟩ :: later →
    ∃ d, (c.react (c.recall memory (Trace.calls before)) start o.acquisition).2.Leads d (.succeed ()) ∧
      d + i < ttl

namespace Smooth

variable {o : Order} {c : Collaborators σ} {signal : Signal} {memory : σ} {i ttl : Nat}

theorem of_append {first second : Trace}
    (smooth : Smooth o c signal memory i ttl (first ++ second)) :
    Smooth o c signal memory i ttl first where
  down := by
    have both := smooth.down
    rw [Trace.events_append] at both
    exact (Signal.staysDown_append.mp both).1
  prompt := fun before start later eq =>
    smooth.prompt before start (later ++ second) (by simp [eq])

theorem of_gains {w later : World σ} {new : Trace} (gains : w.Gains c new later)
    (smooth : Smooth o c signal memory i ttl later.trace) :
    Smooth o c signal memory i ttl w.trace := by
  rw [gains.trace] at smooth
  exact smooth.of_append

end Smooth

namespace World

theorem lastGrant?_record (w : World σ) {e : Event} (other : Trace.grants [⟨w.now, e⟩] = []) :
    (w.record e).trace.lastGrant? = w.trace.lastGrant? := by
  rw [trace_record, Trace.lastGrant?_other other]

theorem lastGrant?_changeAll (w : World σ) (changes : List SignalChange) :
    (w.changeAll changes).trace.lastGrant? = w.trace.lastGrant? := by
  induction changes generalizing w with
  | nil => rfl
  | cons c rest ih =>
    have changed := lastGrant?_record { w with signal := w.signal.change c } (e := .signal c) rfl
    exact (ih (w.change c)).trans changed

theorem lastGrant?_logAll (w : World σ) (logs : List LogRecord) :
    (w.logAll logs).trace.lastGrant? = w.trace.lastGrant? := by
  induction logs generalizing w with
  | nil => rfl
  | cons record rest ih => exact (ih _).trans (w.lastGrant?_record rfl)

structure Tracks (c : Collaborators σ) (signal : Signal) (memory : σ) (w : World σ) : Prop where
  memory : w.memory = c.recall memory w.trace.calls
  signal : w.signal = signal.after w.events

structure Kept (o : Order) (i ttl : Nat) (w : World σ) (r : Renewal) (last : Nat) : Prop where
  current : w.renewal = some r
  call : r.call = o.acquisition
  interval : r.interval.nanos = i * 1000000
  granted : w.trace.lastGrant? = some last
  onTime : OnTime i ttl w.now last (r.tickTime r.tick) r.phase

/-- A world in which the leases of a pass are renewed. -/
structure Leased (o : Order) (c : Collaborators σ) (signal : Signal) (memory : σ) (i ttl : Nat)
    (w : World σ) : Prop where
  tracks : w.Tracks c signal memory
  watched : o.Watched ttl w.trace
  kept : ∃ r last, w.Kept o i ttl r last

section

variable {o : Order} {c : Collaborators σ} {signal : Signal} {memory : σ} {i ttl : Nat}
  {w later : World σ} {r : Renewal} {last : Nat} {new : Trace}

theorem Tracks.of_gains (tracks : w.Tracks c signal memory) (gains : w.Gains c new later)
    (changed : later.signal = w.signal.after new.events) : later.Tracks c signal memory where
  memory := by
    rw [gains.memory, tracks.memory, gains.trace, Trace.calls_append, Collaborators.recall_append]
  signal := by
    rw [changed, tracks.signal, events, events, gains.trace, Trace.events_append,
      Signal.after_append]

theorem Tracks.of_drifts (tracks : w.Tracks c signal memory) (gains : w.Gains c new later)
    (drifts : w.Drifts later) : later.Tracks c signal memory :=
  tracks.of_gains gains (gains.signal drifts)

/-- Where shutdown is not requested the signal is down. -/
theorem Tracks.down (tracks : w.Tracks c signal memory) (down : signal.StaysDown w.events) :
    w.signal.raised = false := by
  rw [tracks.signal]
  exact down w.events [] (List.append_nil _).symm

theorem Kept.guarded (pace : o.RunsBy i ttl) (kept : w.Kept o i ttl r last)
    (watched : o.Watched ttl w.trace) : o.Guarded ttl w :=
  ⟨watched, last, kept.granted, kept.onTime.now_lt pace.shorter⟩

/-- The ticks of such a loop come at whole milliseconds. -/
theorem tickTime_eq (interval : r.interval.nanos = i * 1000000) (k : Nat) :
    r.tickTime k = r.start + k * i := by
  rw [Renewal.tickTime, Duration.ceilMillis, Duration.times]
  have whole : k * (i * 1000000) = k * i * 1000000 := by rw [Nat.mul_assoc]
  simp only [interval, whole]
  omega

/-- A loop that has been put into a new state keeps up if that is on time. -/
theorem kept_setRenewal (w : World σ) {r : Renewal × List LogRecord} (call : r.1.call = o.acquisition)
    (interval : r.1.interval.nanos = i * 1000000) (granted : w.trace.lastGrant? = some last)
    (onTime : OnTime i ttl w.now last (r.1.tickTime r.1.tick) r.1.phase) :
    (w.setRenewal r).Kept o i ttl r.1 last where
  current := by simp [setRenewal]
  call := call
  interval := interval
  granted := by
    rw [setRenewal, lastGrant?_logAll]
    exact granted
  onTime := by simpa [setRenewal] using onTime

/-- A renewal goes on that will be over in time. -/
theorem kept_goOn {d : Nat} {reaction : Reaction Unit} (pace : o.RunsBy i ttl)
    (guarded : o.Guarded ttl w) (call : r.call = o.acquisition)
    (interval : r.interval.nanos = i * 1000000) (granted : w.trace.lastGrant? = some last)
    (leads : reaction.Leads d (.succeed ())) (done : w.now + d < last + ttl)
    (soon : r.tickTime r.tick ≤ w.now + i) :
    o.Watched ttl (w.goOn r reaction).trace ∧
      ∃ r' last', (w.goOn r reaction).Kept o i ttl r' last' := by
  have changed := guarded.changeAll reaction.settle.1
  rcases leads.settle rfl with ⟨rfl, halts⟩ | ⟨ms, more, rest, halts, leads', rfl⟩
  · simp only [goOn, halts]
    have acquired := changed.acquire (e := .ended .renewal r.call (.ok ()))
      (Nat.lt_trans pace.pos pace.shorter) rfl
    refine ⟨(acquired.setRenewal _).watched, _, w.now,
      kept_setRenewal _ call interval ?_ (.waiting ?_ ?_)⟩
    · rw [trace_record, Trace.lastGrant?_acquired rfl, changeAll_now]
    · exact soon
    · change (w.changeAll _).now ≤ _
      rw [changeAll_now]
      exact Nat.le_max_right _ _
  · simp only [goOn, halts]
    refine ⟨(changed.setRenewal _).watched, _, last,
      kept_setRenewal _ call interval ?_ (.inFlight leads' ?_ ?_ ?_)⟩
    · rw [lastGrant?_changeAll, granted]
    · rw [changeAll_now]
      omega
    · rw [changeAll_now]
      change r.tickTime r.tick ≤ _
      omega
    · omega

theorem asked_trace (c : Collaborators σ) (w : World σ) (actor : Actor) (call : Call) :
    (w.asked c actor call).trace = w.trace ++ [⟨w.now, .began actor call⟩] :=
  trace_record w (.began actor call)

/-- A tick of the loop: it comes within an interval of the last acquisition, or just after it, so
the renewal that it starts is over in time. -/
theorem Kept.tick (pace : o.RunsBy i ttl) (kept : w.Kept o i ttl r last)
    (watched : o.Watched ttl w.trace) (tracks : w.Tracks c signal memory)
    (waits : r.phase = .waiting)
    (smooth : Smooth o c signal memory i ttl ((w.moveTo (r.tickTime r.tick)).fire c r).trace) :
    o.Watched ttl ((w.moveTo (r.tickTime r.tick)).fire c r).trace ∧
      ∃ r' last', ((w.moveTo (r.tickTime r.tick)).fire c r).Kept o i ttl r' last' := by
  have onTime := kept.onTime
  rw [waits] at onTime
  cases onTime with
  | waiting soon here =>
    have now : (w.moveTo (r.tickTime r.tick)).now = max w.now (r.tickTime r.tick) := rfl
    have early : (w.moveTo (r.tickTime r.tick)).now ≤ last + i := by omega
    have passed : r.tickTime r.tick ≤ (w.moveTo (r.tickTime r.tick)).now := by omega
    have shorter := pace.shorter
    generalize moved : w.moveTo (r.tickTime r.tick) = u at smooth early passed ⊢
    have unmoved : u.trace = w.trace ∧ u.memory = w.memory := moved ▸ ⟨rfl, rfl⟩
    rw [fire_of_waiting c u waits] at smooth ⊢
    have guarded : o.Guarded ttl (u.asked c .renewal r.call) := by
      have before : o.Guarded ttl u :=
        ⟨unmoved.1 ▸ watched, last, unmoved.1 ▸ kept.granted, by omega⟩
      have began := before.record (e := .began .renewal r.call) rfl
      exact ⟨began.watched, began.covered⟩
    obtain ⟨more, gains, _⟩ := (atOnce_goOn c (u.asked c .renewal r.call) r.nextTick
      (c.react u.memory u.now r.call).2).gains
    obtain ⟨d, leads, quick⟩ := smooth.prompt w.trace u.now more
      (by rw [gains.trace, asked_trace, unmoved.1, List.append_assoc, kept.call]; rfl)
    obtain ⟨machines, lasts⟩ := Call.acquire.inj kept.call
    change Reaction.Leads (c.react _ _ (.acquire _ _)).2 _ _ at leads
    rw [← tracks.memory, ← unmoved.2, ← machines, ← lasts] at leads
    have granted : (u.asked c .renewal r.call).trace.lastGrant? = some last := by
      rw [asked_trace, Trace.lastGrant?_other rfl, unmoved.1, kept.granted]
    refine kept_goOn pace guarded kept.call kept.interval granted leads ?_ ?_
    · change u.now + d < last + ttl
      omega
    · change r.tickTime (r.tick + 1) ≤ u.now + i
      rw [tickTime_eq kept.interval] at passed ⊢
      rw [Nat.add_mul]
      omega

/-- A renewal under way goes on. -/
theorem Kept.wake {wake : Nat} {rest : Reaction Unit} (pace : o.RunsBy i ttl)
    (kept : w.Kept o i ttl r last) (watched : o.Watched ttl w.trace)
    (acquires : r.phase = .inFlight (some wake) rest) :
    o.Watched ttl ((w.moveTo wake).fire c r).trace ∧
      ∃ r' last', ((w.moveTo wake).fire c r).Kept o i ttl r' last' := by
  have onTime := kept.onTime
  rw [acquires] at onTime
  cases onTime with
  | @inFlight _ d _ leads done soon here =>
    have now : (w.moveTo wake).now = wake := moveTo_now_of_le here
    simp only [fire, acquires]
    refine kept_goOn pace ⟨watched, last, kept.granted, ?_⟩ kept.call kept.interval kept.granted
      leads ?_ ?_
    · omega
    · omega
    · omega

/-- The loop does what it is due to do. -/
theorem Leased.fire {time : Nat} (pace : o.RunsBy i ttl) (leased : w.Leased o c signal memory i ttl)
    (current : w.renewal = some r) (due : r.due? = some time)
    (smooth : Smooth o c signal memory i ttl ((w.moveTo time).fire c r).trace) :
    ((w.moveTo time).fire c r).Leased o c signal memory i ttl := by
  obtain ⟨r', last, kept⟩ := leased.kept
  obtain rfl : r' = r := Option.some.inj (kept.current.symm.trans current)
  have tracks : ((w.moveTo time).fire c r').Tracks c signal memory := by
    obtain ⟨new, gains, _⟩ := (atOnce_fire c (w.moveTo time) r').gains
    have same : (w.moveTo time).renewal.map Renewal.call = some r'.call := by
      simp [moveTo, current]
    exact leased.tracks.of_drifts ((gains_moveTo c w time).trans gains)
      ((drifts_moveTo w time).trans (drifts_fire c same))
  have onward : o.Watched ttl ((w.moveTo time).fire c r').trace ∧
      ∃ r'' last', ((w.moveTo time).fire c r').Kept o i ttl r'' last' := by
    cases phase : r'.phase with
    | waiting =>
      obtain rfl : r'.tickTime r'.tick = time := by simpa [Renewal.due?, phase] using due
      exact kept.tick pace leased.watched leased.tracks phase smooth
    | inFlight wake rest =>
      obtain rfl : wake = some time := by simpa [Renewal.due?, phase] using due
      exact kept.wake pace leased.watched phase
    | ended => simp [Renewal.due?, phase] at due
    | crashed => simp [Renewal.due?, phase] at due
  exact ⟨tracks, onward.1, onward.2⟩

/-- Any event but an acquisition leaves the loop where it is. -/
theorem Leased.gain {e : Event} (pace : o.RunsBy i ttl) (leased : w.Leased o c signal memory i ttl)
    (tracks : later.Tracks c signal memory) (now : later.now = w.now)
    (renewal : later.renewal = w.renewal) (grown : later.trace = w.trace ++ [⟨w.now, e⟩])
    (other : Trace.grants [⟨w.now, e⟩] = []) : later.Leased o c signal memory i ttl := by
  obtain ⟨r, last, kept⟩ := leased.kept
  refine ⟨tracks, ?_, r, last, renewal.trans kept.current, kept.call, kept.interval, ?_, ?_⟩
  · rw [grown]
    exact leased.watched.snoc fun _ => (kept.guarded pace leased.watched).covered
  · rw [grown, Trace.lastGrant?_other other, kept.granted]
  · rw [now]
    exact kept.onTime

theorem Leased.change (pace : o.RunsBy i ttl) (leased : w.Leased o c signal memory i ttl)
    (change : SignalChange) : (w.change change).Leased o c signal memory i ttl :=
  leased.gain pace (leased.tracks.of_drifts (gains_change c w change) (drifts_change w change)) rfl
    rfl (trace_record { w with signal := w.signal.change change } (.signal change)) rfl

theorem Leased.changeAll (pace : o.RunsBy i ttl) (leased : w.Leased o c signal memory i ttl)
    (changes : List SignalChange) : (w.changeAll changes).Leased o c signal memory i ttl := by
  induction changes generalizing w with
  | nil => exact leased
  | cons change rest ih => exact ih (leased.change pace change)

theorem Leased.reschedule (leased : w.Leased o c signal memory i ttl)
    (schedule : List (Nat × SignalChange)) :
    ({ w with schedule } : World σ).Leased o c signal memory i ttl := by
  obtain ⟨tracks, watched, r, last, kept⟩ := leased
  exact ⟨⟨tracks.memory, tracks.signal⟩, watched, r, last, kept.current, kept.call, kept.interval,
    kept.granted, kept.onTime⟩

theorem Leased.catchUp (pace : o.RunsBy i ttl) (leased : w.Leased o c signal memory i ttl) :
    w.catchUp.Leased o c signal memory i ttl :=
  (leased.reschedule _).changeAll pace _

/-- The loop is not due before a time. -/
def RestsUntil (w : World σ) (time : Nat) : Prop :=
  ∀ r due, w.renewal = some r → r.due? = some due → time ≤ due

theorem RestsUntil.mono {time limit : Nat} (rests : w.RestsUntil limit) (early : time ≤ limit) :
    w.RestsUntil time :=
  fun r due current dueAt => Nat.le_trans early (rests r due current dueAt)

/-- Time may pass until the loop is due. -/
theorem Leased.moveTo {time : Nat} (leased : w.Leased o c signal memory i ttl)
    (rests : w.RestsUntil time) : (w.moveTo time).Leased o c signal memory i ttl := by
  obtain ⟨tracks, watched, r, last, kept⟩ := leased
  refine ⟨⟨tracks.memory, tracks.signal⟩, watched, r, last, kept.current, kept.call,
    kept.interval, kept.granted, ?_⟩
  have due := rests r
  have onTime := kept.onTime
  have now : (w.moveTo time).now = max w.now time := rfl
  cases phase : r.phase with
  | waiting =>
    rw [phase] at onTime
    cases onTime with
    | waiting soon here =>
      have := due _ kept.current (by rw [Renewal.due?, phase])
      exact .waiting soon (by omega)
  | inFlight wake rest =>
    rw [phase] at onTime
    cases onTime with
    | inFlight leads done soon here =>
      have := due _ kept.current (by rw [Renewal.due?, phase])
      exact .inFlight leads done soon (by omega)
  | ended =>
    rw [phase] at onTime
    cases onTime
  | crashed =>
    rw [phase] at onTime
    cases onTime

/-- Each step of the world keeps the leases renewed. -/
theorem Leased.step {limit : Nat} (pace : o.RunsBy i ttl)
    (leased : w.Leased o c signal memory i ttl) (stepped : w.step c limit = some later)
    (smooth : Smooth o c signal memory i ttl later.trace) :
    later.Leased o c signal memory i ttl := by
  cases step_happens stepped with
  | ended raised _ =>
    obtain ⟨_, gains, _⟩ := (atOnce_endRenewal c w).gains
    exact absurd raised (by simp [leased.tracks.down (smooth.of_gains gains).down])
  | @changed time change rest _ _ _ before =>
    refine Leased.change pace ((leased.reschedule rest).moveTo fun r due current dueAt => ?_) change
    have next : w.renewalDue? = some due := by
      rw [renewalDue?, show w.renewal = some r from current]
      exact dueAt
    rw [next] at before
    exact of_decide_eq_true before
  | fired _ current due _ => exact leased.fire pace current due smooth

theorem Leased.advance {interruptible : Bool} {limit : Nat} (pace : o.RunsBy i ttl)
    (leased : w.Leased o c signal memory i ttl)
    (smooth : Smooth o c signal memory i ttl (w.advance c interruptible limit).trace) :
    (w.advance c interruptible limit).Leased o c signal memory i ttl := by
  refine advance_induction (p := fun w => Smooth o c signal memory i ttl w.trace →
    w.Leased o c signal memory i ttl) (fun before stepped smooth => ?_) (fun _ => leased) smooth
  obtain ⟨time, _, _, _, gains, _⟩ := step_atOnce stepped
  exact (before (smooth.of_gains ((gains_moveTo c _ time).trans gains))).step pace stepped smooth

theorem Leased.paced (pace : o.RunsBy i ttl) (leased : w.Leased o c signal memory i ttl) :
    w.Paced := by
  obtain ⟨r, last, kept⟩ := leased.kept
  intro r' current
  obtain rfl : r = r' := Option.some.inj (kept.current.symm.trans current)
  rw [kept.interval]
  have pos := pace.pos
  omega

/-- Nothing is due any more before the limit of a wait that was not interrupted. -/
theorem Leased.restsUntil {interruptible : Bool} {limit : Nat} (pace : o.RunsBy i ttl)
    (leased : w.Leased o c signal memory i ttl) (soon : w.now < limit)
    (open_ : ¬ (interruptible && (w.advance c interruptible limit).signal.raised) = true) :
    (w.advance c interruptible limit).RestsUntil limit := by
  intro r due current dueAt
  rcases advance_done interruptible (leased.paced pace) soon with ⟨interrupted, raised⟩ | stopped
  · exact absurd (Bool.and_eq_true_iff.mpr ⟨interrupted, raised⟩) open_
  · exact due_of_step_eq_none stopped current dueAt

theorem Leased.cutOff {horizon : Horizon} (pace : o.RunsBy i ttl)
    (leased : w.Leased o c signal memory i ttl) (rests : w.RestsUntil horizon.time)
    (interruptible : Bool) :
    (w.cutOff (α := α) horizon interruptible).1.Leased o c signal memory i ttl := by
  rw [World.cutOff]
  dsimp only
  split
  · exact (leased.moveTo rests).catchUp pace
  · exact leased.moveTo rests

/-- A wait that is not interrupted goes on where everything before the limit is done. -/
theorem Leased.advance_onward {interruptible : Bool} {limit : Nat}
    {out : World σ × Option (Reply α)} (pace : o.RunsBy i ttl)
    (leased : w.Leased o c signal memory i ttl) (soon : w.now < limit)
    (smooth : Smooth o c signal memory i ttl
      (if interruptible && (w.advance c interruptible limit).signal.raised then
        (w.advance c interruptible limit, some .cancelled)
      else out).1.trace)
    (known : ∃ rest, (w.advance c interruptible limit).Gains c rest out.1)
    (onward : (w.advance c interruptible limit).Leased o c signal memory i ttl →
      (w.advance c interruptible limit).RestsUntil limit →
      Smooth o c signal memory i ttl out.1.trace → out.1.Leased o c signal memory i ttl) :
    (if interruptible && (w.advance c interruptible limit).signal.raised then
        (w.advance c interruptible limit, some .cancelled)
      else out).1.Leased o c signal memory i ttl := by
  split at smooth
  · rename_i interrupted
    rw [if_pos interrupted]
    exact leased.advance pace smooth
  · rename_i open_
    rw [if_neg open_]
    obtain ⟨_, gains⟩ := known
    exact onward (leased.advance pace (smooth.of_gains gains)) (leased.restsUntil pace soon open_)
      smooth

/-- While the pass waits for a collaborator the leases are renewed. -/
theorem Leased.await {horizon : Horizon} {interruptible : Bool} {reaction : Reaction α}
    (pace : o.RunsBy i ttl) (leased : w.Leased o c signal memory i ttl)
    (smooth : Smooth o c signal memory i ttl (w.await c horizon interruptible reaction).1.trace) :
    (w.await c horizon interruptible reaction).1.Leased o c signal memory i ttl := by
  induction reaction generalizing w with
  | succeed answer => exact leased
  | fail failure => exact leased
  | panic text => exact leased
  | signal change next ih => exact ih (leased.change pace change) smooth
  | hang =>
    by_cases late : w.isOver horizon = true
    · rw [World.await, if_pos late]
      exact leased
    · have soon : w.now < horizon.time := by simpa [isOver] using late
      rw [World.await, if_neg late] at smooth ⊢
      refine leased.advance_onward pace soon smooth (cutOff_gains c horizon _ _) ?_
      exact fun leased rests _ => leased.cutOff pace rests _
  | sleep ms next ih =>
    cases ms with
    | zero => exact ih leased smooth
    | succ ms =>
      by_cases late : w.isOver horizon = true
      · rw [World.await, if_pos late]
        exact leased
      · have soon : w.now < min (w.now + (ms + 1)) horizon.time := by
          simp only [isOver, decide_eq_true_eq] at late
          omega
        rw [World.await, if_neg late] at smooth ⊢
        refine leased.advance_onward pace soon smooth ?_ ?_
        · split
          · exact cutOff_gains c horizon _ _
          · obtain ⟨rest, gains⟩ := await_gains c horizon interruptible next (World.moveTo _ _)
            exact ⟨_, (gains_moveTo c _ _).trans gains⟩
        · intro leased rests smooth
          split at smooth
          · rename_i short
            rw [if_pos short]
            exact leased.cutOff pace (rests.mono (by omega)) _
          · rename_i long
            rw [if_neg long]
            exact ih (leased.moveTo (rests.mono (by omega))) smooth

end

end World

end Rollout
