import Rollout.Proofs.Moment

/-!
# Interruptions

A wait that shutdown interrupts is over in the very step in which shutdown is requested for good.
Only a collaborator that requests shutdown itself can still reply in that step, if it takes no more
time. `Alarm` says at which event of a trace shutdown is requested for good, and `CutShort` how a
wait ends in which that happens.
-/

namespace Rollout

variable {σ α : Type}

namespace Signal

def StaysUp (s : Signal) (events : List Event) : Prop :=
  ∀ before later, events = before ++ later → (s.after before).raised = true

variable {s : Signal} {events before later : List Event}

theorem StaysUp.start (up : s.StaysUp events) : s.raised = true := up [] events rfl

theorem StaysUp.end (up : s.StaysUp events) : (s.after events).raised = true :=
  up events [] (List.append_nil _).symm

theorem StaysUp.of_append (up : s.StaysUp (before ++ later)) :
    s.StaysUp before ∧ (s.after before).StaysUp later := by
  constructor
  · intro first second eq
    exact up first (second ++ later) (by simp [eq])
  · intro first second eq
    simpa using up (before ++ first) second (by simp [eq])

end Signal

/-- With an event of a trace that begins under a signal, shutdown is requested and stays so. -/
structure Alarm (s : Signal) (trace before : Trace) (t : Nat) (later : Trace) : Prop where
  splits : trace = before ++ ⟨t, .signal .raise⟩ :: later
  stays : ((s.after before.events).change .raise).StaysUp later.events

namespace Alarm

variable {s : Signal} {trace first second before later : Trace} {t : Nat}

theorem after_eq (alarm : Alarm s trace before t later) :
    s.after trace.events = ((s.after before.events).change .raise).after later.events := by
  rw [alarm.splits, Trace.events_append, Signal.after_append]
  rfl

theorem raised (alarm : Alarm s trace before t later) : (s.after trace.events).raised = true := by
  rw [alarm.after_eq]
  exact alarm.stays.end

/-- Of two traces in a row, the alarm is raised in the second or in the first, and then stays
up during the second. -/
theorem of_append (alarm : Alarm s (first ++ second) before t later) :
    (∃ mid, before = first ++ mid ∧ Alarm (s.after first.events) second mid t later) ∨
    ∃ mid, later = mid ++ second ∧ Alarm s first before t mid ∧
      (s.after first.events).StaysUp second.events := by
  obtain ⟨eq, stays⟩ := alarm
  rcases split_append eq with ⟨mid, rfl, tail⟩ | ⟨mid, head, rfl⟩
  · refine .inl ⟨mid, rfl, tail, ?_⟩
    rwa [Trace.events_append, Signal.after_append] at stays
  · rw [Trace.events_append] at stays
    obtain ⟨near, far⟩ := stays.of_append
    have early : Alarm s first before t mid := ⟨head, near⟩
    refine .inr ⟨mid, rfl, early, ?_⟩
    rwa [early.after_eq]

theorem not_nil (alarm : Alarm s [] before t later) : False := by
  have eq := alarm.splits
  simp at eq

/-- The alarm is raised with a request for shutdown, and so after any other event. -/
theorem of_cons {e : Timed} {rest : Trace} (alarm : Alarm s ([e] ++ rest) before t later)
    (other : e.event ≠ .signal .raise) :
    ∃ mid, before = e :: mid ∧ Alarm (s.see e.event) rest mid t later := by
  rcases alarm.of_append with ⟨mid, rfl, late⟩ | ⟨mid, _, early, _⟩
  · exact ⟨mid, rfl, late⟩
  · obtain ⟨time, event⟩ := e
    have mem : (⟨t, .signal .raise⟩ : Timed) ∈ [⟨time, event⟩] := by simp [early.splits]
    cases List.mem_singleton.mp mem
    exact absurd rfl other

/-- Where all events have one time the alarm is raised at that time. -/
theorem time_eq {now : Nat} (alarm : Alarm s trace before t later)
    (times : ∀ e ∈ trace, e.time = now) : t = now :=
  times ⟨t, .signal .raise⟩ (by simp [alarm.splits])

/-- In a world that gains nothing no alarm is raised. -/
theorem not_idle {σ : Type} {c : Collaborators σ} {w : World σ}
    (alarm : Alarm s trace before t later) (gains : w.Gains c trace w) : False := by
  rw [gains.unique (.refl c w)] at alarm
  exact alarm.not_nil

end Alarm

namespace World

variable {c : Collaborators σ} {w later : World σ} {new before after : Trace} {t : Nat}

theorem advanceBy_raised (c : Collaborators σ) (limit bound : Nat)
    (raised : w.signal.raised = true) : w.advanceBy c true limit bound = w := by
  cases bound with
  | zero => rfl
  | succ bound => simp [advanceBy, raised]

/-- Nothing more happens once shutdown is requested than what happens at once. -/
theorem advanceBy_alarm {limit bound : Nat}
    (gains : w.Gains c new (w.advanceBy c true limit bound))
    (alarm : Alarm w.signal new before t after) :
    (w.advanceBy c true limit bound).now = t ∧ ∀ e ∈ after, e.time = t := by
  induction bound generalizing w new before with
  | zero => exact (alarm.not_idle gains).elim
  | succ bound ih =>
    by_cases raised : w.signal.raised = true
    · rw [advanceBy_raised c limit _ raised] at gains
      exact (alarm.not_idle gains).elim
    have low : (true && w.signal.raised) = false := by simpa using raised
    cases step : w.step c limit with
    | none =>
      rw [advanceBy, low, step] at gains
      exact (alarm.not_idle gains).elim
    | some next =>
      have goes : w.advanceBy c true limit (bound + 1) = next.advanceBy c true limit bound := by
        rw [advanceBy, low, step]
        rfl
      rw [goes] at gains ⊢
      obtain ⟨time, _, now, first, gained, times⟩ := step_atOnce step
      have gained : w.Gains c first next := (gains_moveTo c w time).trans gained
      obtain ⟨rest, gains'⟩ := advanceBy_gains c true limit bound next
      have signal := gained.signal (drifts_step step)
      rw [gains.unique (gained.trans gains')] at alarm
      rcases alarm.of_append with ⟨mid, rfl, late⟩ | ⟨mid, rfl, early, stays⟩
      · rw [← signal] at late
        exact ih gains' late
      · -- The step in which shutdown is requested is the last one.
        have up : next.signal.raised = true := by
          rw [signal]
          exact stays.start
        rw [advanceBy_raised c limit bound up] at gains' ⊢
        obtain rfl := gains'.unique (.refl c next)
        have here : t = (w.moveTo time).now := early.time_eq times
        refine ⟨now.trans here.symm, fun e mem => ?_⟩
        rw [List.append_nil] at mem
        exact (times e (by simp [early.splits, mem])).trans here.symm

theorem gains_change (c : Collaborators σ) (w : World σ) (change : SignalChange) :
    w.Gains c [⟨w.now, .signal change⟩] (w.change change) :=
  ⟨trace_record _ _, rfl⟩

theorem cutOff_gains (c : Collaborators σ) (horizon : Horizon) (interruptible : Bool)
    (w : World σ) : ∃ new, w.Gains c new (w.cutOff (α := α) horizon interruptible).1 := by
  rw [cutOff]
  cases horizon.inclusive with
  | false => exact ⟨[], gains_moveTo c w _⟩
  | true =>
    obtain ⟨new, gains, _⟩ := (atOnce_catchUp c (w.moveTo horizon.time)).gains
    exact ⟨new, (gains_moveTo c w _).trans gains⟩

theorem advance_gains (c : Collaborators σ) (interruptible : Bool) (limit : Nat) (w : World σ)
    {out : World σ × Option (Reply α)}
    (rest : ∃ new, (w.advance c interruptible limit).Gains c new out.1) :
    ∃ new, w.Gains c new
      (if interruptible && (w.advance c interruptible limit).signal.raised then
        (w.advance c interruptible limit, some .cancelled)
      else out).1 := by
  obtain ⟨new, gains⟩ := advanceBy_gains c interruptible limit (w.stepBound limit) w
  obtain ⟨more, gains'⟩ := rest
  split
  · exact ⟨new, gains⟩
  · exact ⟨new ++ more, gains.trans gains'⟩

theorem await_gains (c : Collaborators σ) (horizon : Horizon) (interruptible : Bool)
    (reaction : Reaction α) (w : World σ) :
    ∃ new, w.Gains c new (w.await c horizon interruptible reaction).1 := by
  induction reaction generalizing w with
  | succeed answer => exact ⟨[], .refl c w⟩
  | fail failure => exact ⟨[], .refl c w⟩
  | panic text => exact ⟨[], .refl c w⟩
  | signal change next ih =>
    obtain ⟨new, gains⟩ := ih (w.change change)
    exact ⟨_, (gains_change c w change).trans gains⟩
  | hang =>
    rw [await]
    split
    · exact ⟨[], .refl c w⟩
    · exact advance_gains c interruptible horizon.time w (cutOff_gains c horizon interruptible _)
  | sleep ms next ih =>
    cases ms with
    | zero => exact ih w
    | succ ms =>
      rw [await]
      split
      · exact ⟨[], .refl c w⟩
      · apply advance_gains
        split
        · exact cutOff_gains c horizon interruptible _
        · obtain ⟨new, gains⟩ := ih (World.moveTo _ _)
          exact ⟨_, (gains_moveTo c _ _).trans gains⟩

end World

/-- A reaction goes on as another one after so many milliseconds. -/
inductive Reaction.Leads : Reaction α → Nat → Reaction α → Prop
  | here {reaction} : Leads reaction 0 reaction
  | sleep {ms next more rest} : Leads next more rest → Leads (.sleep ms next) (ms + more) rest
  | signal {change next ms rest} : Leads next ms rest → Leads (.signal change next) ms rest

/-- How a wait for a collaborator ends in which shutdown is requested for good at a time: what
still happens, and the reply. -/
inductive CutShort (horizon : Horizon) (reaction : Reaction α) (start t : Nat) :
    Trace → Option (Reply α) → Prop
  /-- The wait is over at once. -/
  | abandoned {rest} : (∀ e ∈ rest, e.time = t) →
    CutShort horizon reaction start t rest (some .cancelled)
  /-- The collaborator requested shutdown itself, and replied before it took any more time. -/
  | replied {ms next changes reply} : reaction.Leads ms (.signal .raise next) → start + ms = t →
    next.settle = (changes, .ended reply) →
      CutShort horizon reaction start t (changes.map fun change => ⟨t, .signal change⟩) (some reply)
  /-- The run is not watched any longer. -/
  | unwatched {rest} : horizon.time ≤ t → CutShort horizon reaction start t rest none

namespace CutShort

variable {horizon : Horizon} {next : Reaction α} {start t : Nat} {rest : Trace}
  {reply : Option (Reply α)}

theorem signal (change : SignalChange) (cut : CutShort horizon next start t rest reply) :
    CutShort horizon (.signal change next) start t rest reply := by
  cases cut with
  | abandoned times => exact .abandoned times
  | replied leads time settled => exact .replied leads.signal time settled
  | unwatched overdue => exact .unwatched overdue

theorem sleep (ms : Nat) (cut : CutShort horizon next (start + ms) t rest reply) :
    CutShort horizon (.sleep ms next) start t rest reply := by
  cases cut with
  | abandoned times => exact .abandoned times
  | replied leads time settled => exact .replied leads.sleep (by omega) settled
  | unwatched overdue => exact .unwatched overdue

end CutShort

namespace World

variable {c : Collaborators σ} {horizon : Horizon} {w later : World σ} {new before after : Trace}
  {t : Nat}

/-- A wait that would take time is over under a raised signal. -/
def giveUp (horizon : Horizon) (w : World σ) : World σ × Option (Reply α) :=
  if w.isOver horizon then (w, none) else (w, some .cancelled)

theorem await_hang_raised (c : Collaborators σ) (horizon : Horizon)
    (raised : w.signal.raised = true) :
    w.await c horizon true (.hang : Reaction α) = w.giveUp horizon := by
  simp [await, giveUp, advance, advanceBy_raised, raised]

theorem await_sleep_raised (c : Collaborators σ) (horizon : Horizon) (ms : Nat) (next : Reaction α)
    (raised : w.signal.raised = true) :
    w.await c horizon true (.sleep (ms + 1) next) = w.giveUp horizon := by
  simp [await, giveUp, advance, advanceBy_raised, raised]

theorem giveUp_cases (c : Collaborators σ) (gains : w.Gains c new (w.giveUp (α := α) horizon).1) :
    new = [] ∧ (w.giveUp (α := α) horizon).1 = w ∧
    ((w.giveUp (α := α) horizon).2 = some .cancelled ∨
      ((w.giveUp (α := α) horizon).2 = none ∧ horizon.time ≤ w.now)) := by
  rw [giveUp] at gains ⊢
  by_cases overdue : w.isOver horizon = true
  · rw [if_pos overdue] at gains ⊢
    exact ⟨gains.unique (.refl c w), rfl, .inr ⟨rfl, by simpa [isOver] using overdue⟩⟩
  · rw [if_neg overdue] at gains ⊢
    exact ⟨gains.unique (.refl c w), rfl, .inl rfl⟩

/-- Under a raised signal a wait goes on only as long as it takes no time. -/
theorem await_up {reaction : Reaction α}
    (gains : w.Gains c new (w.await c horizon true reaction).1)
    (stays : w.signal.StaysUp new.events) :
    (w.await c horizon true reaction).1.now = w.now ∧
    ((∃ changes reply, reaction.settle = (changes, .ended reply) ∧
        (w.await c horizon true reaction).2 = some reply ∧
        new = changes.map fun change => ⟨w.now, .signal change⟩) ∨
      ((w.await c horizon true reaction).2 = some .cancelled ∧ ∀ e ∈ new, e.time = w.now) ∨
      ((w.await c horizon true reaction).2 = none ∧ horizon.time ≤ w.now)) := by
  induction reaction generalizing w new with
  | succeed answer =>
    obtain rfl := gains.unique (.refl c w)
    exact ⟨rfl, .inl ⟨[], _, rfl, rfl, rfl⟩⟩
  | fail failure =>
    obtain rfl := gains.unique (.refl c w)
    exact ⟨rfl, .inl ⟨[], _, rfl, rfl, rfl⟩⟩
  | panic text =>
    obtain rfl := gains.unique (.refl c w)
    exact ⟨rfl, .inl ⟨[], _, rfl, rfl, rfl⟩⟩
  | signal change next ih =>
    obtain ⟨rest, gains'⟩ := await_gains c horizon true next (w.change change)
    obtain rfl := gains.unique ((gains_change c w change).trans gains')
    have both : w.signal.StaysUp ([.signal change] ++ rest.events) := stays
    have up : (w.change change).signal.StaysUp rest.events := both.of_append.2
    obtain ⟨now, ending⟩ := ih gains' up
    refine ⟨now, ?_⟩
    rcases ending with ⟨changes, reply, settled, replied, rfl⟩ | ⟨cancelled, times⟩ | overdue
    · exact .inl ⟨change :: changes, reply, by simp [Reaction.settle, settled], replied, rfl⟩
    · refine .inr (.inl ⟨cancelled, fun e mem => ?_⟩)
      rcases List.mem_cons.mp mem with rfl | mem
      · rfl
      · exact times e mem
    · exact .inr (.inr overdue)
  | hang =>
    rw [await_hang_raised c horizon stays.start] at gains ⊢
    obtain ⟨rfl, same, ending⟩ := giveUp_cases c gains
    exact ⟨by rw [same], .inr (ending.imp (fun cancelled => ⟨cancelled, by simp⟩) id)⟩
  | sleep ms next ih =>
    cases ms with
    | zero => exact ih gains stays
    | succ ms =>
      rw [await_sleep_raised c horizon ms next stays.start] at gains ⊢
      obtain ⟨rfl, same, ending⟩ := giveUp_cases c gains
      exact ⟨by rw [same], .inr (ending.imp (fun cancelled => ⟨cancelled, by simp⟩) id)⟩

/-- A wait that is cut off at the horizon may see the signal change there. -/
theorem cutOff_alarm (reaction : Reaction α) (start : Nat)
    (gains : w.Gains c new (w.cutOff (α := α) horizon true).1)
    (alarm : Alarm w.signal new before t after) :
    (w.cutOff (α := α) horizon true).1.now = t ∧
      CutShort horizon reaction start t after (w.cutOff horizon true).2 := by
  cases inclusive : horizon.inclusive with
  | false =>
    have moved : w.Gains c new (w.moveTo horizon.time) := by
      simpa [cutOff, inclusive] using gains
    rw [moved.unique (gains_moveTo c w _)] at alarm
    exact alarm.not_nil.elim
  | true =>
    have caught : w.Gains c new (w.moveTo horizon.time).catchUp := by
      simpa [cutOff, inclusive] using gains
    have drifts : w.Drifts (w.moveTo horizon.time).catchUp :=
      (drifts_moveTo w _).trans (drifts_catchUp _)
    have raised : (w.moveTo horizon.time).catchUp.signal.raised = true := by
      rw [caught.signal drifts]
      exact alarm.raised
    obtain ⟨now, first, gained, times⟩ := atOnce_catchUp c (w.moveTo horizon.time)
    obtain rfl := caught.unique ((gains_moveTo c w _).trans gained)
    have here : t = (w.moveTo horizon.time).now := alarm.time_eq times
    simp only [cutOff, inclusive, raised, Bool.and_true, if_true]
    refine ⟨now.trans here.symm, .abandoned fun e mem => ?_⟩
    exact (times e (by simp [alarm.splits, mem])).trans here.symm

/-- A wait that takes time is over in the step in which shutdown is requested. -/
theorem advance_alarm {limit start : Nat} {reaction : Reaction α} {out : World σ × Option (Reply α)}
    (gains : w.Gains c new
      (if true && (w.advance c true limit).signal.raised then
        (w.advance c true limit, some .cancelled)
      else out).1)
    (alarm : Alarm w.signal new before t after)
    (known : ∃ rest, (w.advance c true limit).Gains c rest out.1)
    (onward : ∀ rest before, (w.advance c true limit).Gains c rest out.1 →
      Alarm (w.advance c true limit).signal rest before t after →
        out.1.now = t ∧ CutShort horizon reaction start t after out.2) :
    (if true && (w.advance c true limit).signal.raised then
        (w.advance c true limit, some .cancelled)
      else out).1.now = t ∧
    CutShort horizon reaction start t after
      (if true && (w.advance c true limit).signal.raised then
        (w.advance c true limit, some .cancelled)
      else out).2 := by
  by_cases raised : (true && (w.advance c true limit).signal.raised) = true
  · rw [if_pos raised] at gains ⊢
    obtain ⟨now, times⟩ := advanceBy_alarm gains alarm
    exact ⟨now, .abandoned times⟩
  · rw [if_neg raised] at gains ⊢
    obtain ⟨first, gained⟩ := advanceBy_gains c true limit (w.stepBound limit) w
    obtain ⟨rest, gains'⟩ := known
    have signal := gained.signal (drifts_advance c true limit w)
    rw [gains.unique (gained.trans gains')] at alarm
    rcases alarm.of_append with ⟨mid, _, late⟩ | ⟨mid, _, early, _⟩
    · rw [← signal] at late
      exact onward rest mid gains' late
    · have up := early.raised
      rw [← signal] at up
      exact absurd (by simpa [advance] using up) raised

/-- A wait that shutdown interrupts is over in the step in which shutdown is requested. -/
theorem await_alarm {reaction : Reaction α}
    (gains : w.Gains c new (w.await c horizon true reaction).1)
    (alarm : Alarm w.signal new before t after) :
    (w.await c horizon true reaction).1.now = t ∧
      CutShort horizon reaction w.now t after (w.await c horizon true reaction).2 := by
  induction reaction generalizing w new before with
  | succeed answer => exact (alarm.not_idle gains).elim
  | fail failure => exact (alarm.not_idle gains).elim
  | panic text => exact (alarm.not_idle gains).elim
  | signal change next ih =>
    obtain ⟨rest, gains'⟩ := await_gains c horizon true next (w.change change)
    rw [gains.unique ((gains_change c w change).trans gains')] at alarm
    rcases alarm.of_append with ⟨mid, _, late⟩ | ⟨mid, rfl, early, stays⟩
    · obtain ⟨now, cut⟩ := ih gains' late
      exact ⟨now, cut.signal change⟩
    · -- The collaborator itself requests shutdown, here and now.
      obtain ⟨rfl, same, rfl⟩ := split_head (by simp) early.splits
      cases same
      obtain ⟨now, ending⟩ := await_up gains' stays
      refine ⟨now, ?_⟩
      rw [List.nil_append]
      rcases ending with ⟨changes, reply, settled, replied, rfl⟩ | ⟨cancelled, times⟩ |
        ⟨none, overdue⟩
      · rw [await, replied]
        exact .replied .here rfl settled
      · rw [await, cancelled]
        exact .abandoned times
      · rw [await, none]
        exact .unwatched overdue
  | hang =>
    by_cases overdue : w.isOver horizon = true
    · rw [await, if_pos overdue] at gains
      exact (alarm.not_idle gains).elim
    · rw [await, if_neg overdue] at gains ⊢
      exact advance_alarm gains alarm (cutOff_gains c horizon true _) fun rest before gains' late =>
        cutOff_alarm _ _ gains' late
  | sleep ms next ih =>
    cases ms with
    | zero =>
      obtain ⟨now, cut⟩ := ih gains alarm
      exact ⟨now, cut.sleep 0⟩
    | succ ms =>
      by_cases overdue : w.isOver horizon = true
      · rw [await, if_pos overdue] at gains
        exact (alarm.not_idle gains).elim
      · rw [await, if_neg overdue] at gains ⊢
        refine advance_alarm gains alarm ?_ fun rest before gains' late => ?_
        · split
          · exact cutOff_gains c horizon true _
          · obtain ⟨more, gains'⟩ := await_gains c horizon true next (World.moveTo _ _)
            exact ⟨more, (gains_moveTo c _ _).trans gains'⟩
        · split at gains'
          · rename_i short
            rw [if_pos short]
            exact cutOff_alarm _ _ gains' late
          · rename_i long
            rw [if_neg long]
            have early : w.now ≤ min (w.now + (ms + 1)) horizon.time := by
              simp only [isOver, decide_eq_true_eq] at overdue
              omega
            have within := advance_now_le c true early
            have woken : ((w.advance c true (min (w.now + (ms + 1)) horizon.time)).moveTo
                (w.now + (ms + 1))).now = w.now + (ms + 1) := moveTo_now_of_le (by omega)
            obtain ⟨now, cut⟩ := ih ⟨gains'.trace, gains'.memory⟩ late
            rw [woken] at cut
            exact ⟨now, cut.sleep (ms + 1)⟩

end World

end Rollout
