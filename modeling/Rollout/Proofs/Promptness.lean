import Rollout.Proofs.Abandonment

/-!
# A run under a raised signal takes no time

Only the wait for a call takes time, and no call is begun under a raised signal but those that are
carried through. So once shutdown is requested for good, no time passes before such a call.
-/

namespace Rollout

variable {σ α : Type}

/-- A run is at this time in the end, and it is not cut off before. -/
structure Prompt (horizon : Horizon) (t : Nat) (out : World σ × RunEnd α) : Prop where
  now : out.1.now = t
  hung : out.2 = .hung → horizon.time ≤ t

def Interruptible (events : List Event) : Prop := ∀ call ∈ begun events, call.cancellable = true

theorem Interruptible.of_append {first second : List Event}
    (interruptible : Interruptible (first ++ second)) : Interruptible second :=
  fun call mem => interruptible call (by simp [mem])

/-- A call that may be made is begun. -/
theorem Script.Tells.began_mem {made : Call} {next : Reply made.Answer → Script α}
    {s later : Stage} {events : List Event} {r : RunEnd α}
    (h : (Script.call made next).Tells s events r later) (may : s.MayBegin made) :
    .began .pass made ∈ events := by
  cases h with
  | refused refused _ => exact absurd may refused
  | answered _ _ _ _ => simp
  | unanswered _ _ => simp

section Prompt

variable {c : Collaborators σ} {horizon : Horizon} {w mid : World σ} {next : Script α}
  {new first before later : Trace} {t : Nat}

theorem Script.run_gains (c : Collaborators σ) (horizon : Horizon) (script : Script α)
    (w : World σ) : ∃ new, w.Gains c new (script.run c horizon w).1 := by
  obtain ⟨new, gains, _⟩ := script.run_fated c horizon w
  exact ⟨new, gains⟩

theorem began_mem_run {made : Call} {next : Reply made.Answer → Script α}
    (gains : w.Gains c new ((Script.call made next).run c horizon w).1)
    (may : w.stage.MayBegin made) : .began .pass made ∈ new.events := by
  obtain ⟨events, grown, tells⟩ := (Script.call made next).run_tells c horizon w
  rw [gains.events_eq grown]
  exact tells.began_mem may

theorem isOver_of_cut (overdue : (w.isOver horizon && w.renewalIsLive) = true) :
    horizon.time ≤ w.now := by
  simp only [World.isOver, Bool.and_eq_true, decide_eq_true_eq] at overdue
  exact overdue.1

/-- What is told, and what is done about the loop, takes no time. -/
theorem prompt_of_quiet (quiet : w.Quiet first mid) (now : mid.now = w.now)
    (gained : w.Gains c first mid) (gains : w.Gains c new (next.run c horizon mid).1)
    (stays : w.signal.StaysUp new.events) (interruptible : Interruptible new.events)
    (onward : ∀ {rest}, mid.Gains c rest (next.run c horizon mid).1 →
      mid.signal.StaysUp rest.events → Interruptible rest.events →
        Prompt horizon mid.now (next.run c horizon mid)) :
    Prompt horizon w.now (next.run c horizon mid) := by
  obtain ⟨rest, gains'⟩ := next.run_gains c horizon mid
  obtain rfl := gains.unique (gained.trans gains')
  rw [Trace.events_append] at stays interruptible
  have up := stays.of_append.2
  rw [← quiet.signal] at up
  rw [← now]
  exact onward gains' up interruptible.of_append

/-- Under a raised signal a run takes no time before it makes a call that is carried through. -/
theorem Script.run_up {script : Script α} (gains : w.Gains c new (script.run c horizon w).1)
    (stays : w.signal.StaysUp new.events) (interruptible : Interruptible new.events) :
    Prompt horizon w.now (script.run c horizon w) := by
  induction script generalizing w new with
  | done exit => exact ⟨rfl, by simp [run]⟩
  | note n next ih =>
    rw [run] at gains ⊢
    have told := World.gains_record c w (e := .note n) (by simp)
    exact prompt_of_quiet (w.quiet_note n) rfl told gains stays interruptible ih
  | checkpoint next ih => exact ih _ gains stays interruptible
  | startRenewal machines ttl interval next ih =>
    rw [run] at gains ⊢
    obtain ⟨now, first, gained, _⟩ := World.atOnce_startRenewal c w machines ttl interval
    exact prompt_of_quiet (World.quiet_startRenewal gained) now gained gains stays interruptible ih
  | stopRenewal next ih =>
    rw [run] at gains ⊢
    by_cases overdue : (w.isOver horizon && w.renewalIsLive) = true
    · rw [if_pos overdue]
      exact ⟨(World.atOnce_dropRenewal c w).now, fun _ => isOver_of_cut overdue⟩
    · rw [if_neg overdue] at gains ⊢
      obtain ⟨now, first, gained, _⟩ := World.atOnce_stopRenewal c w
      exact prompt_of_quiet (World.quiet_stopRenewal gained) now gained gains stays interruptible ih
  | call made next ih =>
    by_cases may : w.stage.MayBegin made
    · have interrupts := interruptible made (mem_begun.mpr (began_mem_run gains may))
      exact absurd ⟨interrupts, stays.start⟩ may
    · rw [run, World.perform_refused c horizon may] at gains ⊢
      exact ih _ gains stays interruptible

/-- An alarm among what is told, or among what is done about the loop, is raised now. -/
theorem prompt_of_atOnce (quiet : w.Quiet first mid) (now : mid.now = w.now)
    (gained : w.Gains c first mid) (times : ∀ e ∈ first, e.time = w.now)
    (gains : w.Gains c new (next.run c horizon mid).1)
    (alarm : Alarm w.signal new before t later) (interruptible : Interruptible new.events)
    (onward : ∀ {rest before}, mid.Gains c rest (next.run c horizon mid).1 →
      Alarm mid.signal rest before t later → Interruptible rest.events →
        Prompt horizon t (next.run c horizon mid)) :
    Prompt horizon t (next.run c horizon mid) := by
  obtain ⟨rest, gains'⟩ := next.run_gains c horizon mid
  obtain rfl := gains.unique (gained.trans gains')
  rw [Trace.events_append] at interruptible
  rcases alarm.of_append with ⟨b, rfl, late⟩ | ⟨b, rfl, early, stays⟩
  · rw [← quiet.signal] at late
    exact onward gains' late interruptible.of_append
  · have here : t = w.now := early.time_eq times
    rw [← quiet.signal] at stays
    rw [here, ← now]
    exact Script.run_up gains' stays interruptible.of_append

/-- An alarm is raised while a call is waited for that is replied to, or after it. -/
theorem prompt_of_answered {made : Call} {next : Reply made.Answer → Script α}
    {answer : Reply made.Answer} {noise : Trace} {after : World σ}
    (interrupts : made.cancellable = true) (gained : (w.begin c made).Gains c noise after)
    (background : w.stage.Background noise.events after.stage)
    (cut : w.Cut c horizon made noise after (some answer))
    (gains : w.Gains c new
      ((next answer).run c horizon (after.record (.ended .pass made answer))).1)
    (alarm : Alarm w.signal new before t later) (interruptible : Interruptible new.events)
    (onward : ∀ {rest before}, (after.record (.ended .pass made answer)).Gains c rest
        ((next answer).run c horizon (after.record (.ended .pass made answer))).1 →
      Alarm (after.record (.ended .pass made answer)).signal rest before t later →
      Interruptible rest.events →
        Prompt horizon t ((next answer).run c horizon (after.record (.ended .pass made answer)))) :
    Prompt horizon t ((next answer).run c horizon (after.record (.ended .pass made answer))) := by
  obtain ⟨rest, gains'⟩ := (next answer).run_gains c horizon
    (after.record (.ended .pass made answer))
  have began := World.gains_began c w .pass made
  have ended := World.gains_record c after (e := .ended .pass made answer) (by simp)
  obtain rfl := gains.unique (began.trans (gained.trans (ended.trans gains')))
  have after_reply : Interruptible rest.events := by
    simp only [Trace.events_append] at interruptible
    exact interruptible.of_append.of_append.of_append
  have signal : (after.record (.ended .pass made answer)).signal = w.signal.after noise.events :=
    background.signal
  obtain ⟨b, rfl, waiting⟩ := alarm.of_cons (by simp)
  rcases waiting.of_append with ⟨b', rfl, replied⟩ | ⟨during, _, inside, stays⟩
  · obtain ⟨b'', rfl, late⟩ := replied.of_cons (by simp)
    have late' : Alarm (after.record (.ended .pass made answer)).signal rest b'' t later := by
      rw [signal]
      exact late
    exact onward gains' late' after_reply
  · obtain ⟨now, _⟩ := cut interrupts _ _ _ inside
    have both : (w.signal.after noise.events).StaysUp
      ([.ended .pass made answer] ++ rest.events) := stays
    have up : (after.record (.ended .pass made answer)).signal.StaysUp rest.events := by
      rw [signal]
      exact both.of_append.2
    have prompt := Script.run_up gains' up after_reply
    rw [← now]
    exact prompt

/-- An alarm is raised while a call is waited for that is not replied to, or as the run is cut
off. -/
theorem prompt_of_unanswered {made : Call} {noise : Trace} {after : World σ}
    (interrupts : made.cancellable = true) (gained : (w.begin c made).Gains c noise after)
    (cut : w.Cut c horizon made noise after none) (overdue : horizon.time ≤ after.now)
    (gains : w.Gains c new after.dropRenewal) (alarm : Alarm w.signal new before t later) :
    Prompt horizon t (after.dropRenewal, (.hung : RunEnd α)) := by
  have began := World.gains_began c w .pass made
  obtain ⟨now, closing, dropped, times⟩ := World.atOnce_dropRenewal c after
  obtain rfl := gains.unique (began.trans (gained.trans dropped))
  have here : after.now = t := by
    obtain ⟨b, rfl, waiting⟩ := alarm.of_cons (by simp)
    rcases waiting.of_append with ⟨b', rfl, ending⟩ | ⟨_, _, inside, _⟩
    · exact (ending.time_eq times).symm
    · exact (cut interrupts _ _ _ inside).1
  exact ⟨now.trans here, fun _ => by omega⟩

/-- From an alarm on a run takes no time before it makes a call that is carried through. -/
theorem Script.run_alarm {script : Script α} (gains : w.Gains c new (script.run c horizon w).1)
    (alarm : Alarm w.signal new before t later) (interruptible : Interruptible new.events) :
    Prompt horizon t (script.run c horizon w) := by
  induction script generalizing w new before with
  | done exit => exact (alarm.not_idle gains).elim
  | note n next ih =>
    rw [run] at gains ⊢
    have told := World.gains_record c w (e := .note n) (by simp)
    exact prompt_of_atOnce (w.quiet_note n) rfl told (by simp) gains alarm interruptible ih
  | checkpoint next ih => exact ih _ gains alarm interruptible
  | startRenewal machines ttl interval next ih =>
    rw [run] at gains ⊢
    obtain ⟨now, first, gained, times⟩ := World.atOnce_startRenewal c w machines ttl interval
    exact prompt_of_atOnce (World.quiet_startRenewal gained) now gained times gains alarm
      interruptible ih
  | stopRenewal next ih =>
    rw [run] at gains ⊢
    by_cases overdue : (w.isOver horizon && w.renewalIsLive) = true
    · rw [if_pos overdue] at gains ⊢
      obtain ⟨now, first, gained, times⟩ := World.atOnce_dropRenewal c w
      obtain rfl := gains.unique gained
      have here : t = w.now := alarm.time_eq times
      have late := isOver_of_cut overdue
      exact ⟨now.trans here.symm, fun _ => by omega⟩
    · rw [if_neg overdue] at gains ⊢
      obtain ⟨now, first, gained, times⟩ := World.atOnce_stopRenewal c w
      exact prompt_of_atOnce (World.quiet_stopRenewal gained) now gained times gains alarm
        interruptible ih
  | call made next ih =>
    by_cases may : w.stage.MayBegin made
    · have interrupts := interruptible made (mem_begun.mpr (began_mem_run gains may))
      obtain ⟨noise, after, reply, gained, background, cut, ending⟩ :=
        World.perform_cut c horizon may
      rcases ending with ⟨answer, rfl, performed⟩ | ⟨rfl, overdue, performed⟩
      · rw [run, performed] at gains ⊢
        exact prompt_of_answered interrupts gained background cut gains alarm interruptible
          (ih answer)
      · rw [run, performed] at gains ⊢
        exact prompt_of_unanswered interrupts gained cut overdue gains alarm
    · rw [run, World.perform_refused c horizon may] at gains ⊢
      exact ih _ gains alarm interruptible

end Prompt

end Rollout
