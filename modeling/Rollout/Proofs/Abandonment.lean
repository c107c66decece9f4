import Rollout.Proofs.Interruption

/-!
# What becomes of a call under way

When shutdown is requested for good while the pass waits for a call that shutdown interrupts, the
call is abandoned. This is read off the trace of a run: the call has begun and not ended where the
alarm is raised, and its end is the next that the trace tells of the pass.
-/

namespace Rollout

variable {σ α : Type}

/-- A call of the pass that began at a time is under way: it has not ended yet. -/
structure Pending (x : Trace) (start : Nat) (call : Call) (noise before : Trace) : Prop where
  splits : before = x ++ ⟨start, .began .pass call⟩ :: noise
  unended : ∀ made reply, .ended .pass made reply ∉ noise.events

/-- What becomes of a call that is under way when shutdown is requested for good. -/
inductive Fate (c : Collaborators σ) (memory : σ) (horizon : Horizon) (x : Trace) (start : Nat)
    (call : Call) (t : Nat) : Trace → RunEnd α → Prop
  /-- The call is abandoned at once. -/
  | abandoned {during rest : Trace} {r} :
    (∀ e ∈ during, e.time = t) → transcript during.events = [] →
    Fate c memory horizon x start call t
      (during ++ ⟨t, .ended .pass call .cancelled⟩ :: rest) r
  /-- The collaborator requested shutdown itself, and replied before it took any more time. -/
  | replied {ms next changes reply} {rest : Trace} {r} :
    (c.react (c.recall memory x.calls) start call).2.Leads ms (.signal .raise next) →
    start + ms = t → next.settle = (changes, .ended reply) →
    Fate c memory horizon x start call t
      ((changes.map fun change => ⟨t, .signal change⟩) ++ ⟨t, .ended .pass call reply⟩ :: rest) r
  /-- The run is not watched any longer. -/
  | unwatched {later} : horizon.time ≤ t → Fate c memory horizon x start call t later .hung

namespace World

variable {c : Collaborators σ} {horizon : Horizon} {w : World σ}

theorem cutOff_late (c : Collaborators σ) (horizon : Horizon) (interruptible : Bool)
    (w : World σ) : horizon.time ≤ (w.cutOff (α := α) horizon interruptible).1.now := by
  have moved : horizon.time ≤ (w.moveTo horizon.time).now := Nat.le_max_right _ _
  rw [cutOff]
  cases horizon.inclusive with
  | false => exact moved
  | true =>
    have now := (atOnce_catchUp c (w.moveTo horizon.time)).now
    exact now.symm ▸ moved

/-- A wait that takes time is replied to at once if shutdown interrupts it. -/
theorem advance_late {interruptible : Bool} {limit : Nat} {out : World σ × Option (Reply α)}
    (none : (if interruptible && (w.advance c interruptible limit).signal.raised then
        (w.advance c interruptible limit, some .cancelled)
      else out).2 = none)
    (onward : out.2 = Option.none → horizon.time ≤ out.1.now) :
    horizon.time ≤ (if interruptible && (w.advance c interruptible limit).signal.raised then
        (w.advance c interruptible limit, some .cancelled)
      else out).1.now := by
  by_cases raised : (interruptible && (w.advance c interruptible limit).signal.raised) = true
  · rw [if_pos raised] at none
    cases none
  · rw [if_neg raised] at none ⊢
    exact onward none

/-- A wait goes on until the horizon if there is no reply before. -/
theorem await_none_late {interruptible : Bool} {reaction : Reaction α}
    (none : (w.await c horizon interruptible reaction).2 = none) :
    horizon.time ≤ (w.await c horizon interruptible reaction).1.now := by
  induction reaction generalizing w with
  | succeed answer => cases none
  | fail failure => cases none
  | panic text => cases none
  | signal change next ih => exact ih none
  | hang =>
    rw [await] at none ⊢
    by_cases overdue : w.isOver horizon = true
    · rw [if_pos overdue]
      simpa [isOver] using overdue
    · rw [if_neg overdue] at none ⊢
      exact advance_late none fun _ => cutOff_late c horizon interruptible _
  | sleep ms next ih =>
    cases ms with
    | zero => exact ih none
    | succ ms =>
      rw [await] at none ⊢
      by_cases overdue : w.isOver horizon = true
      · rw [if_pos overdue]
        simpa [isOver] using overdue
      · rw [if_neg overdue] at none ⊢
        refine advance_late none fun none => ?_
        by_cases short : horizon.time < w.now + (ms + 1)
        · rw [if_pos short]
          exact cutOff_late c horizon interruptible _
        · rw [if_neg short] at none ⊢
          exact ih none

def begin (c : Collaborators σ) (w : World σ) (call : Call) : World σ :=
  { w.record (.began .pass call) with memory := (c.react w.memory w.now call).1 }

/-- How the wait for a call ends if shutdown is requested for good meanwhile. -/
def Cut (c : Collaborators σ) (horizon : Horizon) (w : World σ) (call : Call) (noise : Trace)
    (after : World σ) (reply : Option (Reply call.Answer)) : Prop :=
  call.cancellable = true → ∀ before t later, Alarm w.signal noise before t later →
    after.now = t ∧ CutShort horizon (c.react w.memory w.now call).2 w.now t later reply

/-- Under a raised signal a call that shutdown interrupts is not begun. -/
theorem perform_refused (c : Collaborators σ) (horizon : Horizon) {call : Call}
    (closed : ¬ w.stage.MayBegin call) : w.perform c horizon call = (w, some .cancelled) := by
  have refused : (call.cancellable && w.signal.raised) = true := by
    simpa [Stage.MayBegin, stage] using closed
  rw [perform, refused]
  rfl

/-- A call that may be made begins, and is waited for. -/
theorem perform_cut (c : Collaborators σ) (horizon : Horizon) {w : World σ} {call : Call}
    (may : w.stage.MayBegin call) : ∃ noise after reply, (w.begin c call).Gains c noise after ∧
      w.stage.Background noise.events after.stage ∧ w.Cut c horizon call noise after reply ∧
      ((∃ answer, reply = some answer ∧
        w.perform c horizon call = (after.record (.ended .pass call answer), some answer)) ∨
      (reply = none ∧ horizon.time ≤ after.now ∧ w.perform c horizon call = (after, none))) := by
  let reaction := (c.react w.memory w.now call).2
  obtain ⟨noise, gains⟩ := await_gains c horizon call.cancellable reaction (w.begin c call)
  have waits := waits_await c horizon call.cancellable reaction (w.begin c call)
  have asks : (call.cancellable && w.signal.raised) = false := by
    simpa [Stage.MayBegin, stage] using may
  refine ⟨noise, _, ((w.begin c call).await c horizon call.cancellable reaction).2, gains,
    gains.background waits.drifts, ?_, ?_⟩
  · intro interrupts before t later alarm
    rw [interrupts] at gains ⊢
    exact await_alarm gains alarm
  · cases outcome : (w.begin c call).await c horizon call.cancellable reaction with
    | mk after reply =>
      cases reply with
      | some answer =>
        refine .inl ⟨answer, rfl, ?_⟩
        simp only [reaction, begin, record] at outcome
        simp [perform, asks, record, outcome]
      | none =>
        have late := await_none_late (by rw [outcome])
        rw [outcome] at late
        refine .inr ⟨rfl, late, ?_⟩
        simp only [reaction, begin, record] at outcome
        simp [perform, asks, record, outcome]

end World

namespace Pending

variable {s : Signal} {first second before x noise noise' later : Trace} {start t : Nat}
  {call : Call}

/-- A call under way did not begin in a part in which the pass begins none. -/
theorem skip (quiet : ∀ call, .began .pass call ∉ first.events)
    (alarm : Alarm s (first ++ second) before t later)
    (pending : Pending x start call noise before) :
    ∃ x' mid, x = first ++ x' ∧ Alarm (s.after first.events) second mid t later ∧
      Pending x' start call noise mid := by
  have began : ∀ {rest : Trace}, first = x ++ ⟨start, .began .pass call⟩ :: rest → False := by
    rintro rest rfl
    exact quiet call (by simp [Trace.events])
  rcases alarm.of_append with ⟨mid, rfl, late⟩ | ⟨mid, _, early, _⟩
  · rcases split_append pending.splits with ⟨x', rfl, tail⟩ | ⟨rest, head, _⟩
    · exact ⟨x', mid, rfl, late, tail, pending.unended⟩
    · exact (began head).elim
  · have head := early.splits
    rw [pending.splits, List.append_assoc] at head
    exact (began head).elim

/-- The only call of a part that begins with one and holds no other is under way there. -/
theorem of_began {made : Call} {now : Nat} (none : ∀ call, .began .pass call ∉ noise'.events)
    (pending : Pending x start call noise (⟨now, .began .pass made⟩ :: noise')) :
    x = [] ∧ start = now ∧ call = made := by
  have other : (⟨start, .began .pass call⟩ : Timed) ∉ noise' := fun mem =>
    none call (List.mem_map_of_mem mem)
  obtain ⟨rfl, same, _⟩ := split_head other pending.splits
  cases same
  exact ⟨rfl, rfl, rfl⟩

/-- A call under way did not begin before another one ended. -/
theorem past_ended {time : Nat} {made : Call} {reply : Reply made.Answer}
    (pending : Pending x start call noise
      (first ++ ([⟨time, .ended .pass made reply⟩] ++ second))) :
    ∃ x', x = first ++ ([⟨time, .ended .pass made reply⟩] ++ x') ∧
      Pending x' start call noise second := by
  rcases split_append pending.splits with ⟨mid, rfl, tail⟩ | ⟨mid, _, rfl⟩
  · rcases split_append tail with ⟨x', rfl, tail'⟩ | ⟨rest, head, _⟩
    · exact ⟨x', rfl, tail', pending.unended⟩
    · obtain ⟨_, same, _⟩ := split_head (by simp) head
      cases same
  · have none := pending.unended made reply
    simp at none

end Pending

/-- What becomes of the calls that are under way when shutdown is requested for good. -/
def Fated (c : Collaborators σ) (horizon : Horizon) (w : World σ) (new : Trace) (r : RunEnd α) :
    Prop :=
  ∀ before t later x start call noise, Alarm w.signal new before t later →
    Pending x start call noise before → call.cancellable = true →
      Fate c w.memory horizon x start call t later r

namespace Fated

variable {c : Collaborators σ} {horizon : Horizon} {w mid after : World σ} {r : RunEnd α}
  {first second noise : Trace}

theorem nil : Fated c horizon w [] r := by
  intro before t later x start call noise alarm
  exact alarm.not_nil.elim

theorem prepend {x : Trace} {start t : Nat} {call : Call} {later : Trace}
    (gains : w.Gains c first mid) (fate : Fate c mid.memory horizon x start call t later r) :
    Fate c w.memory horizon (first ++ x) start call t later r := by
  have same : c.recall w.memory (first ++ x).calls = c.recall mid.memory x.calls := by
    rw [Trace.calls_append, Collaborators.recall_append, gains.memory]
  cases fate with
  | abandoned times silent => exact .abandoned times silent
  | replied leads time settled =>
    rw [← same] at leads
    exact .replied leads time settled
  | unwatched overdue => exact .unwatched overdue

/-- Where the pass begins no call, none is under way. -/
theorem skip (gains : w.Gains c first mid) (quiet : w.Quiet first mid)
    (rest : Fated c horizon mid second r) : Fated c horizon w (first ++ second) r := by
  intro before t later x start call noise alarm pending may
  obtain ⟨x', mid', rfl, late, pending'⟩ := pending.skip quiet.began_notMem alarm
  rw [← quiet.signal] at late
  exact prepend gains (rest _ _ _ _ _ _ _ late pending' may)

/-- Before an alarm in the background the pass begins no call. -/
theorem quiet_before {s later : Stage} {sig : Signal} {t : Nat} {before rest : Trace}
    (background : s.Background noise.events later) (alarm : Alarm sig noise before t rest) :
    ∀ call, .began .pass call ∉ before.events := by
  intro call mem
  refine background.began_notMem call ?_
  rw [alarm.splits]
  simp [mem]

/-- A call that is replied to. -/
theorem answered {call : Call} {reply : Reply call.Answer}
    (gains : (w.begin c call).Gains c noise after)
    (background : w.stage.Background noise.events after.stage)
    (cut : w.Cut c horizon call noise after (some reply))
    (rest : Fated c horizon (after.record (.ended .pass call reply)) second r) :
    Fated c horizon w (⟨w.now, .began .pass call⟩ ::
      (noise ++ ([⟨after.now, .ended .pass call reply⟩] ++ second))) r := by
  intro before t later x start made noise' alarm pending may
  obtain ⟨b, rfl, waiting⟩ := alarm.of_cons (by simp)
  rcases waiting.of_append with ⟨b', rfl, ended⟩ | ⟨during, rfl, inside, _⟩
  · obtain ⟨b'', rfl, late⟩ := ended.of_cons (by simp)
    have both : Pending x start made noise' ((⟨w.now, .began .pass call⟩ :: noise) ++
        ([⟨after.now, .ended .pass call reply⟩] ++ b'')) := pending
    obtain ⟨x', rfl, pending'⟩ := both.past_ended
    have gained : w.Gains c ([⟨w.now, .began .pass call⟩] ++ (noise ++
        [⟨after.now, .ended .pass call reply⟩])) (after.record (.ended .pass call reply)) :=
      (World.gains_began c w .pass call).trans
        (gains.trans (World.gains_record c after (by simp)))
    have signal : (after.record (.ended .pass call reply)).signal =
      w.signal.after noise.events := background.signal
    have late' : Alarm (after.record (.ended .pass call reply)).signal second b'' t later := by
      rw [signal]
      exact late
    have fate := prepend gained (rest _ _ _ _ _ _ _ late' pending' may)
    simpa using fate
  · -- The call that is under way is this one.
    obtain ⟨rfl, rfl, rfl⟩ := pending.of_began (quiet_before background inside)
    obtain ⟨now, ending⟩ := cut may _ _ _ inside
    have silent : transcript (Trace.events during) = [] := by
      have all := background.transcript_eq_nil
      rw [inside.splits, Trace.events_append, transcript_append] at all
      exact (List.append_eq_nil_iff.mp all).2
    rw [now]
    cases ending with
    | abandoned times => exact .abandoned times silent
    | replied leads time settled => exact .replied leads time settled

/-- A call that is not replied to while the run is watched. -/
theorem unanswered {call : Call} {closing : Trace}
    (background : w.stage.Background noise.events after.stage)
    (cut : w.Cut c horizon call noise after none) (overdue : horizon.time ≤ after.now)
    (closes : ∀ e ∈ closing, e.time = after.now) :
    Fated c horizon w (⟨w.now, .began .pass call⟩ :: (noise ++ closing)) (.hung : RunEnd α) := by
  intro before t later x start made noise' alarm pending may
  obtain ⟨b, rfl, waiting⟩ := alarm.of_cons (by simp)
  rcases waiting.of_append with ⟨b', rfl, ending⟩ | ⟨during, rfl, inside, _⟩
  · have here := ending.time_eq closes
    exact .unwatched (by omega)
  · obtain ⟨rfl, rfl, rfl⟩ := pending.of_began (quiet_before background inside)
    obtain ⟨_, ending⟩ := cut may _ _ _ inside
    cases ending with
    | unwatched late => exact .unwatched late

end Fated

/-- What becomes of the calls under way in a run of a script. -/
theorem Script.run_fated (c : Collaborators σ) (horizon : Horizon) (script : Script α)
    (w : World σ) : ∃ new, w.Gains c new (script.run c horizon w).1 ∧
      Fated c horizon w new (script.run c horizon w).2 := by
  induction script generalizing w with
  | done exit => exact ⟨[], .refl c w, .nil⟩
  | note n next ih =>
    obtain ⟨rest, gains, fated⟩ := ih (w.record (.note n))
    have first := World.gains_record c w (e := .note n) (by simp)
    exact ⟨_, first.trans gains, fated.skip first (w.quiet_note n)⟩
  | checkpoint next ih => exact ih w.signal.raised w
  | startRenewal machines ttl interval next ih =>
    obtain ⟨_, first, gained, _⟩ := World.atOnce_startRenewal c w machines ttl interval
    obtain ⟨rest, gains, fated⟩ := ih (w.startRenewal machines ttl interval)
    exact ⟨_, gained.trans gains, fated.skip gained (World.quiet_startRenewal gained)⟩
  | stopRenewal next ih =>
    rw [run]
    split
    · obtain ⟨_, closing, gained, _⟩ := World.atOnce_dropRenewal c w
      have fated : Fated c horizon w (closing ++ []) (.hung : RunEnd α) :=
        Fated.nil.skip gained (World.quiet_dropRenewal gained)
      rw [List.append_nil] at fated
      exact ⟨closing, gained, fated⟩
    · obtain ⟨_, closing, gained, _⟩ := World.atOnce_stopRenewal c w
      obtain ⟨rest, gains, fated⟩ := ih w.stopRenewal
      exact ⟨_, gained.trans gains, fated.skip gained (World.quiet_stopRenewal gained)⟩
  | call made next ih =>
    by_cases may : w.stage.MayBegin made
    · obtain ⟨noise, after, reply, gains, background, cut, ending⟩ :=
        World.perform_cut c horizon may
      have began := World.gains_began c w .pass made
      rcases ending with ⟨answer, rfl, performed⟩ | ⟨rfl, late, performed⟩
      · obtain ⟨rest, gains', fated⟩ := ih answer (after.record (.ended .pass made answer))
        have ended := World.gains_record c after (e := .ended .pass made answer) (by simp)
        rw [run, performed]
        exact ⟨_, began.trans (gains.trans (ended.trans gains')),
          .answered gains background cut fated⟩
      · obtain ⟨_, closing, gained, times⟩ := World.atOnce_dropRenewal c after
        have fated : Fated c horizon w (⟨w.now, .began .pass made⟩ :: (noise ++ closing))
            (.hung : RunEnd α) := .unanswered background cut late times
        rw [run, performed]
        exact ⟨_, began.trans (gains.trans gained), fated⟩
    · rw [run, World.perform_refused c horizon may]
      exact ih .cancelled w

end Rollout
