import Rollout.Proofs.Session

/-!
# Renewal comes to rest

A loop that is told to stop, whose handle is dropped or that sees shutdown requested ends before any
time passes, in whatever order things happen, and a loop that has ended never acquires leases again.
Until then one renewal at most is under way. That the shutdown signal can not change any more is no
reason for the loop to end.
-/

namespace Rollout

variable {σ : Type}

def Event.beginsRenewal : Event → Bool
  | .began .renewal _ => true
  | _ => false

def Event.endsRenewal : Event → Bool
  | .ended .renewal _ _ => true
  | _ => false

/-- One renewal at most was under way at a time, and one is now or none. -/
structure OneAtATime (events : List Event) (aloft : Bool) : Prop where
  always : ∀ before later, events = before ++ later →
    before.countP Event.endsRenewal ≤ before.countP Event.beginsRenewal ∧
      before.countP Event.beginsRenewal ≤ before.countP Event.endsRenewal + 1
  now : events.countP Event.beginsRenewal = events.countP Event.endsRenewal + aloft.toNat

namespace OneAtATime

variable {events : List Event} {aloft : Bool}

theorem nil : OneAtATime [] false where
  always := by
    intro before later eq
    obtain ⟨rfl, _⟩ := List.append_eq_nil_iff.mp eq.symm
    simp
  now := rfl

theorem snoc {e : Event} {aloft' : Bool} (one : OneAtATime events aloft)
    (now : (events ++ [e]).countP Event.beginsRenewal =
      (events ++ [e]).countP Event.endsRenewal + aloft'.toNat) :
    OneAtATime (events ++ [e]) aloft' where
  always := by
    intro before later eq
    rcases List.eq_nil_or_concat later with rfl | ⟨later, last, rfl⟩
    · rw [List.append_nil] at eq
      rw [← eq, now]
      exact ⟨Nat.le_add_right _ _, Nat.add_le_add_left (Bool.toNat_le _) _⟩
    · rw [List.concat_eq_append, ← List.append_assoc] at eq
      exact one.always before later (List.append_inj_left' eq rfl)
  now := now

theorem other {e : Event} (one : OneAtATime events aloft) (begins : e.beginsRenewal = false)
    (ends : e.endsRenewal = false) : OneAtATime (events ++ [e]) aloft :=
  one.snoc (by simp [begins, ends, one.now])

theorem began {call : Call} (one : OneAtATime events false) :
    OneAtATime (events ++ [.began .renewal call]) true :=
  one.snoc (by simp [Event.beginsRenewal, Event.endsRenewal, one.now])

theorem ended {call : Call} {reply : Reply call.Answer} (one : OneAtATime events true) :
    OneAtATime (events ++ [.ended .renewal call reply]) false :=
  one.snoc (by simp [Event.beginsRenewal, Event.endsRenewal, one.now])

theorem logAll {w : World σ} (one : OneAtATime w.events aloft) (logs : List LogRecord) :
    OneAtATime (w.logAll logs).events aloft := by
  induction logs generalizing w with
  | nil => exact one
  | cons record rest ih =>
    refine ih (w := w.record (.renewalLog record)) ?_
    rw [World.events_record]
    exact one.other rfl rfl

theorem change {w : World σ} (one : OneAtATime w.events aloft) (change : SignalChange) :
    OneAtATime (w.change change).events aloft := by
  have told : (w.change change).events = w.events ++ [.signal change] :=
    World.events_record { w with signal := w.signal.change change } (.signal change)
  rw [told]
  exact one.other rfl rfl

theorem changeAll {w : World σ} (one : OneAtATime w.events aloft) (changes : List SignalChange) :
    OneAtATime (w.changeAll changes).events aloft := by
  induction changes generalizing w with
  | nil => exact one
  | cons change rest ih => exact ih (one.change change)

end OneAtATime

def Renewal.aloft (r : Renewal) : Bool :=
  match r.phase with
  | .inFlight .. => true
  | _ => false

namespace World

def aloft (w : World σ) : Bool := w.renewal.any Renewal.aloft

/-- The trace of a world fits what its loop does. -/
def Tidy (w : World σ) : Prop := OneAtATime w.events w.aloft

theorem Tidy.setRenewal {w : World σ} {r : Renewal × List LogRecord}
    (one : OneAtATime w.events r.1.aloft) : (w.setRenewal r).Tidy := by
  have aloft : (w.setRenewal r).aloft = r.1.aloft := by simp [World.aloft, World.setRenewal]
  rw [Tidy, aloft]
  have unseen : OneAtATime ({ w with renewal := some r.1 } : World σ).events r.1.aloft := one
  exact unseen.logAll r.2

theorem aloft_finish (r : Renewal) (reply : Reply Unit) : (r.finish reply).1.aloft = false := by
  cases reply <;> rfl

/-- A renewal goes on until it waits or ends. -/
theorem tidy_goOn {w : World σ} (r : Renewal) (reaction : Reaction Unit)
    (one : OneAtATime w.events true) : (w.goOn r reaction).Tidy := by
  have changed := one.changeAll reaction.settle.1
  simp only [goOn]
  cases reaction.settle.2 with
  | ended reply =>
    refine Tidy.setRenewal ?_
    rw [aloft_finish, events_record]
    exact changed.ended
  | asleep ms rest => exact Tidy.setRenewal changed
  | hung => exact Tidy.setRenewal changed

theorem tidy_fire {w : World σ} (c : Collaborators σ) {r : Renewal} (tidy : w.Tidy)
    (current : w.renewal = some r) : (w.fire c r).Tidy := by
  have aloft : w.aloft = r.aloft := by simp [World.aloft, current]
  rw [Tidy, aloft] at tidy
  cases phase : r.phase with
  | waiting =>
    rw [fire_of_waiting c w phase]
    refine tidy_goOn _ _ ?_
    have told : (w.asked c .renewal r.call).events = w.events ++ [.began .renewal r.call] :=
      events_record w _
    rw [told]
    rw [Renewal.aloft, phase] at tidy
    exact tidy.began
  | inFlight wake rest =>
    simp only [fire, phase]
    rw [Renewal.aloft, phase] at tidy
    exact tidy_goOn _ _ tidy
  | ended =>
    simp only [fire, phase, Tidy, aloft]
    exact tidy
  | crashed =>
    simp only [fire, phase, Tidy, aloft]
    exact tidy

theorem tidy_endRenewal {w : World σ} (tidy : w.Tidy) : w.endRenewal.Tidy := by
  cases current : w.renewal with
  | none => simpa only [endRenewal, current] using tidy
  | some r =>
    have aloft : w.aloft = r.aloft := by simp [World.aloft, current]
    cases phase : r.phase with
    | waiting =>
      simp only [endRenewal, current, phase]
      rw [Tidy, aloft, Renewal.aloft, phase] at tidy
      exact Tidy.setRenewal tidy
    | inFlight wake rest =>
      simp only [endRenewal, current, phase]
      rw [Tidy, aloft, Renewal.aloft, phase] at tidy
      refine Tidy.setRenewal ?_
      rw [events_record]
      exact tidy.ended
    | ended => simpa only [endRenewal, current, phase] using tidy
    | crashed => simpa only [endRenewal, current, phase] using tidy

theorem tidy_stopRenewal {w : World σ} (tidy : w.Tidy) : w.stopRenewal.Tidy := by
  cases current : w.renewal with
  | none => simpa only [stopRenewal, current] using tidy
  | some r =>
    have gone : w.endRenewal.aloft = false := by
      rw [World.aloft, endRenewal_renewal, current, Option.map_some, Option.any_some,
        Renewal.aloft, Renewal.closed]
      cases r.phase <;> rfl
    have ended : OneAtATime w.dropRenewal.events false := gone ▸ tidy_endRenewal tidy
    have none : w.stopRenewal.aloft = false := by
      rw [World.aloft, Session.stopRenewal_renewal, Option.any_none]
    rw [Tidy, none]
    simpa only [stopRenewal, current] using ended.logAll r.stopLog

theorem trace_logAll (w : World σ) (logs : List LogRecord) :
    (w.logAll logs).trace = w.trace ++ logs.map fun record => ⟨w.now, .renewalLog record⟩ := by
  induction logs generalizing w with
  | nil => simp [logAll]
  | cons record rest ih =>
    rw [logAll, ih, trace_record, List.append_assoc]
    rfl

end World

namespace Session

variable {c : Collaborators σ} {s later : Session σ}

/-- When the loop has ended only the wait for its end still goes on. -/
theorem Turn.of_gone (turn : s.Turn c later) (gone : s.live = false) :
    s.handle = .stopping ∧ later = ⟨s.world.stopRenewal, .stopped⟩ := by
  cases turn with
  | fired current due _ => exact absurd (live_of_due current due) (by simpa [live] using gone)
  | @missed w handle r _ current phase _ =>
    have due : r.due? = some (r.tickTime r.tick) := by rw [Renewal.due?, phase]
    exact absurd (live_of_due current due) (by simpa [live] using gone)
  | ended _ live => exact absurd live (by simpa [Session.live] using gone)
  | returned _ => exact ⟨rfl, rfl⟩

/-- The loop is over, and no renewal has begun since. -/
structure Silent (s later : Session σ) : Prop where
  gone : later.live = false
  none : ∃ new, later.world.trace = s.world.trace ++ new ∧
    ∀ call, .began .renewal call ∉ Trace.events new

theorem Silent.trans {first mid last : Session σ} (silent : first.Silent mid)
    (silent' : mid.Silent last) : first.Silent last := by
  obtain ⟨_, new, grown, none⟩ := silent
  obtain ⟨gone, new', grown', none'⟩ := silent'
  refine ⟨gone, new ++ new', by rw [grown', grown, List.append_assoc], fun call mem => ?_⟩
  rw [Trace.events_append] at mem
  exact (List.mem_append.mp mem).elim (none call) (none' call)

/-- Where nothing is told nothing has begun. -/
theorem silent_unseen (gone : later.live = false) (same : later.world.trace = s.world.trace) :
    s.Silent later :=
  ⟨gone, [], by rw [same, List.append_nil], fun _ mem => by cases mem⟩

theorem stopRenewal_not_live (w : World σ) : w.stopRenewal.renewalIsLive = false := by
  rw [World.renewalIsLive, stopRenewal_renewal, Option.any_none]

theorem silent_stopRenewal {w : World σ} {handle handle' : Handle}
    (gone : w.renewalIsLive = false) : Silent ⟨w, handle⟩ ⟨w.stopRenewal, handle'⟩ := by
  have ended : (⟨w.stopRenewal, handle'⟩ : Session σ).live = false := stopRenewal_not_live w
  cases current : w.renewal with
  | none => exact silent_unseen ended (by simp [World.stopRenewal, current])
  | some r =>
    have dropped : w.dropRenewal.trace = w.trace := by
      rw [World.dropRenewal, endRenewal_of_gone gone]
      rfl
    refine ⟨ended, r.stopLog.map fun record => ⟨w.now, .renewalLog record⟩, ?_, ?_⟩
    · simp only [World.stopRenewal, current]
      rw [World.trace_logAll, dropped, World.dropRenewal, World.endRenewal_now]
    · intro call mem
      simp [Trace.events] at mem

theorem Step.silent (step : s.Step c later) (gone : s.live = false) : s.Silent later := by
  cases step with
  | turn turn =>
    obtain ⟨_, rfl⟩ := turn.of_gone gone
    exact silent_stopRenewal gone
  | @change w handle change =>
    refine ⟨gone, _, (World.gains_change c w change).trace, fun call mem => ?_⟩
    simp [Trace.events] at mem
  | plan schedule => exact silent_unseen gone rfl
  | stop => exact silent_unseen gone rfl
  | drop => exact silent_unseen gone rfl
  | pass _ _ => exact silent_unseen gone rfl

/-- A loop that has ended never acquires again, whatever happens. -/
theorem Reaches.silent (reaches : s.Reaches c later) (gone : s.live = false) :
    s.Silent later := by
  induction reaches with
  | refl => exact silent_unseen gone rfl
  | tail _ step ih => exact ih.trans (step.silent ih.gone)

structure Sound (s : Session σ) : Prop where
  paced : s.world.Paced
  tidy : s.world.Tidy
  stopped : s.handle = .stopped → s.live = false

theorem Turn.sound (turn : s.Turn c later) (sound : s.Sound) : later.Sound where
  paced := (turn.work_lt sound.paced).2.2
  tidy := by
    cases turn with
    | fired current _ _ => exact World.tidy_fire c sound.tidy current
    | @missed w handle r _ current phase _ =>
      have tidy : w.Tidy := sound.tidy
      have none : w.aloft = false := by simp [World.aloft, current, Renewal.aloft, phase]
      rw [World.Tidy, none] at tidy
      exact World.Tidy.setRenewal tidy
    | ended _ _ => exact World.tidy_endRenewal sound.tidy
    | returned _ => exact World.tidy_stopRenewal sound.tidy
  stopped := by
    intro eq
    by_cases gone : s.live = false
    · obtain ⟨_, rfl⟩ := turn.of_gone gone
      exact stopRenewal_not_live s.world
    · cases turn with
      | returned ended => exact absurd ended gone
      | _ => exact absurd (sound.stopped eq) gone

theorem Step.sound (step : s.Step c later) (sound : s.Sound) : later.Sound := by
  cases step with
  | turn turn => exact turn.sound sound
  | @change w handle change =>
    exact ⟨sound.paced, sound.tidy.change change, sound.stopped⟩
  | plan schedule => exact ⟨sound.paced, sound.tidy, sound.stopped⟩
  | stop => exact ⟨sound.paced, sound.tidy, by rintro ⟨⟩⟩
  | drop => exact ⟨sound.paced, sound.tidy, by rintro ⟨⟩⟩
  | pass _ _ => exact ⟨sound.paced, sound.tidy, sound.stopped⟩

theorem Reaches.sound (reaches : s.Reaches c later) (sound : s.Sound) : later.Sound := by
  induction reaches with
  | refl => exact sound
  | tail _ step ih => exact step.sound ih

/-- An interval of zero is replaced, so the loop does not tick all the time. -/
theorem effectiveInterval_pos (ttl interval : Duration) :
    0 < (Renewal.effectiveInterval ttl interval).nanos := by
  rw [Renewal.effectiveInterval]
  split
  · simp only [Renewal.fallbackInterval, Duration.longer, Duration.ofSecs]
    omega
  · omega

theorem sound_start {w : World σ} (fresh : w.history = []) (machines : List MachineId)
    (ttl interval : Duration) : (start w machines ttl interval).Sound where
  paced := by
    intro r current
    simp only [start, World.startRenewal, World.setRenewal, World.logAll_renewal] at current
    cases current
    exact effectiveInterval_pos ttl interval
  tidy := by
    refine World.Tidy.setRenewal ?_
    have none : w.events = [] := by simp [World.events, World.trace, fresh, Trace.events]
    rw [none]
    exact .nil
  stopped := by rintro ⟨⟩

/-- A loop that is to end does not wait for anything. -/
theorem live_of_rests (rests : s.Rests c) (quits : s.quits = true) : s.live = false := by
  cases live : s.live with
  | false => rfl
  | true => exact absurd (.ended quits live) (rests _)

/-- Nor does whoever waits for its end. -/
theorem turn_of_stopping (handle : s.handle = .stopping) : ∃ next, s.Turn c next := by
  obtain ⟨w, _⟩ := s
  subst handle
  cases live : w.renewalIsLive with
  | true => exact ⟨_, .ended rfl live⟩
  | false => exact ⟨_, .returned live⟩

theorem Turn.handle_of_stopping (turn : s.Turn c later) (handle : s.handle = .stopping) :
    later.handle = .stopped ∨ later.handle = .stopping := by
  cases turn with
  | returned _ => exact .inl rfl
  | _ => exact .inr handle

/-- Whoever stops the loop goes on before time passes. -/
theorem inevitably_stopped (paced : s.world.Paced) (handle : s.handle = .stopping) :
    s.Inevitably c fun later => later.handle = .stopped ∧ later.world.now = s.world.now := by
  refine inevitably_of_progress (q := fun mid => mid.world.Paced ∧ mid.handle = .stopping ∧
    mid.world.now = s.world.now) (fun _ h => h.1) ?_ ?_ ?_ ⟨paced, handle, rfl⟩
  · rintro mid changes ⟨paced, handle, now⟩
    refine ⟨?_, handle, (World.changeAll_now _ _).trans now⟩
    rw [World.Paced, changed, World.renewal_changeAll]
    exact paced
  · rintro mid ⟨_, handle, _⟩
    exact .inr (turn_of_stopping handle)
  · rintro mid next ⟨paced, handle, now⟩ turn
    obtain ⟨same, _, paced'⟩ := turn.work_lt paced
    rcases turn.handle_of_stopping handle with stopped | stopping
    · exact .inl ⟨stopped, same.trans now⟩
    · exact .inr ⟨paced', stopping, same.trans now⟩

/-- All tasks come to rest before time passes. -/
theorem inevitably_rests (paced : s.world.Paced) :
    s.Inevitably c fun later => later.Rests c ∧ later.world.now = s.world.now := by
  refine inevitably_of_progress (q := fun mid => mid.world.Paced ∧ mid.world.now = s.world.now)
    (fun _ h => h.1) ?_ ?_ ?_ ⟨paced, rfl⟩
  · rintro mid changes ⟨paced, now⟩
    refine ⟨?_, (World.changeAll_now _ _).trans now⟩
    rw [World.Paced, changed, World.renewal_changeAll]
    exact paced
  · rintro mid ⟨_, now⟩
    by_cases rests : mid.Rests c
    · exact .inl ⟨rests, now⟩
    · exact .inr (by simpa [Rests] using rests)
  · rintro mid next ⟨paced, now⟩ turn
    obtain ⟨same, _, paced'⟩ := turn.work_lt paced
    exact .inr ⟨paced', same.trans now⟩

theorem Step.handle_of_stopped (step : s.Step c later) (handle : s.handle = .stopped) :
    later.handle = .stopped := by
  cases step with
  | turn turn =>
    cases turn with
    | returned _ => rfl
    | _ => exact handle
  | change _ => exact handle
  | plan _ => exact handle
  | stop => cases handle
  | drop => cases handle
  | pass _ _ => exact handle

theorem Step.now_of_stopping (step : s.Step c later) (paced : s.world.Paced)
    (handle : s.handle = .stopping) : later.handle = .stopped ∨
      later.handle = .stopping ∧ later.world.now = s.world.now := by
  cases step with
  | turn turn =>
    have now := (turn.work_lt paced).1
    exact (turn.handle_of_stopping handle).imp_right fun stopping => ⟨stopping, now⟩
  | change _ => exact .inr ⟨handle, rfl⟩
  | plan _ => exact .inr ⟨handle, rfl⟩
  | stop => cases handle
  | drop => cases handle
  | pass rests _ =>
    obtain ⟨next, turn⟩ := turn_of_stopping (c := c) handle
    exact absurd turn (rests next)

/-- No time passes while the loop is being stopped. -/
theorem Reaches.now_of_stopping (reaches : s.Reaches c later) (sound : s.Sound)
    (handle : s.handle = .stopping) : later.handle = .stopped ∨
      later.handle = .stopping ∧ later.world.now = s.world.now := by
  induction reaches with
  | refl => exact .inr ⟨handle, rfl⟩
  | tail before step ih =>
    rcases ih with stopped | ⟨stopping, now⟩
    · exact .inl (step.handle_of_stopped stopped)
    · have onward := step.now_of_stopping (Reaches.sound before sound).paced stopping
      exact onward.imp_right fun ⟨handle, same⟩ => ⟨handle, same.trans now⟩

/-- A renewal that does not go on by now is abandoned. -/
theorem Turn.abandons {r : Renewal} {wake : Option Nat} {rest : Reaction Unit}
    (turn : s.Turn c later) (current : s.world.renewal = some r)
    (flies : r.phase = .inFlight wake rest)
    (waits : ∀ time, wake = some time → s.world.now < time) :
    later.live = false ∧ later.world.events = s.world.events ++
      .ended .renewal r.call .cancelled :: (r.finish .cancelled).2.map .renewalLog := by
  cases turn with
  | @fired w handle r' time current' due here =>
    obtain rfl : r' = r := Option.some.inj (current'.symm.trans current)
    rw [Renewal.due?, flies] at due
    have := waits time due
    dsimp only at this
    omega
  | missed _ current' phase _ =>
    obtain rfl := Option.some.inj (current'.symm.trans current)
    rw [flies] at phase
    cases phase
  | @ended w handle _ _ =>
    refine ⟨endRenewal_not_live w, ?_⟩
    have ends : w.endRenewal =
        (w.record (.ended .renewal r.call .cancelled)).setRenewal (r.finish .cancelled) := by
      rw [World.endRenewal, show w.renewal = some r from current]
      simp only [flies]
    dsimp only
    rw [ends, World.setRenewal, World.events, World.trace_logAll]
    simp [World.events, World.trace, World.record, Trace.events]
  | @returned w gone =>
    rw [World.renewalIsLive, show w.renewal = some r from current, Option.any_some,
      Renewal.isLive, flies] at gone
    cases gone

/-- The loop goes on, unless a panic has brought it down. -/
def Unended (s : Session σ) : Prop :=
  s.live = true ∨ ∃ call text, .ended .renewal call (.panicked text) ∈ s.world.events

end Session

theorem Signal.after_of_detached {s : Signal} (detached : s.detached = true)
    (events : List Event) : s.after events = s := by
  obtain ⟨raised, _⟩ := s
  subst detached
  induction events with
  | nil => rfl
  | cons e rest ih =>
    have same : see ⟨raised, true⟩ e = ⟨raised, true⟩ := by
      rcases e with _ | _ | _ | _ | change
      · rfl
      · rfl
      · rfl
      · rfl
      · cases change <;> rfl
    rw [after_cons, same, ih]

theorem Reaction.settle_ne_cancelled {α : Type} (reaction : Reaction α) :
    reaction.settle.2 ≠ .ended .cancelled := by
  induction reaction with
  | sleep ms next ih =>
    cases ms with
    | zero => exact ih
    | succ ms => rintro ⟨⟩
  | signal change next ih => exact ih
  | _ => rintro ⟨⟩

namespace World

/-- A renewal that goes on ends the loop by a panic only. -/
theorem goOn_unended (w : World σ) (r : Renewal) (reaction : Reaction Unit) :
    (w.goOn r reaction).renewalIsLive = true ∨
      ∃ call text, .ended .renewal call (.panicked text) ∈ (w.goOn r reaction).events := by
  have never := reaction.settle_ne_cancelled
  rw [renewalIsLive, goOn_renewal, Option.any_some]
  simp only [goOn]
  cases halts : reaction.settle.2 with
  | ended reply =>
    cases reply with
    | ok answer => exact .inl rfl
    | failed failure => exact .inl rfl
    | cancelled => exact absurd halts never
    | panicked text =>
      refine .inr ⟨r.call, text, ?_⟩
      change _ ∈ ((w.changeAll reaction.settle.1).record (.ended .renewal r.call _)).events
      rw [events_record]
      exact List.mem_append_right _ (List.mem_singleton_self _)
  | asleep ms rest => exact .inl rfl
  | hung => exact .inl rfl

theorem fire_unended {w : World σ} {r : Renewal} {time : Nat} (c : Collaborators σ)
    (due : r.due? = some time) : (w.fire c r).renewalIsLive = true ∨
      ∃ call text, .ended .renewal call (.panicked text) ∈ (w.fire c r).events := by
  cases phase : r.phase with
  | waiting =>
    rw [fire_of_waiting c w phase]
    exact goOn_unended _ _ _
  | inFlight wake rest =>
    simp only [fire, phase]
    exact goOn_unended _ _ _
  | ended => simp [Renewal.due?, phase] at due
  | crashed => simp [Renewal.due?, phase] at due

/-- What the loop does leaves a signal alone that can not change. -/
theorem fire_signal {w : World σ} {r : Renewal} (c : Collaborators σ)
    (current : w.renewal = some r) (detached : w.signal.detached = true) :
    (w.fire c r).signal = w.signal := by
  obtain ⟨events, _, background⟩ := drifts_fire c (w := w) (r := r) (by rw [current]; rfl)
  have signal : (w.fire c r).signal = w.signal.after events := background.signal
  rw [signal, Signal.after_of_detached detached]

end World

namespace Session

variable {c : Collaborators σ} {s later : Session σ}

theorem Unended.of_append {new : List Event} (unended : s.Unended) (live : later.live = s.live)
    (grown : later.world.events = s.world.events ++ new) : later.Unended := by
  rcases unended with lives | ⟨call, text, mem⟩
  · exact .inl (live.trans lives)
  · refine .inr ⟨call, text, ?_⟩
    rw [grown]
    exact List.mem_append_left _ mem

/-- A loop that is held, with a signal that is down for good, goes on. -/
theorem Step.unended (step : s.Step c later)
    (before : s.handle = .held → s.world.signal = ⟨false, true⟩ ∧ s.Unended)
    (held : later.handle = .held) : later.world.signal = ⟨false, true⟩ ∧ later.Unended := by
  cases step with
  | turn turn =>
    cases turn with
    | fired current due _ =>
      obtain ⟨signal, _⟩ := before held
      have detached := congrArg Signal.detached signal
      exact ⟨(World.fire_signal c current detached).trans signal, World.fire_unended c due⟩
    | missed quits _ _ _ =>
      obtain ⟨signal, _⟩ := before held
      dsimp only at held signal
      simp [Session.quits, held, signal, Signal.isReady] at quits
    | ended quits _ =>
      obtain ⟨signal, _⟩ := before held
      dsimp only at held signal
      simp [Session.quits, held, signal, Signal.isReady] at quits
    | returned _ => cases held
  | @change w handle change =>
    obtain ⟨signal, unended⟩ := before held
    refine ⟨?_, unended.of_append rfl
      (World.events_record { w with signal := w.signal.change change } (.signal change))⟩
    change w.signal.change change = _
    rw [show w.signal = ⟨false, true⟩ from signal]
    cases change <;> rfl
  | plan _ => exact before held
  | stop => cases held
  | drop => cases held
  | pass _ _ => exact before held

theorem Reaches.unended (reaches : s.Reaches c later)
    (before : s.handle = .held → s.world.signal = ⟨false, true⟩ ∧ s.Unended) :
    later.handle = .held → later.world.signal = ⟨false, true⟩ ∧ later.Unended := by
  induction reaches with
  | refl => exact before
  | tail _ step ih => exact step.unended ih

end Session

/-- How a renewal loop comes to rest, in whatever order things happen. -/
structure Quiescence (c : Collaborators σ) (start : Session σ) : Prop where
  /-- One renewal at most is under way at any time. -/
  one_at_a_time : ∀ s, start.Reaches c s → ∀ before later, s.world.events = before ++ later →
    before.countP Event.endsRenewal ≤ before.countP Event.beginsRenewal ∧
      before.countP Event.beginsRenewal ≤ before.countP Event.endsRenewal + 1
  /-- A loop that has ended never acquires again, whatever becomes of the signal. -/
  silent : ∀ s later, start.Reaches c s → s.live = false → s.Reaches c later → s.Silent later
  /-- Whoever stops the loop goes on at the same time, in whatever order tasks take turns and
  however the signal changes meanwhile, -/
  stops : ∀ s, start.Reaches c s → s.handle = .stopping →
    s.Inevitably c fun later => later.handle = .stopped ∧ later.world.now = s.world.now
  /-- no time passes before, -/
  at_once : ∀ s later, start.Reaches c s → s.handle = .stopping → s.Reaches c later →
    later.handle = .stopped ∨ later.handle = .stopping ∧ later.world.now = s.world.now
  /-- and the loop has ended then. -/
  stopped : ∀ s, start.Reaches c s → s.handle = .stopped → s.live = false
  /-- All tasks come to rest at the same time, -/
  rests : ∀ s, start.Reaches c s →
    s.Inevitably c fun later => later.Rests c ∧ later.world.now = s.world.now
  /-- and if the handle was dropped or used, or shutdown is requested, the loop has ended then. -/
  ends : ∀ s, start.Reaches c s → s.quits = true → s.Rests c → s.live = false
  /-- A renewal that never goes on, or not by now, is abandoned as the loop ends. -/
  abandons : ∀ s later r wake rest, start.Reaches c s → s.Turn c later →
    s.world.renewal = some r → r.phase = .inFlight wake rest →
    (∀ time, wake = some time → s.world.now < time) →
      later.live = false ∧ later.world.events = s.world.events ++
        .ended .renewal r.call .cancelled :: (r.finish .cancelled).2.map .renewalLog
  /-- That nobody can request shutdown any more does not end the loop. -/
  detached : ∀ s later, start.Reaches c s → s.handle = .held → s.live = true →
    s.world.signal.raised = false →
    Session.Reaches c ⟨s.world.change .detach, .held⟩ later → later.handle = .held → later.Unended
  /-- Whatever a program does to its loop is among what may happen. -/
  program : ∀ w, start.Reaches c ⟨w, .held⟩ →
    Session.Reaches c ⟨w, .held⟩ ⟨w.stopRenewal, .stopped⟩ ∧
    Session.Reaches c ⟨w, .held⟩ ⟨w.endRenewal, .dropped⟩ ∧
    ∀ limit later, w.step c limit = some later → Session.Reaches c ⟨w, .held⟩ ⟨later, .held⟩

/-- Every renewal loop comes to rest, whatever collaborators do. -/
theorem Session.start_quiescence (c : Collaborators σ) (now : Nat) (signal : Signal)
    (schedule : List (Nat × SignalChange)) (memory : σ) (machines : List MachineId)
    (ttl interval : Duration) :
    Quiescence c (.start { now, signal, schedule, memory } machines ttl interval) := by
  have sound : ∀ s, Reaches c (.start { now, signal, schedule, memory } machines ttl interval) s →
      s.Sound := fun s reaches => reaches.sound (sound_start rfl machines ttl interval)
  exact {
    one_at_a_time := fun s reaches => (sound s reaches).tidy.always
    silent := fun s later _ gone onward => onward.silent gone
    stops := fun s reaches handle => inevitably_stopped (sound s reaches).paced handle
    at_once := fun s later reaches handle onward => onward.now_of_stopping (sound s reaches) handle
    stopped := fun s reaches => (sound s reaches).stopped
    rests := fun s reaches => inevitably_rests (sound s reaches).paced
    ends := fun s _ quits rests => live_of_rests rests quits
    abandons := fun s later r wake rest _ turn current flies waits =>
      turn.abandons current flies waits
    detached := by
      intro s later _ _ live down onward held
      refine (onward.unended (fun _ => ⟨?_, .inl live⟩) held).2
      change (⟨s.world.signal.raised, true⟩ : Signal) = _
      rw [down]
    program := fun w _ => ⟨reaches_stopRenewal c w, reaches_endRenewal c w,
      fun limit later stepped => reaches_step stepped⟩ }

end Rollout
