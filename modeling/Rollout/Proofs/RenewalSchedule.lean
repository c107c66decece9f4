import Rollout.Proofs.LeaseCover
import Rollout.Proofs.Quiescence
import Rollout.Proofs.Timetable

/-!
# Renewals keep to the timetable

As long as nothing stops it a renewal loop does what its timetable says, renewal by renewal: each
begins at its time to the millisecond, none is skipped, and what is logged is right about how many
have failed in a row. This holds in whatever order things happen around the loop. One step of a
session at a time is shown to stay on the timetable, and from it every session that can be reached.
-/

namespace Rollout

variable {σ : Type}

def Event.isLoops : Event → Bool
  | .began .renewal _ => true
  | .ended .renewal _ _ => true
  | .renewalLog _ => true
  | _ => false

theorem Event.isLoops_of_beginsRenewal {e : Event} (begins : e.beginsRenewal = true) :
    e.isLoops = true := by
  unfold beginsRenewal at begins
  split at begins
  · rfl
  · cases begins

namespace Trace

def ofLoop (t : Trace) : Trace := t.filter (·.event.isLoops)

def renewals (t : Trace) : Nat := t.events.countP Event.beginsRenewal

@[simp] theorem ofLoop_append (first second : Trace) :
    ofLoop (first ++ second) = first.ofLoop ++ second.ofLoop := List.filter_append ..

@[simp] theorem renewals_append (first second : Trace) :
    renewals (first ++ second) = first.renewals + second.renewals := by
  rw [renewals, events_append, List.countP_append]
  rfl

theorem renewals_ofLoop (t : Trace) : t.ofLoop.renewals = t.renewals := by
  rw [renewals, renewals, events, events, List.countP_map, List.countP_map, ofLoop,
    List.countP_filter]
  refine List.countP_congr fun e _ => ?_
  rw [Bool.and_eq_true, and_iff_left_iff_imp]
  exact Event.isLoops_of_beginsRenewal

theorem ofLoop_logs (time : Nat) (logs : List LogRecord) :
    ofLoop (logs.map fun record => ⟨time, .renewalLog record⟩) =
      logs.map fun record => ⟨time, .renewalLog record⟩ := by
  refine List.filter_eq_self.mpr fun e mem => ?_
  obtain ⟨record, _, rfl⟩ := List.mem_map.mp mem
  rfl

theorem renewals_logs (time : Nat) (logs : List LogRecord) :
    renewals (logs.map fun record => ⟨time, .renewalLog record⟩) = 0 := by
  refine List.countP_eq_zero.mpr fun e mem => ?_
  obtain ⟨timed, among, rfl⟩ := List.mem_map.mp mem
  obtain ⟨record, _, rfl⟩ := List.mem_map.mp among
  simp [Event.beginsRenewal]

end Trace

namespace World

theorem ofLoop_changeAll (w : World σ) (changes : List SignalChange) :
    (w.changeAll changes).trace.ofLoop = w.trace.ofLoop := by
  induction changes generalizing w with
  | nil => rfl
  | cons change rest ih =>
    have told : (w.change change).trace = w.trace ++ [⟨w.now, .signal change⟩] :=
      trace_record { w with signal := w.signal.change change } (.signal change)
    rw [changeAll, ih, told, Trace.ofLoop_append]
    exact List.append_nil _

theorem ofLoop_setRenewal (w : World σ) (r : Renewal × List LogRecord) :
    (w.setRenewal r).trace.ofLoop =
      w.trace.ofLoop ++ r.2.map fun record => ⟨w.now, .renewalLog record⟩ := by
  rw [setRenewal, trace_logAll, Trace.ofLoop_append, Trace.ofLoop_logs]
  rfl

end World

namespace Renewal

variable (r : Renewal) (outcome : Nat → RenewalOutcome)

/-- What the `k`-th renewal leaves in a trace. -/
def entry (k : Nat) : Trace :=
  [⟨r.begins outcome k, .began .renewal r.call⟩,
    ⟨r.completes outcome k, .ended .renewal r.call (outcome k).reply⟩,
    ⟨r.completes outcome k, .renewalLog (r.report outcome k)⟩]

def diary (n : Nat) : Trace := (List.range n).flatMap fun k => r.entry outcome (k + 1)

/-- What the next renewal leaves while it is under way. -/
def underWay (n : Nat) (aloft : Bool) : Trace :=
  if aloft then [⟨r.begins outcome (n + 1), .began .renewal r.call⟩] else []

/-- Every renewal in a trace has its outcome, whatever else the collaborators do meanwhile. -/
def Meets (c : Collaborators σ) (memory : σ) (t : Trace) : Prop :=
  ∀ before start later, t = before ++ ⟨start, .began .renewal r.call⟩ :: later →
    (c.react (c.recall memory (Trace.calls before)) start r.call).2.Leads
      (outcome (before.renewals + 1)).takes (outcome (before.renewals + 1)).final

variable {r outcome}

theorem diary_succ (n : Nat) :
    r.diary outcome (n + 1) = r.diary outcome n ++ r.entry outcome (n + 1) := by
  rw [diary, diary, List.range_succ, List.flatMap_append]
  exact congrArg (_ ++ ·) (List.append_nil _)

theorem renewals_diary (n : Nat) : (r.diary outcome n).renewals = n := by
  induction n with
  | zero => rfl
  | succ n ih =>
    rw [diary_succ, Trace.renewals_append, ih]
    rfl

theorem renewals_underWay (n : Nat) (aloft : Bool) :
    (r.underWay outcome n aloft).renewals = aloft.toNat := by
  cases aloft <;> rfl

theorem Meets.of_append {c : Collaborators σ} {memory : σ} {first second : Trace}
    (meets : r.Meets outcome c memory (first ++ second)) : r.Meets outcome c memory first :=
  fun before start later eq => meets before start (later ++ second) (by simp [eq])

end Renewal

/-- Where a loop stands when `n` of its renewals are over, and whether another is under way. -/
inductive Stands (r : Renewal) (outcome : Nat → RenewalOutcome) (n now : Nat) :
    Renewal → Bool → Prop
  | waiting : r.completes outcome n ≤ now → now ≤ r.begins outcome (n + 1) →
    Stands r outcome n now
      { r with tick := n + 1, failures := streak outcome n, phase := .waiting } false
  | inFlight {wake d : Nat} {rest : Reaction Unit} :
    rest.Leads d (outcome (n + 1)).final → wake + d = r.completes outcome (n + 1) →
    r.begins outcome (n + 1) ≤ now → now ≤ wake →
    Stands r outcome n now
      { r with
        tick := n + 2
        failures := streak outcome n
        phase := .inFlight (some wake) rest } true

namespace Stands

variable {r loop : Renewal} {outcome : Nat → RenewalOutcome} {n now : Nat} {aloft : Bool}

theorem isLive (stands : Stands r outcome n now loop aloft) : loop.isLive = true := by
  cases stands <;> rfl

/-- The renewals that are over or under way had their time, -/
theorem begun_le (stands : Stands r outcome n now loop aloft) {k : Nat} (positive : 0 < k)
    (begun : k ≤ n + aloft.toNat) : r.begins outcome k ≤ now := by
  cases stands with
  | waiting ended soon =>
    have own : r.begins outcome k ≤ r.completes outcome k := Renewal.begins_le_completes positive
    have last : r.completes outcome k ≤ r.completes outcome n := Renewal.completes_mono begun
    omega
  | inFlight leads done began soon =>
    have last : r.begins outcome k ≤ r.begins outcome (n + 1) := Renewal.begins_mono begun
    omega

/-- and the time of the next one has not passed. -/
theorem le_begins (stands : Stands r outcome n now loop aloft) :
    now ≤ r.begins outcome (n + aloft.toNat + 1) := by
  cases stands with
  | waiting ended soon => exact soon
  | inFlight leads done began soon =>
    have after : r.completes outcome (n + 1) ≤ r.begins outcome (n + 2) := Nat.le_max_right _ _
    exact Nat.le_trans (by omega) after

/-- Nor has the time at which the one under way is over. -/
theorem le_completes (stands : Stands r outcome n now loop aloft) :
    now ≤ r.completes outcome (n + 1) := by
  cases stands with
  | waiting ended soon => exact Nat.le_trans soon (Renewal.begins_le_completes (Nat.succ_pos n))
  | inFlight leads done began soon => omega

/-- When the next renewal is to begin the loop is due, -/
theorem due_of_begins (stands : Stands r outcome n now loop aloft)
    (come : r.begins outcome (n + aloft.toNat + 1) ≤ now) :
    ∃ due, loop.due? = some due ∧ due ≤ now := by
  cases stands with
  | waiting ended soon => exact ⟨_, rfl, Nat.le_trans (Nat.le_max_left _ _) come⟩
  | @inFlight wake d rest leads done began soon =>
    have after : r.completes outcome (n + 1) ≤ r.begins outcome (n + 2) := Nat.le_max_right _ _
    have come : r.begins outcome (n + 2) ≤ now := come
    exact ⟨wake, rfl, by omega⟩

/-- and when one is to be over. -/
theorem due_of_completes (stands : Stands r outcome n now loop aloft)
    (come : r.completes outcome (n + 1) ≤ now) : ∃ due, loop.due? = some due ∧ due ≤ now := by
  cases stands with
  | waiting ended soon =>
    have began : r.begins outcome (n + 1) ≤ r.completes outcome (n + 1) :=
      Renewal.begins_le_completes (Nat.succ_pos n)
    exact ⟨_, rfl, Nat.le_trans (Nat.le_max_left _ _) (Nat.le_trans began come)⟩
  | @inFlight wake d rest leads done began soon => exact ⟨wake, rfl, by omega⟩

end Stands

namespace World

/-- The loop of a world is on its timetable after what was told at its start. -/
structure OnTimetable (c : Collaborators σ) (signal : Signal) (memory : σ) (r : Renewal)
    (opening : List LogRecord) (outcome : Nat → RenewalOutcome) (w : World σ) (n : Nat)
    (aloft : Bool) : Prop where
  tracks : w.Tracks c signal memory
  stands : ∃ loop, w.renewal = some loop ∧ Stands r outcome n w.now loop aloft
  told : w.trace.ofLoop = (opening.map fun record => ⟨r.start, .renewalLog record⟩) ++
    r.diary outcome n ++ r.underWay outcome n aloft

section

variable {c : Collaborators σ} {signal : Signal} {memory : σ} {r loop : Renewal}
  {opening : List LogRecord} {outcome : Nat → RenewalOutcome} {w later : World σ} {n : Nat}
  {aloft : Bool} {new : Trace}

theorem OnTimetable.renewals_eq
    (on : w.OnTimetable c signal memory r opening outcome n aloft) :
    w.trace.renewals = n + aloft.toNat := by
  rw [← Trace.renewals_ofLoop, on.told, Trace.renewals_append, Trace.renewals_append,
    Trace.renewals_logs, Renewal.renewals_diary, Renewal.renewals_underWay, Nat.zero_add]

/-- The loop counts the failures in a row, and logs what there is to report. -/
theorem finish_reply {phase : RenewalPhase}
    (eq : loop = { r with tick := n + 2, failures := streak outcome n, phase }) :
    loop.finish (outcome (n + 1)).reply =
      ({ r with tick := n + 2, failures := streak outcome (n + 1), phase := .waiting },
        [r.report outcome (n + 1)]) := by
  subst eq
  rw [RenewalOutcome.reply, Renewal.report]
  cases failure : (outcome (n + 1)).failure with
  | none => simp [Renewal.finish, streak, RenewalOutcome.failed, failure]
  | some failure => simp [Renewal.finish, streak, RenewalOutcome.failed, failure]

/-- A renewal goes on that will be over in time. -/
theorem onTimetable_goOn {d : Nat} {reaction : Reaction Unit} {phase : RenewalPhase}
    (eq : loop = { r with tick := n + 2, failures := streak outcome n, phase })
    (tracks : (w.goOn loop reaction).Tracks c signal memory)
    (told : w.trace.ofLoop = (opening.map fun record => ⟨r.start, .renewalLog record⟩) ++
      r.diary outcome n ++ r.underWay outcome n true)
    (leads : reaction.Leads d (outcome (n + 1)).final)
    (done : w.now + d = r.completes outcome (n + 1))
    (begun : r.begins outcome (n + 1) ≤ w.now) :
    ∃ n' aloft',
      (w.goOn loop reaction).OnTimetable c signal memory r opening outcome n' aloft' := by
  have renewal : (w.goOn loop reaction).renewal = some (loop.land w.now reaction.settle.2) :=
    goOn_renewal w loop reaction
  have now : (w.goOn loop reaction).now = w.now := goOn_now w loop reaction
  rcases leads.settle (outcome (n + 1)).settle_final with
    ⟨rfl, halts⟩ | ⟨ms, more, rest, halts, leads', rfl⟩
  · have ended : r.completes outcome (n + 1) = w.now := done.symm
    have next : w.now ≤ r.begins outcome (n + 2) := by
      rw [← ended]
      exact Nat.le_max_right _ _
    refine ⟨n + 1, false, tracks, ⟨_, renewal, ?_⟩, ?_⟩
    · rw [now, halts, Renewal.land, finish_reply eq]
      exact .waiting (Nat.le_of_eq ended) next
    · simp only [goOn, halts]
      rw [ofLoop_setRenewal, trace_record, Trace.ofLoop_append, ofLoop_changeAll, told,
        Renewal.diary_succ, finish_reply eq]
      subst eq
      simp [Renewal.entry, Renewal.underWay, Trace.ofLoop, Event.isLoops, record, ended]
  · refine ⟨n, true, tracks, ⟨_, renewal, ?_⟩, ?_⟩
    · rw [now, halts, Renewal.land, eq]
      exact .inFlight leads' (by omega) begun (by omega)
    · simp only [goOn, halts]
      rw [ofLoop_setRenewal, ofLoop_changeAll, told]
      exact List.append_nil _

/-- The loop does what it is due to do: it begins the next renewal, or lets the one under way go
on. -/
theorem OnTimetable.fire {time : Nat}
    (on : w.OnTimetable c signal memory r opening outcome n aloft) (current : w.renewal = some loop)
    (due : loop.due? = some time) (here : time ≤ w.now)
    (meets : r.Meets outcome c memory (w.fire c loop).trace) :
    ∃ n' aloft', (w.fire c loop).OnTimetable c signal memory r opening outcome n' aloft' := by
  have tracks : (w.fire c loop).Tracks c signal memory := by
    obtain ⟨new, gains, _⟩ := (atOnce_fire c w loop).gains
    exact on.tracks.of_drifts gains (drifts_fire c (by rw [current]; rfl))
  obtain ⟨loop', current', stands⟩ := on.stands
  obtain rfl : loop' = loop := Option.some.inj (current'.symm.trans current)
  cases stands with
  | waiting ended soon =>
    have ticked : r.tickTime (n + 1) ≤ w.now := Option.some.inj due ▸ here
    -- The tick has come and the last renewal is over, so this is when the next one begins.
    have begins : r.begins outcome (n + 1) = w.now :=
      Nat.le_antisymm (Nat.max_le.mpr ⟨ticked, ended⟩) soon
    rw [fire_of_waiting c w rfl] at tracks meets ⊢
    obtain ⟨more, gains, _⟩ := (atOnce_goOn c (w.asked c .renewal r.call) _
      (c.react w.memory w.now r.call).2).gains
    have leads := meets w.trace w.now more (by
      rw [gains.trace, asked_trace, List.append_assoc]
      rfl)
    rw [on.renewals_eq, ← on.tracks.memory] at leads
    refine onTimetable_goOn rfl tracks ?_ leads ?_ (Nat.le_of_eq begins)
    · rw [asked_trace, Trace.ofLoop_append, on.told, Renewal.underWay, Renewal.underWay, begins]
      simp [Trace.ofLoop, Event.isLoops]
    · rw [Renewal.completes_succ, begins]
      rfl
  | @inFlight wake d rest leads done begun soon =>
    obtain rfl : wake = time := Option.some.inj due
    exact onTimetable_goOn rfl tracks on.told leads (by omega) begun

/-- Nothing but the loop moves the loop. -/
theorem OnTimetable.change (on : w.OnTimetable c signal memory r opening outcome n aloft)
    (change : SignalChange) :
    (w.change change).OnTimetable c signal memory r opening outcome n aloft where
  tracks := on.tracks.of_drifts (gains_change c w change) (drifts_change w change)
  stands := on.stands
  told := (ofLoop_changeAll w [change]).trans on.told

theorem OnTimetable.reschedule (on : w.OnTimetable c signal memory r opening outcome n aloft)
    (schedule : List (Nat × SignalChange)) :
    ({ w with schedule } : World σ).OnTimetable c signal memory r opening outcome n aloft :=
  ⟨⟨on.tracks.memory, on.tracks.signal⟩, on.stands, on.told⟩

/-- Time may pass until the loop is due. -/
theorem OnTimetable.moveTo {time : Nat}
    (on : w.OnTimetable c signal memory r opening outcome n aloft)
    (early : ∀ due, w.renewalDue? = some due → time ≤ due) :
    (w.moveTo time).OnTimetable c signal memory r opening outcome n aloft := by
  obtain ⟨tracks, ⟨loop, current, stands⟩, told⟩ := on
  refine ⟨⟨tracks.memory, tracks.signal⟩, ⟨loop, current, ?_⟩, told⟩
  have due := early
  rw [renewalDue?, current, Option.bind_some] at due
  have now : (w.moveTo time).now = max w.now time := rfl
  cases stands with
  | waiting ended soon =>
    have ticks : time ≤ r.tickTime (n + 1) := due _ rfl
    have begins : r.tickTime (n + 1) ≤ r.begins outcome (n + 1) := Nat.le_max_left _ _
    exact .waiting (by omega) (by omega)
  | inFlight leads done begun soon =>
    have wakes := due _ rfl
    exact .inFlight leads done (by omega) (by omega)

/-- A loop that has just been started is on its timetable. -/
theorem onTimetable_start (c : Collaborators σ) (now : Nat) (signal : Signal)
    (schedule : List (Nat × SignalChange)) (memory : σ) (machines : List MachineId)
    (ttl interval : Duration) (outcome : Nat → RenewalOutcome) :
    (World.startRenewal { now, signal, schedule, memory } machines ttl interval).OnTimetable c
      signal memory (Renewal.begin now machines ttl interval).1
      (Renewal.begin now machines ttl interval).2 outcome 0 false := by
  let fresh : World σ := { now, signal, schedule, memory }
  have tracks : fresh.Tracks c signal memory := ⟨rfl, rfl⟩
  obtain ⟨started, new, gains, _⟩ := atOnce_startRenewal c fresh machines ttl interval
  refine ⟨tracks.of_gains gains (quiet_startRenewal gains).signal, ⟨_, logAll_renewal _ _, ?_⟩, ?_⟩
  · rw [started]
    exact .waiting (Nat.le_refl _) (Nat.le_max_right _ _)
  · rw [startRenewal, ofLoop_setRenewal]
    exact ((List.append_nil _).trans (List.append_nil _)).symm

end

end World

namespace Session

/-- Nothing has stopped the loop of a session, and its renewals have had their outcomes. -/
structure Undisturbed (s : Session σ) (c : Collaborators σ) (signal : Signal) (memory : σ)
    (r : Renewal) (outcome : Nat → RenewalOutcome) : Prop where
  held : s.handle = .held
  down : signal.StaysDown s.world.events
  meets : r.Meets outcome c memory s.world.trace

variable {c : Collaborators σ} {signal : Signal} {memory : σ} {r : Renewal}
  {opening : List LogRecord} {outcome : Nat → RenewalOutcome} {s later : Session σ} {n : Nat}
  {aloft : Bool}

theorem Step.gains (step : s.Step c later) : ∃ new, s.world.Gains c new later.world := by
  cases step with
  | turn turn =>
    cases turn with
    | fired _ _ _ =>
      obtain ⟨new, gains, _⟩ := (World.atOnce_fire c _ _).gains
      exact ⟨new, gains⟩
    | missed _ _ _ _ =>
      obtain ⟨new, gains, _⟩ := (World.atOnce_setRenewal c _ _).gains
      exact ⟨new, gains⟩
    | ended _ _ =>
      obtain ⟨new, gains, _⟩ := (World.atOnce_endRenewal c _).gains
      exact ⟨new, gains⟩
    | returned _ =>
      obtain ⟨new, gains, _⟩ := (World.atOnce_stopRenewal c _).gains
      exact ⟨new, gains⟩
  | change change => exact ⟨_, World.gains_change c _ change⟩
  | plan schedule => exact ⟨[], (List.append_nil _).symm, rfl⟩
  | stop => exact ⟨[], .refl c _⟩
  | drop => exact ⟨[], .refl c _⟩
  | pass _ _ => exact ⟨[], World.gains_moveTo c _ _⟩

/-- A handle that was used or dropped is never held again. -/
theorem Step.held (step : s.Step c later) (held : later.handle = .held) : s.handle = .held := by
  cases step with
  | turn turn =>
    cases turn with
    | returned _ => cases held
    | _ => exact held
  | stop => cases held
  | drop => cases held
  | _ => exact held

theorem Undisturbed.before (calm : later.Undisturbed c signal memory r outcome)
    (step : s.Step c later) : s.Undisturbed c signal memory r outcome := by
  obtain ⟨new, gains⟩ := step.gains
  obtain ⟨held, down, meets⟩ := calm
  rw [World.events, gains.trace, Trace.events_append] at down
  rw [gains.trace] at meets
  exact ⟨step.held held, (Signal.staysDown_append.mp down).1, meets.of_append⟩

/-- Each step of a session that nothing stops stays on the timetable. -/
theorem Step.onTimetable (step : s.Step c later)
    (on : s.world.OnTimetable c signal memory r opening outcome n aloft)
    (calm : later.Undisturbed c signal memory r outcome) :
    ∃ n' aloft', later.world.OnTimetable c signal memory r opening outcome n' aloft' := by
  have before := calm.before step
  have open_ : s.quits = false := by
    rw [quits, before.held, Signal.isReady, on.tracks.down before.down]
    rfl
  cases step with
  | turn turn =>
    cases turn with
    | fired current due here => exact on.fire current due here calm.meets
    | missed quits _ _ _ => exact absurd quits (by simp [open_])
    | ended quits _ => exact absurd quits (by simp [open_])
    | returned _ => cases before.held
  | change change => exact ⟨n, aloft, on.change change⟩
  | plan schedule => exact ⟨n, aloft, on.reschedule schedule⟩
  | stop => cases calm.held
  | drop => cases calm.held
  | pass _ early => exact ⟨n, aloft, on.moveTo early⟩

theorem Reaches.onTimetable (reaches : s.Reaches c later)
    (on : s.world.OnTimetable c signal memory r opening outcome n aloft)
    (calm : later.Undisturbed c signal memory r outcome) :
    ∃ n' aloft', later.world.OnTimetable c signal memory r opening outcome n' aloft' := by
  induction reaches with
  | refl => exact ⟨n, aloft, on⟩
  | tail _ step ih =>
    obtain ⟨n', aloft', before⟩ := ih (calm.before step)
    exact step.onTimetable before calm

/-- A session keeps to the timetable: this many renewals are over, and another one is under way or
not. -/
structure KeepsTimetable (c : Collaborators σ) (s : Session σ) (r : Renewal)
    (opening : List LogRecord) (outcome : Nat → RenewalOutcome) (ended : Nat) (aloft : Bool) :
    Prop where
  /-- Each renewal began and was over at its time, and was reported then; there was nothing else. -/
  told : s.world.trace.ofLoop = (opening.map fun record => ⟨r.start, .renewalLog record⟩) ++
    r.diary outcome ended ++ r.underWay outcome ended aloft
  /-- Those that have begun had their time by now, -/
  begun : ∀ k, 0 < k → k ≤ ended + aloft.toNat → r.begins outcome k ≤ s.world.now
  /-- none whose time has passed was skipped, -/
  next : ∀ k, r.begins outcome k < s.world.now → k ≤ ended + aloft.toNat
  /-- and each that should be over is. -/
  done : ∀ k, r.completes outcome k < s.world.now → k ≤ ended
  /-- What is to happen at this very time has happened once every task waits. -/
  rested : s.Rests c → ∀ k, (r.begins outcome k ≤ s.world.now → k ≤ ended + aloft.toNat) ∧
    (r.completes outcome k ≤ s.world.now → k ≤ ended)
  /-- No more renewals have begun than there are intervals in the time since the start. -/
  bounded : ended + aloft.toNat ≤
    (Duration.ofMillis (s.world.now - r.start)).nanos / r.interval.nanos
  live : s.live = true

theorem keepsTimetable (on : s.world.OnTimetable c signal memory r opening outcome n aloft)
    (positive : 0 < r.interval.nanos) : s.KeepsTimetable c r opening outcome n aloft := by
  obtain ⟨loop, current, stands⟩ := on.stands
  have notDue : s.Rests c → ¬ ∃ due, loop.due? = some due ∧ due ≤ s.world.now :=
    fun rests ⟨_, due, here⟩ => rests _ (.fired current due here)
  exact {
    told := on.told
    begun := fun k first begun => stands.begun_le first begun
    next := fun k passed =>
      Nat.le_of_lt_succ (Renewal.lt_of_begins_lt (Nat.lt_of_lt_of_le passed stands.le_begins))
    done := fun k passed =>
      Nat.le_of_lt_succ (Renewal.lt_of_completes_lt (Nat.lt_of_lt_of_le passed stands.le_completes))
    rested := fun rests k => by
      have begins : s.world.now < r.begins outcome (n + aloft.toNat + 1) :=
        Nat.lt_of_not_le fun come => notDue rests (stands.due_of_begins come)
      have completes : s.world.now < r.completes outcome (n + 1) :=
        Nat.lt_of_not_le fun come => notDue rests (stands.due_of_completes come)
      constructor
      · intro come
        exact Nat.le_of_lt_succ (Renewal.lt_of_begins_lt (Nat.lt_of_le_of_lt come begins))
      · intro come
        exact Nat.le_of_lt_succ (Renewal.lt_of_completes_lt (Nat.lt_of_le_of_lt come completes))
    bounded := by
      rcases Nat.eq_zero_or_pos (n + aloft.toNat) with none | some
      · rw [none]
        exact Nat.zero_le _
      · exact Renewal.le_of_begins_le positive (stands.begun_le some (Nat.le_refl _))
    live := by
      rw [live, World.renewalIsLive, current, Option.any_some]
      exact stands.isLive }

/-- What a program does up to a time is what may happen, and leaves nothing to do at that time. -/
theorem reaches_advanceThrough {w : World σ} {time : Nat} (paced : w.Paced)
    (ahead : w.now ≤ time) : (w.advanceThrough c time).now = time ∧
      Reaches c ⟨w, .held⟩ ⟨w.advanceThrough c time, .held⟩ ∧
      Rests c ⟨w.advanceThrough c time, .held⟩ := by
  obtain ⟨reaches, early, paced'⟩ : Reaches c ⟨w, .held⟩ ⟨w.advance c false (time + 1), .held⟩ ∧
      (w.advance c false (time + 1)).now < time + 1 ∧ (w.advance c false (time + 1)).Paced := by
    refine World.advance_induction (p := fun later => Reaches c ⟨w, .held⟩ ⟨later, .held⟩ ∧
      later.now < time + 1 ∧ later.Paced) ?_ ⟨.refl, by omega, paced⟩
    rintro mid later ⟨reaches, soon, paced⟩ stepped
    obtain ⟨soon', _, paced'⟩ := World.step_load paced soon stepped
    exact ⟨reaches.trans (reaches_step stepped), soon', paced'⟩
  have stopped : (w.advance c false (time + 1)).step c (time + 1) = none :=
    (World.advance_done false paced (by omega)).resolve_left (by simp)
  have open_ : ((w.advance c false (time + 1)).signal.raised &&
      (w.advance c false (time + 1)).renewalIsLive) = false := by
    refine Bool.eq_false_iff.mpr fun ends => ?_
    rw [World.step, if_pos ends] at stopped
    cases stopped
  have late : ∀ due, (w.advance c false (time + 1)).renewalDue? = some due → time + 1 ≤ due := by
    intro due next
    obtain ⟨r, current, dueAt⟩ := Option.bind_eq_some_iff.mp next
    exact World.due_of_step_eq_none stopped current dueAt
  have now : (w.advanceThrough c time).now = time :=
    World.moveTo_now_of_le (by omega)
  refine ⟨now, reaches.trans (reaches_moveTo open_ fun due next => ?_),
    rests_of_held open_ fun due next => ?_⟩
  · have := late due next
    omega
  · have := late due next
    rw [now]
    omega

end Session

/-- How a loop keeps to its timetable, for any collaborators and in whatever order things happen. -/
structure RenewsOnTime (c : Collaborators σ) (signal : Signal) (memory : σ) (start : Session σ)
    (ttl interval : Duration) (r : Renewal) (opening : List LogRecord)
    (outcome : Nat → RenewalOutcome) : Prop where
  /-- The interval is the one that was asked for. Half the time that a lease lasts, or a second if
  that is longer, stands in for one of zero. -/
  interval : r.interval.nanos =
    if interval.nanos = 0 then max (ttl.nanos / 2) 1000000000 else interval.nanos
  /-- As long as nothing stops the loop it does what its timetable says. -/
  keeps : ∀ s, start.Reaches c s → s.Undisturbed c signal memory r outcome →
    ∃ ended aloft, s.KeepsTimetable c r opening outcome ended aloft
  /-- A program gets to any time, and all that is due has been done by then. -/
  program : ∀ time, r.start ≤ time →
    (start.world.advanceThrough c time).now = time ∧
      start.Reaches c ⟨start.world.advanceThrough c time, .held⟩ ∧
      Session.Rests c ⟨start.world.advanceThrough c time, .held⟩
  /-- A failure is reported with how many there have been in a row, and as an error if this one and
  the three before it are all failures. -/
  reports : ∀ k, r.Reports outcome k (r.report outcome k)
  /-- Failures shift nothing. -/
  unshifted : ∀ outcome', (∀ k, (outcome' k).takes = (outcome k).takes) →
    ∀ k, r.begins outcome' k = r.begins outcome k

/-- Every renewal loop keeps to its timetable. What it counts is never more than the renewals that
there have been. -/
theorem Session.start_renewsOnTime (c : Collaborators σ) (now : Nat) (signal : Signal)
    (schedule : List (Nat × SignalChange)) (memory : σ) (machines : List MachineId)
    (ttl interval : Duration) (outcome : Nat → RenewalOutcome) :
    RenewsOnTime c signal memory (.start { now, signal, schedule, memory } machines ttl interval)
      ttl interval (Renewal.begin now machines ttl interval).1
      (Renewal.begin now machines ttl interval).2 outcome where
  interval := by
    rw [Renewal.begin, Renewal.effectiveInterval]
    split <;> rfl
  keeps := fun s reaches calm => by
    obtain ⟨n, aloft, on⟩ := Reaches.onTimetable reaches
      (World.onTimetable_start c now signal schedule memory machines ttl interval outcome) calm
    exact ⟨n, aloft, keepsTimetable on (effectiveInterval_pos ttl interval)⟩
  program := fun time ahead => by
    have started := (World.atOnce_startRenewal c { now, signal, schedule, memory } machines ttl
      interval).now
    exact reaches_advanceThrough (sound_start rfl machines ttl interval).paced
      (started.symm ▸ ahead)
  reports := Renewal.reports_report _ outcome
  unshifted := fun _ same k => Renewal.begins_congr same k

namespace Rehearsal

/-- The first renewal takes so long that two ticks are missed, and four fail before one does not. -/
def uneven : Nat → RenewalOutcome
  | 1 => ⟨25000, some ⟨"unreachable", []⟩⟩
  | 2 => ⟨0, some ⟨"unreachable", []⟩⟩
  | 3 => ⟨1000, some ⟨"machine is locked", []⟩⟩
  | 4 => ⟨0, some ⟨"unreachable", []⟩⟩
  | 5 => ⟨2000, none⟩
  | _ => ⟨5000, some ⟨"unreachable", []⟩⟩

def unsteady : Collaborators Nat where
  react
    | k, _, .acquire .. => (k + 1, .sleep (uneven (k + 1)).takes (uneven (k + 1)).final)
    | k, _, call => (k + 1, .succeed (call.answer 0))

/-- A loop that is to renew the lease of a machine every ten seconds. -/
def steadyLoop : Renewal × List LogRecord :=
  Renewal.begin 0 [thirdId] (.ofSecs 30) (.ofSecs 10)

def unsteadyStart : Session Nat := .start { memory := 0 } [thirdId] (.ofSecs 30) (.ofSecs 10)

def unsteadyMinute : Session Nat := ⟨unsteadyStart.world.advanceThrough unsteady 60000, .held⟩

theorem unsteadyMinute_undisturbed :
    unsteadyMinute.Undisturbed unsteady {} 0 steadyLoop.1 uneven where
  held := rfl
  down := staysDown_of_still rfl
  meets := by
    intro before start later eq
    have counted : ∀ n ≤ unsteadyMinute.world.trace.length,
        unsteady.recall 0 (Trace.calls (unsteadyMinute.world.trace.take n)) =
          Trace.renewals (unsteadyMinute.world.trace.take n) := by decide +kernel
    have calls := counted before.length (by simp [eq])
    rw [eq, List.take_left] at calls
    rw [calls]
    exact .sleep .here

/-- The ticks that were missed are made up for: the second renewal begins as the first is over, and
the third as well. The sixth has just begun. -/
theorem unsteadyMinute_keepsTimetable :
    unsteadyMinute.world.trace.renewals = 6 ∧
      (List.range 6).map (fun k => steadyLoop.1.begins uneven (k + 1)) =
        [10000, 35000, 35000, 40000, 50000, 60000] ∧
      ∃ ended aloft, unsteadyMinute.KeepsTimetable unsteady steadyLoop.1 steadyLoop.2 uneven ended
        aloft := by
  have onTime := Session.start_renewsOnTime unsteady 0 {} [] 0 [thirdId] (.ofSecs 30) (.ofSecs 10)
    uneven
  have reaches : unsteadyStart.Reaches unsteady unsteadyMinute :=
    (onTime.program 60000 (Nat.zero_le _)).2.1
  exact ⟨by decide +kernel, by decide +kernel,
    onTime.keeps unsteadyMinute reaches unsteadyMinute_undisturbed⟩

/-- The fourth failure in a row is an error. -/
example : steadyLoop.1.report uneven 4 = ⟨.error, "Lease renewal failed repeatedly",
    [("error", .text "unreachable"), ("consecutive_failures", .count 4)]⟩ := rfl

end Rehearsal

end Rollout
