import Mathlib.Logic.Relation
import Rollout.Proofs.Due
import Rollout.Proofs.Interruption

/-!
# The life of a renewal loop

A renewal loop waits for several things at once: its next tick, the renewal that it has under way,
the word of whoever holds its handle, and the shutdown signal. Where several of them are there, any
may be seen first. A world picks one order; this module has all of them. In a session tasks take
turns for as long as one of them has something to do, the signal may change and the handle may be
used or dropped at any moment, and time passes only while every task waits.
-/

namespace Rollout

variable {σ : Type}

inductive Handle
  | held
  /-- The loop was told to stop, and somebody waits for its end. -/
  | stopping
  /-- That wait is over. -/
  | stopped
  | dropped
  deriving DecidableEq, Repr

/-- A loop in its world, and its handle. -/
structure Session (σ : Type) where
  world : World σ
  handle : Handle

namespace Session

def start (w : World σ) (machines : List MachineId) (ttl interval : Duration) : Session σ :=
  ⟨w.startRenewal machines ttl interval, .held⟩

def quits (s : Session σ) : Bool := s.handle != .held || s.world.signal.isReady

def live (s : Session σ) : Bool := s.world.renewalIsLive

/-- A task does what it can do without waiting. -/
inductive Turn (c : Collaborators σ) : Session σ → Session σ → Prop
  /-- A tick has come and a renewal begins, or a renewal goes on. A loop that is to end may see this
  first. -/
  | fired {w handle r time} : w.renewal = some r → r.due? = some time → time ≤ w.now →
    Turn c ⟨w, handle⟩ ⟨w.fire c r, handle⟩
  /-- A tick has come, but the loop ends before the renewal begins. -/
  | missed {w handle r} : quits ⟨w, handle⟩ = true → w.renewal = some r → r.phase = .waiting →
    r.tickTime r.tick ≤ w.now →
      Turn c ⟨w, handle⟩ ⟨w.setRenewal (r.nextTick.finish .cancelled), handle⟩
  /-- The loop ends between two ticks or during a renewal. -/
  | ended {w handle} : quits ⟨w, handle⟩ = true → w.renewalIsLive = true →
    Turn c ⟨w, handle⟩ ⟨w.endRenewal, handle⟩
  /-- Whoever waits for the end of the loop goes on. -/
  | returned {w} : w.renewalIsLive = false → Turn c ⟨w, .stopping⟩ ⟨w.stopRenewal, .stopped⟩

/-- Every task waits. -/
def Rests (c : Collaborators σ) (s : Session σ) : Prop := ∀ later, ¬ s.Turn c later

/-- What may happen in a session. -/
inductive Step (c : Collaborators σ) : Session σ → Session σ → Prop
  | turn {s later} : s.Turn c later → Step c s later
  | change {w handle} (change : SignalChange) : Step c ⟨w, handle⟩ ⟨w.change change, handle⟩
  /-- Other changes of the signal are to come. -/
  | plan {w handle} (schedule : List (Nat × SignalChange)) :
    Step c ⟨w, handle⟩ ⟨{ w with schedule }, handle⟩
  | stop {w} : Step c ⟨w, .held⟩ ⟨w, .stopping⟩
  | drop {w} : Step c ⟨w, .held⟩ ⟨w, .dropped⟩
  /-- Time passes, but not beyond the time at which the loop is due. -/
  | pass {w handle time} : Rests c ⟨w, handle⟩ →
    (∀ due, w.renewalDue? = some due → time ≤ due) → Step c ⟨w, handle⟩ ⟨w.moveTo time, handle⟩

def Reaches (c : Collaborators σ) : Session σ → Session σ → Prop := Relation.ReflTransGen (Step c)

def changed (s : Session σ) (changes : List SignalChange) : Session σ :=
  ⟨s.world.changeAll changes, s.handle⟩

/-- It comes to this by turns alone, whichever they are and however the signal changes between
them. -/
inductive Inevitably (c : Collaborators σ) (p : Session σ → Prop) : Session σ → Prop
  | now {s} : p s → Inevitably c p s
  | later {s} : (∀ changes, p (s.changed changes) ∨ ∃ next, (s.changed changes).Turn c next) →
    (∀ changes next, (s.changed changes).Turn c next → Inevitably c p next) → Inevitably c p s

variable {c : Collaborators σ} {w later : World σ} {limit : Nat}

theorem live_of_due {r : Renewal} {time : Nat} (current : w.renewal = some r)
    (due : r.due? = some time) : w.renewalIsLive = true := by
  rw [World.renewalIsLive, current, Option.any_some, Renewal.isLive]
  cases phase : r.phase <;> simp [Renewal.due?, phase] at due ⊢

/-- A loop that is held and not due waits, unless it sees the signal. -/
theorem rests_of_held (open_ : (w.signal.raised && w.renewalIsLive) = false)
    (early : ∀ due, w.renewalDue? = some due → w.now < due) : Rests c ⟨w, .held⟩ := by
  have notDue : ∀ r time, w.renewal = some r → r.due? = some time → ¬ time ≤ w.now := by
    intro r time current due
    have := early time (by rw [World.renewalDue?, current, Option.bind_some, due])
    omega
  rintro later (⟨current, due, here⟩ | ⟨_, current, phase, here⟩ | ⟨quits, live⟩ | _)
  · exact notDue _ _ current due here
  · exact notDue _ _ current (by rw [Renewal.due?, phase]) here
  · simp only [Session.quits, Signal.isReady, bne_self_eq_false, Bool.false_or] at quits
    rw [quits, live] at open_
    cases open_

/-- Time passes in the session up to where it does in the world. -/
theorem reaches_moveTo {time : Nat} (open_ : (w.signal.raised && w.renewalIsLive) = false)
    (early : ∀ due, w.renewalDue? = some due → time ≤ due) :
    Reaches c ⟨w, .held⟩ ⟨w.moveTo time, .held⟩ := by
  by_cases here : time ≤ w.now
  · rw [World.moveTo, Nat.max_eq_left here]
    exact .refl
  · refine .single (.pass (rests_of_held open_ fun due next => ?_) early)
    have := early due next
    omega

/-- What happens in a world may happen in the session. -/
theorem reaches_step (stepped : w.step c limit = some later) :
    Reaches c ⟨w, .held⟩ ⟨later, .held⟩ := by
  cases World.step_happens stepped with
  | ended raised live =>
    exact .single (.turn (.ended (by simpa [quits, Signal.isReady] using raised) live))
  | @changed time change rest open_ _ _ before =>
    have early : ∀ due, w.renewalDue? = some due → time ≤ due := by
      intro due next
      rw [next] at before
      exact of_decide_eq_true before
    exact ((Relation.ReflTransGen.single (.plan rest)).trans
      (reaches_moveTo (w := { w with schedule := rest }) open_ early)).tail (.change change)
  | @fired r time open_ current due _ =>
    have next : w.renewalDue? = some time := by
      rw [World.renewalDue?, current, Option.bind_some, due]
    have moved : Reaches c ⟨w, .held⟩ ⟨w.moveTo time, .held⟩ := by
      refine reaches_moveTo open_ fun due' eq => ?_
      rw [next] at eq
      cases eq
      exact Nat.le_refl _
    exact moved.tail (.turn (.fired current due (Nat.le_max_right _ _)))

theorem closed_not_live (r : Renewal) : r.closed.isLive = false := by
  rw [Renewal.closed, Renewal.isLive]
  cases r.phase <;> rfl

theorem endRenewal_not_live (w : World σ) : w.endRenewal.renewalIsLive = false := by
  rw [World.renewalIsLive, World.endRenewal_renewal]
  cases w.renewal with
  | none => rfl
  | some r => exact closed_not_live r

/-- To end a loop that has ended changes nothing. -/
theorem endRenewal_of_gone (gone : w.renewalIsLive = false) : w.endRenewal = w := by
  unfold World.endRenewal
  split
  · rfl
  · rename_i r current
    rw [World.renewalIsLive, current, Option.any_some, Renewal.isLive] at gone
    split
    · simp_all
    · simp_all
    · rfl
    · rfl

/-- To stop a loop is to end it and to go on. -/
theorem stopRenewal_endRenewal (w : World σ) : w.endRenewal.stopRenewal = w.stopRenewal := by
  have again := endRenewal_of_gone (endRenewal_not_live w)
  unfold World.stopRenewal World.dropRenewal
  rw [again, World.endRenewal_renewal]
  cases current : w.renewal with
  | none => simp [World.endRenewal, current]
  | some r =>
    have same : r.closed.stopLog = r.stopLog := by
      rw [Renewal.closed, Renewal.stopLog, Renewal.stopLog]
      cases r.phase <;> rfl
    simp [same]

theorem reaches_stopRenewal (c : Collaborators σ) (w : World σ) :
    Reaches c ⟨w, .held⟩ ⟨w.stopRenewal, .stopped⟩ := by
  have told : Reaches c ⟨w, .held⟩ ⟨w, .stopping⟩ := .single .stop
  cases live : w.renewalIsLive with
  | true =>
    rw [← stopRenewal_endRenewal]
    exact (told.tail (.turn (.ended rfl live))).tail (.turn (.returned (endRenewal_not_live w)))
  | false => exact told.tail (.turn (.returned live))

theorem reaches_endRenewal (c : Collaborators σ) (w : World σ) :
    Reaches c ⟨w, .held⟩ ⟨w.endRenewal, .dropped⟩ := by
  have dropped : Reaches c ⟨w, .held⟩ ⟨w, .dropped⟩ := .single .drop
  cases live : w.renewalIsLive with
  | true => exact dropped.tail (.turn (.ended rfl live))
  | false =>
    rw [endRenewal_of_gone live]
    exact dropped

/-- How much the tasks can still do before time passes. -/
def work (s : Session σ) : Nat :=
  s.world.load (s.world.now + 1) + if s.handle = .stopping then 1 else 0

theorem work_changed (s : Session σ) (changes : List SignalChange) :
    (s.changed changes).work = s.work := by
  rw [work, work, changed]
  simp [World.load, World.renewal_changeAll]

theorem work_lt_of_load {handle : Handle} (now : later.now = w.now)
    (less : later.load (w.now + 1) < w.load (w.now + 1)) :
    work ⟨later, handle⟩ < work ⟨w, handle⟩ := by
  unfold work
  dsimp only
  rw [now]
  exact Nat.add_lt_add_right less _

theorem load_setRenewal (w : World σ) (r : Renewal × List LogRecord) (limit : Nat) :
    (w.setRenewal r).load limit = w.schedule.length + r.1.load w.now limit := by
  simp [World.load, World.setRenewal]

theorem stopRenewal_renewal (w : World σ) : w.stopRenewal.renewal = none := by
  cases current : w.renewal <;> simp [World.stopRenewal, World.dropRenewal, current]

theorem stopRenewal_schedule (w : World σ) : w.stopRenewal.schedule = w.schedule := by
  cases current : w.renewal <;>
    simp [World.stopRenewal, World.dropRenewal, current, World.endRenewal_schedule]

/-- A turn takes no time and leaves less to do. -/
theorem Turn.work_lt {s later : Session σ} (turn : s.Turn c later) (paced : s.world.Paced) :
    later.world.now = s.world.now ∧ later.work < s.work ∧ later.world.Paced := by
  cases turn with
  | @fired w handle r time current due here =>
    have early : time < w.now + 1 := by omega
    obtain ⟨now, less, paced'⟩ := World.fire_load (c := c) (paced r current) current due early
      (Nat.lt_succ_self _) here
    exact ⟨now, work_lt_of_load now less, paced'⟩
  | @missed w handle r _ current phase _ =>
    have now : (w.setRenewal (r.nextTick.finish .cancelled)).now = w.now := by
      simp [World.setRenewal]
    refine ⟨now, work_lt_of_load now ?_, fun r' eq => ?_⟩
    · have some : w.load (w.now + 1) = w.schedule.length + r.load w.now (w.now + 1) := by
        rw [World.load, current, Option.map_some, Option.getD_some]
      have none : (r.nextTick.finish .cancelled).1.load w.now (w.now + 1) = 0 := rfl
      rw [load_setRenewal, some, none, Renewal.load, phase]
      dsimp only
      omega
    · have same : r' = (r.nextTick.finish .cancelled).1 := by
        simpa [World.setRenewal] using eq.symm
      rw [same]
      exact paced r current
  | @ended w handle _ live =>
    exact ⟨w.endRenewal_now, work_lt_of_load w.endRenewal_now (World.load_endRenewal _ live),
      paced.endRenewal⟩
  | @returned w gone =>
    have now := (World.atOnce_stopRenewal c w).now
    refine ⟨now, ?_, fun r eq => ?_⟩
    · have less : w.stopRenewal.load (w.now + 1) ≤ w.load (w.now + 1) := by
        rw [World.load, World.load, stopRenewal_schedule, stopRenewal_renewal]
        exact Nat.le_add_right _ _
      unfold work
      dsimp only
      rw [now, if_neg (by decide), if_pos rfl]
      omega
    · dsimp only at eq
      rw [stopRenewal_renewal] at eq
      cases eq

/-- What turns lead up to, and what does not stand still before, comes inevitably. -/
theorem inevitably_of_progress {p q : Session σ → Prop}
    (paced : ∀ s, q s → s.world.Paced)
    (kept : ∀ s changes, q s → q (s.changed changes))
    (progress : ∀ s, q s → p s ∨ ∃ next, s.Turn c next)
    (onward : ∀ s next, q s → s.Turn c next → p next ∨ q next)
    {s : Session σ} (start : q s) : s.Inevitably c p := by
  induction bound : s.work using Nat.strongRecOn generalizing s with
  | ind n ih =>
    refine .later (fun changes => progress _ (kept s changes start)) fun changes next turn => ?_
    have now := kept s changes start
    obtain ⟨_, less, _⟩ := turn.work_lt (paced _ now)
    rw [work_changed, bound] at less
    rcases onward _ _ now turn with there | further
    · exact .now there
    · exact ih next.work less further rfl

end Session

end Rollout
