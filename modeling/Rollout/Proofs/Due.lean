import Rollout.Proofs.Moment

/-!
# What is due is done

`World.advance` takes at most `World.stepBound` steps, and that is enough: when it is over, nothing
is left that is due before the limit, unless a wait was interrupted. Every step takes something off
what there is to do: a change off the schedule, a tick, the time until a renewal wakes up, or the
loop itself.
-/

namespace Rollout

variable {σ : Type}

theorem Reaction.settle_asleep {α : Type} {reaction rest : Reaction α} {ms : Nat}
    (halts : reaction.settle.2 = .asleep ms rest) : 0 < ms := by
  induction reaction with
  | sleep time next ih =>
    cases time with
    | zero => exact ih halts
    | succ time =>
      cases halts
      exact Nat.succ_pos _
  | signal change next ih => exact ih halts
  | _ => cases halts

def RenewalPhase.closed : RenewalPhase → RenewalPhase
  | .waiting => .ended
  | .inFlight .. => .ended
  | .ended => .ended
  | .crashed => .crashed

def Renewal.closed (r : Renewal) : Renewal := { r with phase := r.phase.closed }

theorem Renewal.closed_of_ended (r : Renewal) (phase : r.phase = .ended) : r.closed = r := by
  rw [closed, phase, RenewalPhase.closed, ← phase]

theorem Renewal.closed_of_crashed (r : Renewal) (phase : r.phase = .crashed) : r.closed = r := by
  rw [closed, phase, RenewalPhase.closed, ← phase]

/-- The loop once the acquisition that it waits for halts. -/
def Renewal.land (r : Renewal) (now : Nat) : Halt Unit → Renewal
  | .ended reply => (r.finish reply).1
  | .asleep ms rest => r.acquiring (some (now + ms)) rest
  | .hung => r.acquiring none .hang

theorem Renewal.land_interval (r : Renewal) (now : Nat) (halt : Halt Unit) :
    (r.land now halt).interval = r.interval := by
  cases halt with
  | ended reply => cases reply <;> rfl
  | _ => rfl

namespace World

@[simp] theorem logAll_now (w : World σ) (logs : List LogRecord) : (w.logAll logs).now = w.now := by
  induction logs generalizing w with
  | nil => rfl
  | cons record rest ih => exact ih _

@[simp] theorem logAll_schedule (w : World σ) (logs : List LogRecord) :
    (w.logAll logs).schedule = w.schedule := by
  induction logs generalizing w with
  | nil => rfl
  | cons record rest ih => exact ih _

@[simp] theorem logAll_renewal (w : World σ) (logs : List LogRecord) :
    (w.logAll logs).renewal = w.renewal := by
  induction logs generalizing w with
  | nil => rfl
  | cons record rest ih => exact ih _

@[simp] theorem changeAll_now (w : World σ) (changes : List SignalChange) :
    (w.changeAll changes).now = w.now := by
  induction changes generalizing w with
  | nil => rfl
  | cons change rest ih => exact ih _

@[simp] theorem changeAll_schedule (w : World σ) (changes : List SignalChange) :
    (w.changeAll changes).schedule = w.schedule := by
  induction changes generalizing w with
  | nil => rfl
  | cons change rest ih => exact ih _

/-- The world in which somebody has just made a call. -/
def asked (c : Collaborators σ) (actor : Actor) (call : Call) (w : World σ) : World σ :=
  { w.record (.began actor call) with memory := (c.react w.memory w.now call).1 }

theorem fire_of_waiting (c : Collaborators σ) (w : World σ) {r : Renewal}
    (phase : r.phase = .waiting) : w.fire c r =
      (w.asked c .renewal r.call).goOn r.nextTick (c.react w.memory w.now r.call).2 := by
  simp only [fire, phase]
  rfl

theorem goOn_now (w : World σ) (r : Renewal) (reaction : Reaction Unit) :
    (w.goOn r reaction).now = w.now := by
  simp only [goOn]
  cases reaction.settle.2 <;> simp [setRenewal, record]

theorem goOn_schedule (w : World σ) (r : Renewal) (reaction : Reaction Unit) :
    (w.goOn r reaction).schedule = w.schedule := by
  simp only [goOn]
  cases reaction.settle.2 <;> simp [setRenewal, record]

theorem goOn_renewal (w : World σ) (r : Renewal) (reaction : Reaction Unit) :
    (w.goOn r reaction).renewal = some (r.land w.now reaction.settle.2) := by
  simp only [goOn]
  cases reaction.settle.2 <;> simp [setRenewal, Renewal.land]

theorem endRenewal_now (w : World σ) : w.endRenewal.now = w.now := by
  unfold endRenewal
  split
  · rfl
  · split <;> simp [setRenewal, record]

theorem endRenewal_schedule (w : World σ) : w.endRenewal.schedule = w.schedule := by
  unfold endRenewal
  split
  · rfl
  · split <;> simp [setRenewal, record]

theorem endRenewal_renewal (w : World σ) :
    w.endRenewal.renewal = w.renewal.map Renewal.closed := by
  cases current : w.renewal with
  | none => simp [endRenewal, current]
  | some r =>
    cases phase : r.phase with
    | waiting =>
      simp [endRenewal, current, phase, setRenewal, Renewal.leave, Renewal.closed,
        RenewalPhase.closed]
    | inFlight wake rest =>
      simp [endRenewal, current, phase, setRenewal, Renewal.finish, Renewal.closed,
        RenewalPhase.closed]
    | ended => simp [endRenewal, current, phase, r.closed_of_ended phase]
    | crashed => simp [endRenewal, current, phase, r.closed_of_crashed phase]

end World

namespace World

/-- What may happen next. -/
inductive Happens (c : Collaborators σ) (limit : Nat) (w : World σ) : World σ → Prop
  /-- The loop sees the signal. -/
  | ended : w.signal.raised = true → w.renewalIsLive = true → Happens c limit w w.endRenewal
  | changed {time change rest} : (w.signal.raised && w.renewalIsLive) = false →
    w.schedule = (time, change) :: rest → time < limit → notAfter time w.renewalDue? = true →
    Happens c limit w (({ w with schedule := rest }.moveTo time).change change)
  | fired {r time} : (w.signal.raised && w.renewalIsLive) = false → w.renewal = some r →
    r.due? = some time → time < limit → Happens c limit w ((w.moveTo time).fire c r)

variable {c : Collaborators σ} {w later : World σ} {limit : Nat}

theorem renewalStep_happens (open_ : (w.signal.raised && w.renewalIsLive) = false)
    (stepped : w.renewalStep c limit = some later) : w.Happens c limit later := by
  rw [renewalStep] at stepped
  cases current : w.renewal with
  | none =>
    rw [current] at stepped
    cases stepped
  | some r =>
    simp only [current] at stepped
    cases due : r.due? with
    | none =>
      rw [due] at stepped
      cases stepped
    | some time =>
      simp only [due] at stepped
      split at stepped
      · rename_i early
        cases stepped
        exact .fired open_ current due early
      · cases stepped

theorem step_happens (stepped : w.step c limit = some later) : w.Happens c limit later := by
  rw [World.step] at stepped
  cases open_ : w.signal.raised && w.renewalIsLive with
  | true =>
    rw [open_] at stepped
    cases stepped
    obtain ⟨raised, live⟩ := Bool.and_eq_true_iff.mp open_
    exact .ended raised live
  | false =>
    rw [open_, if_neg Bool.false_ne_true] at stepped
    cases scheduled : w.schedule with
    | nil =>
      rw [scheduled] at stepped
      exact renewalStep_happens open_ stepped
    | cons entry rest =>
      obtain ⟨time, change⟩ := entry
      simp only [scheduled] at stepped
      split at stepped
      · rename_i due
        cases stepped
        obtain ⟨early, before⟩ := Bool.and_eq_true_iff.mp due
        exact .changed open_ scheduled (of_decide_eq_true early) before
      · exact renewalStep_happens open_ stepped

/-- If nothing happens any more the loop is not due. -/
theorem due_of_step_eq_none (stopped : w.step c limit = none) {r : Renewal} {time : Nat}
    (current : w.renewal = some r) (due : r.due? = some time) : limit ≤ time := by
  have none : w.renewalStep c limit = none := by
    rw [World.step] at stopped
    split at stopped
    · cases stopped
    · split at stopped
      · exact stopped
      · split at stopped
        · cases stopped
        · exact stopped
  simp only [renewalStep, current, due] at none
  by_cases early : time < limit
  · rw [if_pos early] at none
    cases none
  · omega

end World

namespace Renewal

/-- How much the loop can still do before the limit. -/
def load (r : Renewal) (now limit : Nat) : Nat :=
  match r.phase with
  | .waiting => r.ticksBefore limit + (limit - now - 1) + 1
  | .inFlight (some wake) _ => r.ticksBefore limit + (limit - max now wake) + 1
  | .inFlight none _ => r.ticksBefore limit + 1
  | .ended => 0
  | .crashed => 0

variable {r : Renewal} {now limit : Nat}

theorem load_mono {later : Nat} (after : now ≤ later) : r.load later limit ≤ r.load now limit := by
  unfold load
  split <;> omega

/-- A tick that comes before the limit is one of those that are counted. -/
theorem ticksBefore_pos (positive : 0 < r.interval.nanos) (early : r.tickTime r.tick < limit) :
    0 < r.ticksBefore limit := by
  have before : (r.interval.times r.tick).ceilMillis < limit - r.start := by
    rw [tickTime] at early
    omega
  have passed : r.tick * r.interval.nanos ≤ (limit - r.start) * 1000000 := by
    rw [Duration.ceilMillis, Duration.times, Nat.div_lt_iff_lt_mul (by omega)] at before
    dsimp only at before
    omega
  have counted : r.tick ≤ (limit - r.start) * 1000000 / r.interval.nanos :=
    (Nat.le_div_iff_mul_le positive).mpr passed
  rw [ticksBefore, Duration.ofMillis]
  dsimp only
  omega

theorem ticksBefore_nextTick (positive : 0 < r.interval.nanos)
    (early : r.tickTime r.tick < limit) : r.nextTick.ticksBefore limit < r.ticksBefore limit := by
  have pos := ticksBefore_pos positive early
  rw [ticksBefore] at pos ⊢
  rw [ticksBefore, nextTick]
  dsimp only
  omega

/-- Whatever comes of an acquisition, from now on it takes no tick and at least a millisecond. -/
theorem load_land (r : Renewal) (now limit : Nat) (reaction : Reaction Unit) :
    (r.land now reaction.settle.2).load now limit ≤
      r.ticksBefore limit + (limit - now - 1) + 1 := by
  cases halts : reaction.settle.2 with
  | ended reply => cases reply <;> simp [land, finish, load, ticksBefore]
  | asleep ms rest =>
    have takes := Reaction.settle_asleep halts
    simp only [land, acquiring, load, ticksBefore]
    omega
  | hung =>
    simp only [land, acquiring, load, ticksBefore]
    omega

end Renewal

namespace World

def load (w : World σ) (limit : Nat) : Nat :=
  w.schedule.length + (w.renewal.map (·.load w.now limit)).getD 0

theorem load_lt_stepBound (w : World σ) (limit : Nat) : w.load limit < w.stepBound limit := by
  have bounded : ∀ r : Renewal, r.load w.now limit ≤ r.ticksBefore limit + (limit - w.now) + 1 := by
    intro r
    unfold Renewal.load
    split <;> omega
  rw [load, stepBound]
  cases w.renewal with
  | none => exact Nat.lt_of_le_of_lt (Nat.le_add_right _ (limit - w.now)) (by simp)
  | some r =>
    have := bounded r
    simp only [Option.map_some, Option.getD_some]
    omega

/-- The loop of a world, if there is one, does not tick all the time. -/
def Paced (w : World σ) : Prop := ∀ r, w.renewal = some r → 0 < r.interval.nanos

/-- An acquisition that goes on takes up what there is to do after its tick. -/
theorem goOn_load {w : World σ} {r : Renewal} {limit bound : Nat} (reaction : Reaction Unit)
    (positive : 0 < r.interval.nanos)
    (room : w.schedule.length + (r.ticksBefore limit + (limit - w.now - 1) + 1) < bound) :
    (w.goOn r reaction).now = w.now ∧ (w.goOn r reaction).load limit < bound ∧
      (w.goOn r reaction).Paced := by
  refine ⟨goOn_now _ _ _, ?_, ?_⟩
  · have landed := r.load_land w.now limit reaction
    rw [load, goOn_schedule, goOn_renewal, goOn_now, Option.map_some, Option.getD_some]
    omega
  · intro r' eq
    rw [goOn_renewal] at eq
    cases eq
    rwa [Renewal.land_interval]

/-- What the loop is due to do now leaves less to do. -/
theorem fire_load {c : Collaborators σ} {w : World σ} {r : Renewal} {limit time : Nat}
    (positive : 0 < r.interval.nanos) (current : w.renewal = some r) (due : r.due? = some time)
    (early : time < limit) (soon : w.now < limit) (here : time ≤ w.now) :
    (w.fire c r).now = w.now ∧ (w.fire c r).load limit < w.load limit ∧ (w.fire c r).Paced := by
  have whole : w.load limit = w.schedule.length + r.load w.now limit := by
    rw [load, current]
    rfl
  cases phase : r.phase with
  | waiting =>
    obtain rfl : r.tickTime r.tick = time := by simpa [Renewal.due?, phase] using due
    have ticks := Renewal.ticksBefore_nextTick positive early
    have before : r.load w.now limit = r.ticksBefore limit + (limit - w.now - 1) + 1 := by
      rw [Renewal.load, phase]
    rw [fire_of_waiting c w phase]
    refine goOn_load _ positive ?_
    change w.schedule.length + (r.nextTick.ticksBefore limit + (limit - w.now - 1) + 1) < _
    omega
  | inFlight wake rest =>
    obtain rfl : wake = some time := by simpa [Renewal.due?, phase] using due
    have before : r.load w.now limit = r.ticksBefore limit + (limit - max w.now time) + 1 := by
      rw [Renewal.load, phase]
    simp only [fire, phase]
    exact goOn_load _ positive (by omega)
  | ended => simp [Renewal.due?, phase] at due
  | crashed => simp [Renewal.due?, phase] at due

theorem load_moveTo (w : World σ) (time limit : Nat) :
    (w.moveTo time).load limit ≤ w.load limit := by
  rw [load, load]
  cases current : w.renewal with
  | none => simp [moveTo, current]
  | some r =>
    have less : r.load (w.moveTo time).now limit ≤ r.load w.now limit :=
      Renewal.load_mono (Nat.le_max_left _ _)
    simpa [moveTo, current] using less

theorem load_endRenewal {w : World σ} (limit : Nat) (live : w.renewalIsLive = true) :
    w.endRenewal.load limit < w.load limit := by
  rw [load, load, endRenewal_schedule, endRenewal_renewal, endRenewal_now]
  cases current : w.renewal with
  | none => simp [renewalIsLive, current] at live
  | some r =>
    have none : r.closed.load w.now limit = 0 := by
      unfold Renewal.load Renewal.closed
      cases r.phase <;> rfl
    have some : 0 < r.load w.now limit := by
      simp only [renewalIsLive, current, Option.any_some, Renewal.isLive] at live
      unfold Renewal.load
      split <;> simp_all
    simp only [Option.map_some, Option.getD_some, none]
    omega

theorem Paced.endRenewal {w : World σ} (paced : w.Paced) : w.endRenewal.Paced := by
  intro r eq
  rw [endRenewal_renewal] at eq
  obtain ⟨r', current, rfl⟩ := Option.map_eq_some_iff.mp eq
  exact paced r' current

/-- Every step leaves less to do. -/
theorem step_load {c : Collaborators σ} {w later : World σ} {limit : Nat} (paced : w.Paced)
    (soon : w.now < limit) (stepped : w.step c limit = some later) :
    later.now < limit ∧ later.load limit < w.load limit ∧ later.Paced := by
  cases step_happens stepped with
  | ended _ live =>
    exact ⟨w.endRenewal_now ▸ soon, w.load_endRenewal limit live, paced.endRenewal⟩
  | @changed time change rest _ scheduled early _ =>
    have moved : ({ w with schedule := rest }.moveTo time).now < limit :=
      Nat.max_lt.mpr ⟨soon, early⟩
    refine ⟨moved, ?_, paced⟩
    have shorter : ({ w with schedule := rest }).load limit < w.load limit := by
      rw [load, load, scheduled, List.length_cons]
      dsimp only
      omega
    have less := load_moveTo { w with schedule := rest } time limit
    exact Nat.lt_of_le_of_lt less shorter
  | @fired r time _ current due early =>
    have moved : (w.moveTo time).now < limit := Nat.max_lt.mpr ⟨soon, early⟩
    obtain ⟨now, less, paced'⟩ := fire_load (c := c) (w := w.moveTo time) (paced r current)
      current due early moved (Nat.le_max_right _ _)
    exact ⟨now ▸ moved, Nat.lt_of_lt_of_le less (w.load_moveTo time limit), paced'⟩

/-- Whatever holds at first and in every step holds when nothing more happens before the limit, or
the wait is interrupted. -/
theorem advance_induction {c : Collaborators σ} {interruptible : Bool} {limit : Nat}
    {p : World σ → Prop} (preserved : ∀ {w later : World σ}, p w → w.step c limit = some later →
      p later) {w : World σ} (start : p w) : p (w.advance c interruptible limit) := by
  rw [advance]
  generalize w.stepBound limit = bound
  induction bound generalizing w with
  | zero => exact start
  | succ bound ih =>
    rw [advanceBy]
    split
    · exact start
    · split
      · exact start
      · rename_i stepped
        exact ih (preserved start stepped)

/-- The steps do not run out. -/
theorem advanceBy_done {c : Collaborators σ} {interruptible : Bool} {limit bound : Nat}
    {w : World σ} (paced : w.Paced) (soon : w.now < limit) (enough : w.load limit < bound) :
    (interruptible = true ∧ (w.advanceBy c interruptible limit bound).signal.raised = true) ∨
      (w.advanceBy c interruptible limit bound).step c limit = none := by
  induction bound generalizing w with
  | zero => omega
  | succ bound ih =>
    rw [advanceBy]
    split
    · rename_i interrupted
      exact .inl (by simpa using interrupted)
    · split
      · rename_i stopped
        exact .inr stopped
      · rename_i next stepped
        obtain ⟨soon', less, paced'⟩ := step_load paced soon stepped
        exact ih paced' soon' (by omega)

/-- What is due before the limit is done unless the wait is interrupted. -/
theorem advance_done {c : Collaborators σ} {limit : Nat} {w : World σ} (interruptible : Bool)
    (paced : w.Paced) (soon : w.now < limit) :
    (interruptible = true ∧ (w.advance c interruptible limit).signal.raised = true) ∨
      (w.advance c interruptible limit).step c limit = none :=
  advanceBy_done paced soon (w.load_lt_stepBound limit)

end World

end Rollout
