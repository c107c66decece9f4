import Rollout.Run

/-!
# Runs come to an end

Where every collaborator returns in the end, so does a run: a script has no loop, so there is a
time from which on a watched run no longer depends on how long it is watched.
-/

namespace Rollout

variable {σ α : Type}

def Reaction.Returns : Reaction α → Prop
  | .succeed _ => True
  | .fail _ => True
  | .panic _ => True
  | .hang => False
  | .sleep _ next => next.Returns
  | .signal _ next => next.Returns

/-- No call goes on for ever. -/
def Collaborators.Return (c : Collaborators σ) : Prop :=
  ∀ memory time call, (c.react memory time call).2.Returns

namespace World

/-- Past the time at which a collaborator wakes up, the horizon plays no part in its sleep. -/
theorem await_sleep (c : Collaborators σ) (interruptible : Bool) (next : Reaction α) (ms : Nat)
    (w : World σ) {horizon : Horizon} (late : w.now + (ms + 1) < horizon.time) :
    await c horizon interruptible (.sleep (ms + 1) next) w =
      if interruptible && (w.advance c interruptible (w.now + (ms + 1))).signal.raised then
        (w.advance c interruptible (w.now + (ms + 1)), some .cancelled)
      else await c horizon interruptible next
        ((w.advance c interruptible (w.now + (ms + 1))).moveTo (w.now + (ms + 1))) := by
  have notOver : w.isOver horizon = false := by
    simp only [isOver, decide_eq_false_iff_not]
    omega
  have least : min (w.now + (ms + 1)) horizon.time = w.now + (ms + 1) := by omega
  have notCut : ¬ horizon.time < w.now + (ms + 1) := by omega
  simp [await, notOver, least, notCut]

/-- A wait for a collaborator that returns ends with the same reply under every late horizon. -/
theorem await_returns (c : Collaborators σ) (interruptible : Bool) {reaction : Reaction α}
    (returns : reaction.Returns) (w : World σ) :
    ∃ after reply time, ∀ horizon : Horizon, time < horizon.time →
      await c horizon interruptible reaction w = (after, some reply) := by
  induction reaction generalizing w with
  | succeed answer => exact ⟨w, .ok answer, 0, fun horizon _ => rfl⟩
  | fail failure => exact ⟨w, .failed failure, 0, fun horizon _ => rfl⟩
  | panic text => exact ⟨w, .panicked text, 0, fun horizon _ => rfl⟩
  | hang => exact False.elim returns
  | signal change next ih =>
    obtain ⟨after, reply, time, eq⟩ := ih returns (w.change change)
    exact ⟨after, reply, time, fun horizon late => by rw [await, eq horizon late]⟩
  | sleep ms next ih =>
    cases ms with
    | zero =>
      obtain ⟨after, reply, time, eq⟩ := ih returns w
      exact ⟨after, reply, time, fun horizon late => by rw [await, eq horizon late]⟩
    | succ ms =>
      let woken := w.advance c interruptible (w.now + (ms + 1))
      by_cases raised : (interruptible && woken.signal.raised) = true
      · refine ⟨woken, .cancelled, w.now + (ms + 1), fun horizon late => ?_⟩
        rw [await_sleep c interruptible next ms w late, if_pos raised]
      · obtain ⟨after, reply, time, eq⟩ := ih returns (woken.moveTo (w.now + (ms + 1)))
        refine ⟨after, reply, max (w.now + (ms + 1)) time, fun horizon late => ?_⟩
        rw [await_sleep c interruptible next ms w (by omega), if_neg raised]
        exact eq horizon (by omega)

theorem perform_returns {c : Collaborators σ} (returns : c.Return) (w : World σ) (call : Call) :
    ∃ after reply time, ∀ horizon : Horizon, time < horizon.time →
      w.perform c horizon call = (after, some reply) := by
  by_cases refused : (call.cancellable && w.signal.raised) = true
  · exact ⟨w, .cancelled, 0, fun horizon _ => by rw [perform, if_pos refused]⟩
  · obtain ⟨after, reply, time, eq⟩ := await_returns c call.cancellable
      (returns w.memory w.now call)
      { w.record (.began .pass call) with memory := (c.react w.memory w.now call).1 }
    refine ⟨after.record (.ended .pass call reply), reply, time, fun horizon late => ?_⟩
    rw [perform, if_neg refused]
    dsimp only
    split
    · rename_i ended
      cases (eq horizon late).symm.trans ended
      rfl
    · rename_i cutOff
      cases (eq horizon late).symm.trans cutOff

end World

/-- Where no call goes on for ever, a script that is watched for long enough ends. -/
theorem Script.run_ends {c : Collaborators σ} (returns : c.Return) (script : Script α)
    (w : World σ) : ∃ after exit time, ∀ horizon : Horizon, time < horizon.time →
      script.run c horizon w = (after, .exit exit) := by
  induction script generalizing w with
  | done exit => exact ⟨w, exit, 0, fun horizon _ => rfl⟩
  | note n next ih => exact ih (w.record (.note n))
  | checkpoint next ih => exact ih w.signal.raised w
  | startRenewal machines ttl interval next ih => exact ih (w.startRenewal machines ttl interval)
  | call made next ih =>
    obtain ⟨mid, reply, time, performed⟩ := w.perform_returns returns made
    obtain ⟨after, exit, time', ran⟩ := ih reply mid
    refine ⟨after, exit, max time time', fun horizon late => ?_⟩
    rw [run, performed horizon (by omega)]
    exact ran horizon (by omega)
  | stopRenewal next ih =>
    obtain ⟨after, exit, time, ran⟩ := ih w.stopRenewal
    refine ⟨after, exit, max w.now time, fun horizon late => ?_⟩
    have notOver : w.isOver horizon = false := by
      simp only [World.isOver, decide_eq_false_iff_not]
      omega
    rw [run, notOver]
    exact ran horizon (by omega)

/-- Where no call goes on for ever, a rollout that is watched for long enough does not hang. -/
theorem Order.run_returns {c : Collaborators σ} (returns : c.Return) (o : Order) (w : World σ) :
    ∃ time, ∀ horizon : Horizon, time < horizon.time → (o.run c horizon w).2 ≠ .hung := by
  obtain ⟨after, exit, time, ends⟩ := o.script.run_ends returns w
  refine ⟨time, fun horizon late => ?_⟩
  have eq : o.run c horizon w = (after, .exit exit) := ends horizon late
  simp [eq]

end Rollout
