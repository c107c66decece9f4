import Rollout.Proofs.FinalStatus

/-!
# Releases that are left running

A rollout that returns and has begun to mark its release as running writes a final state of it
later, with one exception. The call that marks the release is itself interrupted by shutdown.
If shutdown arrives while it is under way the rollout gives up at once, without the final state,
although the release may have been marked.
-/

namespace Rollout

open Script

/-- Only one event brings the signal up. -/
theorem Signal.raised_of_see {s : Signal} {e : Event} (up : (s.see e).raised = true) :
    s.raised = true ∨ e = .signal .raise := by
  cases e with
  | signal c =>
    cases c with
    | raise => exact .inr rfl
    | lower =>
      change (if s.detached then s else { s with raised := false }).raised = true at up
      split at up
      · exact .inl up
      · cases up
    | detach => exact .inl up
  | _ => exact .inl up

/-- A signal that has come up was raised. -/
theorem Signal.raise_mem {s : Signal} {events : List Event} (down : s.raised = false)
    (up : (s.after events).raised = true) : .signal .raise ∈ events := by
  induction events generalizing s with
  | nil => exact absurd up (Bool.eq_false_iff.mp down)
  | cons e events ih =>
    cases now : (s.see e).raised with
    | false => exact List.mem_cons_of_mem _ (ih now up)
    | true =>
      rcases Signal.raised_of_see now with before | rfl
      · exact absurd before (Bool.eq_false_iff.mp down)
      · exact List.mem_cons_self

/-- The release is marked as running, and its final state is written later. -/
def Order.Finalises (o : Order) (events : List Event) : Prop :=
  ∃ before later status, events = before ++ .began .pass o.markRunning :: later ∧
    status ≠ .running ∧ .began .pass (o.mark status) ∈ later

/-- Shutdown arrives while the release is being marked as running. The call is abandoned, the
rollout makes no other, and ends as cancelled. -/
structure LeftRunning (o : Order) (events : List Event) (r : RunEnd Unit) : Prop where
  window : ∃ before noise later, events = before ++ .began .pass o.markRunning ::
    (noise ++ .ended .pass o.markRunning .cancelled :: later) ∧ .signal .raise ∈ noise
  only : begun events = [o.markRunning]
  ends : r = .exit (.error .cancelled)

namespace Order

variable {o : Order} {calm : Prop} {x : List Event} {s later : Stage} {events : List Event}
  {r : RunEnd Unit}

theorem Finalises.mark_mem (finalises : o.Finalises events) :
    ∃ status, status ≠ .running ∧ o.mark status ∈ begun events := by
  obtain ⟨before, later, status, rfl, final, mem⟩ := finalises
  exact ⟨status, final, mem_begun.mpr (by simp [mem])⟩

theorem Finalises.of_transcript (finalises : o.Finalises (transcript events)) :
    o.Finalises events := by
  obtain ⟨_, _, status, eq, final, mem⟩ := finalises
  obtain ⟨before, later, rfl, rfl, rfl⟩ := split_transcript eq
  exact ⟨before, later, status, rfl, final, (mem_transcript rfl).mp mem⟩

/-- A rollout that only marks its release as running writes no final state. -/
theorem not_finalises_of_only (only : begun events = [o.markRunning]) : ¬ o.Finalises events := by
  intro finalises
  obtain ⟨status, final, mem⟩ := finalises.mark_mem
  rw [only] at mem
  cases List.mem_singleton.mp mem
  exact final rfl

/-- A rollout that could mark its release as running concludes with the final state. -/
theorem Course.finalises (course : o.Course calm x r) (returns : r.Returns)
    (announced : o.announced ∈ x) : o.Finalises x := by
  cases course with
  | unannounced breaks => exact absurd announced breaks.ok_notMem
  | @announced y z r₀ _ passage concluded =>
    have marked : ∃ status, status ≠ .running ∧ o.mark status ∈ begun z := by
      rcases concluded.marks with ⟨_, rfl | ⟨text, rfl⟩⟩ | ⟨calls, _⟩ | ⟨calls, _⟩
      · exact absurd returns RunEnd.not_returns_hung
      · cases concluded
        exact absurd returns RunEnd.not_returns_panic
      · exact ⟨.failed, by simp, by simp [calls]⟩
      · exact ⟨.complete, by simp, by simp [calls]⟩
    obtain ⟨status, final, mem⟩ := marked
    refine ⟨[], .ended .pass o.markRunning (.ok ()) :: (y ++ z), status, rfl, final, ?_⟩
    simp [mem_begun.mp mem]

/-- A call that is interrupted was so by a shutdown that arrived while it was under way. -/
theorem leftRunning_of_interrupted {noise : List Event} {n : Note}
    (may : s.MayBegin o.markRunning) (background : s.Background noise later)
    (mayReply : later.MayReply o.markRunning .cancelled) :
    LeftRunning o (.note n :: .began .pass o.markRunning ::
      (noise ++ [.ended .pass o.markRunning .cancelled, .note cancelNote]))
      (.exit (.error .cancelled)) where
  window := by
    have down : s.signal.raised = false := Bool.eq_false_iff.mpr fun raised => may ⟨rfl, raised⟩
    have up : (s.signal.after noise).raised = true := background.signal ▸ (mayReply rfl).2
    exact ⟨[.note n], noise, [.note cancelNote], rfl, Signal.raise_mem down up⟩
  only := by
    have quiet : begun noise = [] := List.eq_nil_iff_forall_not_mem.mpr fun call mem =>
      background.began_notMem call (mem_begun.mp mem)
    change o.markRunning :: begun (noise ++ _) = _
    rw [begun_append, quiet]
    rfl
  ends := rfl

/-- A rollout that began to mark its release as running could do so, was refused, or was
interrupted by shutdown. -/
theorem script_begun (h : o.script.Tells s events r later) (returns : r.Returns)
    (begins : .began .pass o.markRunning ∈ events) :
    o.announced ∈ events ∨ (∃ failure, .ended .pass o.markRunning (.failed failure) ∈ events) ∨
      LeftRunning o events r := by
  rw [script_eq] at h
  rcases h.bind_inv with ⟨⟨⟩, before, mid, rest, announced, _, rfl⟩ | ⟨r₁, stopped, stops⟩
  · obtain ⟨tail, rfl, asked⟩ := announced.note_inv
    rcases asked.request_inv with ⟨_, _, ending, _⟩ | ⟨_, noise, reply, _, _, rfl, ending⟩ |
      ⟨_, _, _, _, _, _, ending⟩
    · cases ending
    · cases reply with
      | ok answer => exact .inl (by simp [Order.announced])
      | _ => cases ending
    · cases ending
  · obtain ⟨tail, rfl, asked⟩ := stopped.note_inv
    rcases asked.request_inv with ⟨_, rfl, _, _⟩ |
      ⟨may, noise, reply, background, mayReply, rfl, rfl⟩ | ⟨_, _, _, _, _, _, rfl⟩
    · simp at begins
    · cases reply with
      | ok answer => cases stops
      | failed failure => exact .inr (.inl ⟨failure, by simp⟩)
      | panicked text =>
        cases stops
        exact absurd returns RunEnd.not_returns_panic
      | cancelled =>
        cases stops
        exact .inr (.inr (leftRunning_of_interrupted may background mayReply))
    · cases stops
      exact absurd returns RunEnd.not_returns_hung

/-- In every run that returns, and in which the release began to be marked as running and that
was not refused, the final state is written later, unless shutdown arrived meanwhile. -/
theorem run_leftRunning {σ : Type} (o : Order) (c : Collaborators σ) (horizon : Horizon)
    (signal : Signal) (schedule : List (Nat × SignalChange)) (memory : σ)
    (returns : (o.run c horizon (.start signal schedule memory)).2.Returns)
    (begins : .began .pass o.markRunning ∈
      (o.run c horizon (.start signal schedule memory)).1.events)
    (unrefused : ∀ failure, .ended .pass o.markRunning (.failed failure) ∉
      (o.run c horizon (.start signal schedule memory)).1.events) :
    ¬ o.Finalises (o.run c horizon (.start signal schedule memory)).1.events ↔
      LeftRunning o (o.run c horizon (.start signal schedule memory)).1.events
        (o.run c horizon (.start signal schedule memory)).2 := by
  have h := o.run_tells c horizon signal schedule memory
  constructor
  · intro stays
    rcases script_begun h returns begins with announced | ⟨failure, refused⟩ | left
    · have course := script_course h.speaks
      rw [← announced_mem_transcript] at announced
      exact absurd (course.finalises returns announced).of_transcript stays
    · exact absurd refused (unrefused failure)
    · exact left
  · intro left
    exact not_finalises_of_only left.only

end Order

namespace Rehearsal

/-- It takes five seconds to mark the release as running, and waits take seven. -/
def slowRules : List Rule :=
  [{ callName := "set_status", target := some "running", actions := [.sleep 5000] },
    { callName := "wait_for_state", actions := [.sleep 7000] }]

def slowRun (shutdown : Nat) : World Progress × RunEnd Unit :=
  loneOrder.run byRules ⟨60000, false⟩ (.start {} [(shutdown, .raise)] (ofRules slowRules))

def marks : Event → Bool
  | .ended .pass made (.failed _) => made.role ≠ .opening
  | _ => true

theorem unrefused_of_marks {events : List Event} (all : events.all marks = true)
    (failure : Failure) : .ended .pass loneOrder.markRunning (.failed failure) ∉ events := by
  intro mem
  have kept := List.all_eq_true.mp all _ mem
  exact absurd kept Bool.false_ne_true

/-- If shutdown arrives during the wait, the release that is marked gets its final state. -/
theorem slowRun_finalises : (slowRun 7000).2 = .exit (.error .cancelled) ∧
    loneOrder.Finalises (slowRun 7000).1.events := by
  refine ⟨rfl, Classical.byContradiction fun stays => ?_⟩
  have left := (Order.run_leftRunning loneOrder byRules ⟨60000, false⟩ {} [(7000, .raise)]
    (ofRules slowRules) (.inr ⟨_, rfl⟩)
    (List.mem_of_getElem? (show (slowRun 7000).1.events[1]? = _ from rfl))
    (unrefused_of_marks rfl)).mp stays
  have calls : (begun (slowRun 7000).1.events).length = 7 := rfl
  have only : begun (slowRun 7000).1.events = [loneOrder.markRunning] := left.only
  rw [only] at calls
  cases calls

/-- If it arrives while the release is being marked, the release gets none. -/
theorem slowRun_stays : (slowRun 2000).2.Returns ∧
    .began .pass loneOrder.markRunning ∈ (slowRun 2000).1.events ∧
    (∀ failure, .ended .pass loneOrder.markRunning (.failed failure) ∉
      (slowRun 2000).1.events) ∧
    ¬ loneOrder.Finalises (slowRun 2000).1.events :=
  ⟨.inr ⟨_, rfl⟩, List.mem_of_getElem? (show (slowRun 2000).1.events[1]? = _ from rfl),
    unrefused_of_marks rfl, Order.not_finalises_of_only rfl⟩

end Rehearsal

end Rollout
