import Rollout.Proofs.Ending
import Rollout.Proofs.Promptness

/-!
# Shutdown cancels a rollout

Once shutdown is requested for good, no call is begun that it interrupts, and one that is under way
is abandoned in the very step of the request. Under either strategy that ends the rollout as
cancelled: no other machine is touched. What is still called is what may not be left undone, as in
every rollout: the leases are given back, and the release gets its final state.
-/

namespace Rollout

open Script

variable {σ : Type}

/-- A call of the pass was not made, or was abandoned, because of shutdown. -/
def Foiled (events : List Event) : Prop :=
  .note cancelNote ∈ events ∨ ∃ call, .ended .pass call .cancelled ∈ events

/-- What happens in a rollout with this trace from the event on with which shutdown is requested for
good. -/
structure Cancellation (o : Order) (c : Collaborators σ) (memory : σ) (horizon : Horizon)
    (trace before : Trace) (t : Nat) (later : Trace) (r : RunEnd Unit) : Prop where
  /-- No call is begun that shutdown interrupts. -/
  refused : ∀ call ∈ begun later.events, call.cancellable = false
  /-- A call that is under way, and that shutdown interrupts, is abandoned at once. -/
  pending : ∀ x start call noise, Pending x start call noise before → call.cancellable = true →
    Fate c memory horizon x start call t later r
  /-- A rollout whose pass could not do all of its work because of shutdown ends as cancelled, under
  either strategy, and is not marked as complete. -/
  foiled : Foiled trace.events → EndsWith trace.events r (.error .cancelled) ∧
    o.markComplete ∉ begun trace.events
  /-- What is still called is carried through: the leases are given back if they were acquired, and
  the release gets its final state if it was marked as running and nothing panics. -/
  closing : ∃ work returned marked, Closing o (transcript trace.events) r work returned marked ∧
    begun later.events <:+ returned ++ marked
  /-- If the rollout is not watched to its end it still waits for a call that is carried through,
  unless the watch ended before shutdown was requested. -/
  waits : r = .hung → horizon.time ≤ t ∨
    ∃ x start call noise, Pending x start call noise trace ∧ call.cancellable = false

/-- No call that shutdown interrupts is begun under a raised signal. -/
theorem Script.Tells.began_under {α : Type} {script : Script α} {s later : Stage}
    {events u v : List Event} {r : RunEnd α} {call : Call} (h : script.Tells s events r later)
    (eq : events = u ++ .began .pass call :: v) (interrupts : call.cancellable = true) :
    (s.signal.after u).raised = false := by
  have opened : ∀ {s : Stage}, s.MayBegin call → s.signal.raised = false := by
    intro s may
    simpa [Stage.MayBegin, interrupts] using may
  induction h generalizing u with
  | done => simp at eq
  | note _ ih =>
    cases u with
    | nil => cases eq
    | cons _ u =>
      cases eq
      exact ih (u := u) rfl
  | checkpoint _ ih => exact ih eq
  | refused _ _ ih => exact ih eq
  | @answered made _ s noise mid reply events _ _ may background _ _ ih =>
    cases u with
    | nil =>
      cases eq
      exact opened may
    | cons _ u =>
      have tail : noise ++ (.ended .pass made reply :: events) = u ++ .began .pass call :: v := by
        simpa using (List.cons.inj eq).2
      obtain ⟨u', rfl, tail'⟩ := split_later tail (background.began_notMem call)
      cases u' with
      | nil => cases tail'
      | cons _ u' =>
        cases tail'
        have first := (List.cons.inj eq).1
        have low := ih (u := u') rfl
        rw [background.signal] at low
        subst first
        simpa [Signal.see] using low
  | unanswered may background =>
    obtain ⟨rfl, same, _⟩ := split_head (background.began_notMem call) eq
    cases same
    exact opened may
  | @startRenewal _ _ _ _ s logs _ _ _ logged _ ih =>
    have none : .began .pass call ∉ logs := fun mem => by
      obtain ⟨record, eq⟩ := logged _ mem
      cases eq
    have still : s.signal.after logs = s.signal := Signal.after_eq_self fun e mem c eq => by
      obtain ⟨record, rfl⟩ := logged e mem
      cases eq
    obtain ⟨u', rfl, tail⟩ := split_later eq none
    rw [Signal.after_append, still]
    exact ih tail
  | stopRenewal background _ ih =>
    obtain ⟨u', rfl, tail⟩ := split_later eq (background.began_notMem call)
    rw [Signal.after_append, ← background.signal]
    exact ih tail
  | cutOff background => exact absurd (by simp [eq]) (background.began_notMem call)

/-- From an alarm on no call is begun that shutdown interrupts. -/
theorem Script.Tells.refused_of_alarm {α : Type} {script : Script α} {s end_ : Stage}
    {trace before later : Trace} {t : Nat} {r : RunEnd α}
    (h : script.Tells s trace.events r end_) (alarm : Alarm s.signal trace before t later) :
    ∀ call ∈ begun later.events, call.cancellable = false := by
  intro call mem
  obtain ⟨u, v, split⟩ := List.append_of_mem (mem_begun.mp mem)
  have whole : trace.events = (before.events ++ .signal .raise :: u) ++ .began .pass call :: v := by
    rw [alarm.splits, Trace.events_append, Trace.events_cons, split]
    simp
  have up := alarm.stays u (.began .pass call :: v) split
  cases interrupts : call.cancellable with
  | false => rfl
  | true =>
    have low := h.began_under whole interrupts
    rw [Signal.after_append] at low
    rw [← low, ← up]
    rfl

/-- What has a property and comes after what has not comes last. -/
theorem suffix_of_append_eq {α : Type} {p : α → Prop} {before later first second : List α}
    (eq : before ++ later = first ++ second) (all : ∀ a ∈ first, p a) (none : ∀ a ∈ later, ¬ p a) :
    later <:+ second := by
  rcases List.append_eq_append_iff.mp eq with ⟨mid, rfl, rfl⟩ | ⟨mid, _, rfl⟩
  · cases mid with
    | nil => exact List.suffix_rfl
    | cons a mid => exact absurd (all a (by simp)) (none a (by simp))
  · exact List.suffix_append mid later

namespace Order

section Course

variable {o : Order} {calm : Prop} {x : List Event}

/-- A pass that does not end waits for a call that shutdown interrupts, or gives the leases back. -/
theorem passage_hung (passage : o.Passage calm x .hung) :
    Interruptible x ∨ ∃ u, x = u ++ [.began .pass o.handback] := by
  generalize ending : RunEnd.hung = r at passage
  cases passage with
  | barred stopped => exact .inl (barred_cancellable stopped)
  | @admitted x y z _ _ whole work handed =>
    have interruptible : Interruptible (x ++ (o.foreword ++ (y ++ []))) := by
      intro call mem
      simp only [begun_append, begun_foreword, List.append_nil, List.nil_append] at mem
      rcases List.mem_append.mp mem with mem | mem
      · exact admitted_cancellable whole call mem
      · exact work_cancellable work call mem
    cases handed with
    | hung => exact .inl interruptible
    | cutOff => exact .inl interruptible
    | unanswered => exact .inr ⟨x ++ (o.foreword ++ y), by simp⟩
    | answered _ => cases ending

/-- A rollout that does not end waits for a call that shutdown interrupts, or for the last one that
it has begun. -/
theorem course_hung (course : o.Course calm x .hung) :
    Interruptible x ∨ ∃ u call, x = u ++ [.began .pass call] ∧ call.cancellable = false := by
  generalize ending : RunEnd.hung = r at course
  cases course with
  | unannounced breaks =>
    left
    intro call mem
    obtain rfl := breaks.begun_eq mem
    rfl
  | @announced x y _ _ passage concluded =>
    cases concluded with
    | hung =>
      rw [List.append_nil]
      rcases passage_hung passage with interruptible | ⟨u, rfl⟩
      · left
        intro call mem
        rcases List.mem_append.mp (begun_append _ _ ▸ mem) with mem | mem
        · cases List.mem_singleton.mp mem
          rfl
        · exact interruptible call mem
      · exact .inr ⟨exchange o.markRunning () ++ u, o.handback, by simp, rfl⟩
    | completing => exact .inr ⟨exchange o.markRunning () ++ x, o.markComplete, by simp, rfl⟩
    | failing => exact .inr ⟨exchange o.markRunning () ++ x, o.markFailed, by simp, rfl⟩
    | panicked => cases ending
    | succeeded _ => cases ending
    | failed _ => cases ending

variable {trace before later : Trace} {s : Signal} {t : Nat} {horizon : Horizon}

/-- From an alarm on the only calls are those that are carried through in the end. -/
theorem closing_of_alarm (course : o.Course False (transcript trace.events) r)
    (alarm : Alarm s trace before t later)
    (refused : ∀ call ∈ begun later.events, call.cancellable = false) :
    ∃ work returned marked, Closing o (transcript trace.events) r work returned marked ∧
      begun later.events <:+ returned ++ marked := by
  obtain ⟨work, returned, marked, closing⟩ := course.closing
  refine ⟨work, returned, marked, closing, ?_⟩
  have calls : (begun before.events ++ begun later.events) = work ++ (returned ++ marked) := by
    rw [← closing.whole, begun_transcript, alarm.splits, Trace.events_append, Trace.events_cons,
      begun_append]
    rfl
  refine suffix_of_append_eq calls closing.cancellable fun call mem => ?_
  rw [refused call mem]
  exact Bool.false_ne_true

theorem waits_of_alarm (course : o.Course calm (transcript trace.events) .hung)
    (prompt : Interruptible trace.events → horizon.time ≤ t) : horizon.time ≤ t ∨
      ∃ x start call noise, Pending x start call noise trace ∧ call.cancellable = false := by
  rcases course_hung course with interruptible | ⟨u, call, eq, carried⟩
  · rw [Interruptible, begun_transcript] at interruptible
    exact .inl (prompt interruptible)
  · obtain ⟨_, noise, split, _, silent⟩ := split_transcript eq
    obtain ⟨x, start, noise, splits, rfl⟩ := Trace.split_events split
    refine .inr ⟨x, start, call, noise, ⟨splits, fun made reply mem => ?_⟩, carried⟩
    have kept : .ended .pass made reply ∈ transcript (Trace.events noise) :=
      (mem_transcript rfl).mpr mem
    rw [silent] at kept
    cases kept

end Course

section Story

variable {o : Order} {s later : Stage} {events : List Event} {r : RunEnd Unit}

theorem cancelled_mem_stops (foiled : Foiled events) : .error .cancelled ∈ stops events := by
  rcases foiled with noted | ⟨call, abandoned⟩
  · exact mem_stops_of_mem noted (by simp [Event.stop?])
  · exact mem_stops_of_mem abandoned rfl

/-- A rollout whose pass is foiled ends as cancelled. -/
theorem script_foiled (h : o.script.Tells s events r later) (foiled : Foiled events) :
    EndsWith events r (.error .cancelled) ∧ o.markComplete ∉ begun events := by
  have course := script_course h.speaks
  have cancelled : .error .cancelled ∈ stops (transcript events) := by
    rw [stops_transcript]
    exact cancelled_mem_stops foiled
  constructor
  · exact (course.endsWith _ cancelled).mono (List.filter_subset_self events)
  · rw [← begun_transcript]
    exact course.complete_notMem cancelled

/-- Under a raised signal a rollout does not even begin. -/
theorem script_under (raised : s.signal.raised = true) (h : o.script.Tells s events r later) :
    (∀ e ∈ events, ∃ n, e = .note n) ∧ r = .exit (.error .cancelled) := by
  have closed : ¬ s.MayBegin o.markRunning := fun may => may ⟨rfl, raised⟩
  rw [script_eq] at h
  rcases h.bind_inv with ⟨_, _, _, _, announced, _, _⟩ | ⟨r₁, announced, stopped⟩
  · obtain ⟨rest, rfl, asked⟩ := announced.note_inv
    rcases asked.request_inv with ⟨_, _, ending, _⟩ | ⟨may, _⟩ | ⟨may, _⟩
    · cases ending
    · exact absurd may closed
    · exact absurd may closed
  · obtain ⟨rest, rfl, asked⟩ := announced.note_inv
    rcases asked.request_inv with ⟨_, rfl, rfl, _⟩ | ⟨may, _⟩ | ⟨may, _⟩
    · cases stopped
      exact ⟨by simp, rfl⟩
    · exact absurd may closed
    · exact absurd may closed

end Story

/-- In every run of a rollout in which shutdown is requested for good, that cancels the rollout. If
it is requested from the start, the rollout calls nobody. -/
theorem run_cancellation {σ : Type} (o : Order) (c : Collaborators σ) (horizon : Horizon)
    (signal : Signal) (schedule : List (Nat × SignalChange)) (memory : σ) :
    (∀ before t later,
      Alarm signal (o.run c horizon (.start signal schedule memory)).1.trace before t later →
        Cancellation o c memory horizon (o.run c horizon (.start signal schedule memory)).1.trace
          before t later (o.run c horizon (.start signal schedule memory)).2) ∧
    (signal.raised = true →
      (∀ e ∈ (o.run c horizon (.start signal schedule memory)).1.events, ∃ n, e = .note n) ∧
        (o.run c horizon (.start signal schedule memory)).2 = .exit (.error .cancelled)) := by
  have h := o.run_tells c horizon signal schedule memory
  refine ⟨fun before t later alarm => ?_, fun raised => script_under raised h⟩
  -- The trace of a run is all that it gains, as the world starts with none.
  obtain ⟨new, gains, fated⟩ := o.script.run_fated c horizon (.start signal schedule memory)
  have all : (o.run c horizon (.start signal schedule memory)).1.trace = new := gains.trace
  subst all
  have refused := h.refused_of_alarm alarm
  have course := script_course (h.speaks_of False.elim)
  refine ⟨refused, ?_, script_foiled h, ?_, ?_⟩
  · intro x start call noise pending interrupts
    exact fated before t later x start call noise alarm pending interrupts
  · exact closing_of_alarm course alarm refused
  · intro hung
    rw [hung] at course
    refine waits_of_alarm course fun interruptible => ?_
    have prompt : Prompt horizon t (o.run c horizon (.start signal schedule memory)) :=
      Script.run_alarm gains alarm interruptible
    exact prompt.hung hung

end Order

namespace Rehearsal

def hastyOrder : Order := { loneOrder with settings := { strategy := .immediate } }

/-- Collaborators that do at once what they are asked for, but never end an update. -/
def stalling : Collaborators Unit where
  react _ _
    | .update .. => ((), .hang)
    | made => ((), (Fleet.react {} made).2)

def stalledRun : World Unit × RunEnd Unit :=
  hastyOrder.run stalling ⟨60000, false⟩ (.start {} [(7000, .raise)] ())

def isStill : Event → Bool
  | .signal _ => false
  | _ => true

theorem staysUp_of_still {s : Signal} {events : List Event} (raised : s.raised = true)
    (still : events.all isStill = true) : s.StaysUp events := by
  rintro before later rfl
  rw [Signal.after_eq_self]
  · exact raised
  · rintro e mem c rfl
    exact absurd (List.all_eq_true.mp still (.signal c) (by simp [mem])) Bool.false_ne_true

/-- The update is abandoned, and nothing is left to be tried after it. If shutdown is requested
before the rollout begins, it calls nobody. -/
theorem hastyOrder_cancellation : (∃ before later,
    Alarm {} stalledRun.1.trace before 7000 later ∧
    Cancellation hastyOrder stalling () ⟨60000, false⟩ stalledRun.1.trace before 7000 later
      stalledRun.2) ∧
    (∀ e ∈ (hastyOrder.run stalling ⟨60000, false⟩
      (.start { raised := true } [] ())).1.events, ∃ n, e = .note n) := by
  have alarm : Alarm {} stalledRun.1.trace (stalledRun.1.trace.take 15) 7000
      (stalledRun.1.trace.drop 16) := ⟨rfl, staysUp_of_still rfl rfl⟩
  obtain ⟨law, _⟩ :=
    Order.run_cancellation hastyOrder stalling ⟨60000, false⟩ {} [(7000, .raise)] ()
  obtain ⟨_, barred⟩ :=
    Order.run_cancellation hastyOrder stalling ⟨60000, false⟩ { raised := true } [] ()
  exact ⟨⟨_, _, alarm, law _ _ _ alarm⟩, (barred rfl).1⟩

example : (begun stalledRun.1.events).map Call.name = ["set_status", "release_command", "acquire",
    "update", "release", "set_status"] ∧ stalledRun.2 = .exit (.error .cancelled) := ⟨rfl, rfl⟩

end Rehearsal

end Rollout
