import Rollout.Run

/-!
# Stories

A script tells a story: the calls that it makes with their replies and the notes in between,
among whatever happens around it. `Script.Tells` says which stories a script may tell, whatever
the collaborators do and however much time passes. A run of the script tells one of them, so a
law about all stories of a script is a law about all of its runs.
-/

namespace Rollout

/-- What a story depends on: the signal, and the call that is made again and again in the
background, if leases are being renewed. -/
structure Stage where
  signal : Signal := {}
  renewing : Option Call := none

namespace Signal

def see (s : Signal) : Event → Signal
  | .signal c => s.change c
  | _ => s

def after (s : Signal) (events : List Event) : Signal := events.foldl see s

@[simp] theorem after_cons (s : Signal) (e : Event) (events : List Event) :
    s.after (e :: events) = (s.see e).after events := rfl

@[simp] theorem after_append (s : Signal) (before later : List Event) :
    s.after (before ++ later) = (s.after before).after later :=
  List.foldl_append

theorem after_eq_self {s : Signal} {events : List Event}
    (still : ∀ e ∈ events, ∀ c, e ≠ .signal c) : s.after events = s := by
  induction events with
  | nil => rfl
  | cons e events ih =>
    have same : s.see e = s := by
      cases e with
      | signal c => exact absurd rfl (still _ (by simp) c)
      | _ => rfl
    rw [after_cons, same]
    exact ih fun e mem => still e (List.mem_cons_of_mem _ mem)

/-- The signal is raised at no point of the events. -/
def StaysDown (s : Signal) (events : List Event) : Prop :=
  ∀ before later, events = before ++ later → (s.after before).raised = false

theorem StaysDown.of_still {s : Signal} {events : List Event} (down : s.raised = false)
    (still : ∀ c, .signal c ∉ events) : s.StaysDown events := by
  rintro before later rfl
  rw [after_eq_self, down]
  rintro e mem c rfl
  exact still c (List.mem_append_left later mem)

theorem StaysDown.start {s : Signal} {events : List Event} (down : s.StaysDown events) :
    s.raised = false := down [] events rfl

theorem staysDown_append {s : Signal} {before later : List Event} :
    s.StaysDown (before ++ later) ↔ s.StaysDown before ∧ (s.after before).StaysDown later := by
  constructor
  · intro down
    constructor
    · intro first second eq
      exact down first (second ++ later) (by simp [eq])
    · intro first second eq
      simpa using down (before ++ first) second (by simp [eq])
  · rintro ⟨first, second⟩ x y eq
    rcases List.append_eq_append_iff.mp eq.symm with ⟨z, rfl, rfl⟩ | ⟨z, rfl, rfl⟩
    · exact first x z rfl
    · simpa using second z y rfl

end Signal

namespace Stage

/-- What may happen while a script waits: changes of the signal, and the doings of the loop
that renews the leases. -/
def Admits (s : Stage) : Event → Prop
  | .signal _ => True
  | .renewalLog _ => True
  | .began .renewal call => s.renewing = some call
  | .ended .renewal call _ => s.renewing = some call
  | .began .pass _ => False
  | .ended .pass .. => False
  | .note _ => False

structure Background (s : Stage) (events : List Event) (later : Stage) : Prop where
  admitted : ∀ e ∈ events, s.Admits e
  signal : later.signal = s.signal.after events
  renewing : later.renewing = s.renewing

namespace Background

variable {s mid later : Stage} {events rest : List Event}

theorem refl (s : Stage) : s.Background [] s := ⟨by simp, rfl, rfl⟩

theorem admits_congr (same : mid.renewing = s.renewing) (e : Event) :
    mid.Admits e ↔ s.Admits e := by
  rcases e with ⟨actor, call⟩ | ⟨actor, call, reply⟩ | n | record | change
  · cases actor <;> simp [Admits, same]
  · cases actor <;> simp [Admits, same]
  · simp [Admits]
  · simp [Admits]
  · simp [Admits]

theorem trans (first : s.Background events mid) (second : mid.Background rest later) :
    s.Background (events ++ rest) later where
  admitted := by
    intro e mem
    rcases List.mem_append.mp mem with mem | mem
    · exact first.admitted e mem
    · exact (admits_congr first.renewing e).mp (second.admitted e mem)
  signal := by rw [second.signal, first.signal, Signal.after_append]
  renewing := second.renewing.trans first.renewing

end Background

def alone (s : Stage) : Stage := { s with renewing := none }

def renewingBy (s : Stage) (call : Call) : Stage := { s with renewing := some call }

/-- Whether a call is made at all: one that shutdown interrupts is not begun under a raised
signal. -/
def MayBegin (s : Stage) (call : Call) : Prop :=
  ¬ (call.cancellable = true ∧ s.signal.raised = true)

/-- Only a raised signal cancels a call, and only one that shutdown interrupts. -/
def MayReply (s : Stage) (call : Call) (reply : Reply call.Answer) : Prop :=
  reply = .cancelled → call.cancellable = true ∧ s.signal.raised = true

end Stage

variable {α β : Type}

/-- The stories that a script may tell on a stage, with how they end and the stage then. -/
inductive Script.Tells : Script α → Stage → List Event → RunEnd α → Stage → Prop
  | done {exit s} : Tells (.done exit) s [] (.exit exit) s
  | note {n next s events r later} :
    Tells next s events r later → Tells (.note n next) s (.note n :: events) r later
  | checkpoint {next s events r later} :
    Tells (next s.signal.raised) s events r later → Tells (.checkpoint next) s events r later
  /-- A call that is not begun. -/
  | refused {call next s events r later} :
    ¬ s.MayBegin call → Tells (next .cancelled) s events r later →
      Tells (.call call next) s events r later
  | answered {call next s noise mid reply events r later} :
    s.MayBegin call → s.Background noise mid → mid.MayReply call reply →
      Tells (next reply) mid events r later →
        Tells (.call call next) s
          (.began .pass call :: noise ++ .ended .pass call reply :: events) r later
  /-- A call that does not end while the run is watched. -/
  | unanswered {call next s noise mid} :
    s.MayBegin call → s.Background noise mid →
      Tells (.call call next) s (.began .pass call :: noise) .hung mid.alone
  | startRenewal {machines ttl interval next s logs events r later} :
    (∀ e ∈ logs, ∃ record, e = .renewalLog record) →
      Tells next (s.renewingBy (.acquire machines ttl)) events r later →
        Tells (.startRenewal machines ttl interval next) s (logs ++ events) r later
  | stopRenewal {next s closing mid events r later} :
    s.Background closing mid → Tells next mid.alone events r later →
      Tells (.stopRenewal next) s (closing ++ events) r later
  /-- The end of the loop is not seen any more. -/
  | cutOff {next s closing mid} :
    s.Background closing mid → Tells (.stopRenewal next) s closing .hung mid.alone

/-- An end that a script hands on from its first part without going on. -/
inductive RunEnd.StopsAs : RunEnd α → RunEnd β → Prop
  | error (e : DeployError) : StopsAs (.exit (.error e)) (.exit (.error e))
  | panic (text : String) : StopsAs (.exit (.panic text)) (.exit (.panic text))
  | hung : StopsAs .hung .hung

namespace Script.Tells

variable {s later : Stage} {events : List Event}

theorem done_inv {exit : Exit α} {r : RunEnd α} (h : (Script.done exit).Tells s events r later) :
    events = [] ∧ r = .exit exit ∧ later = s := by
  cases h with
  | done => exact ⟨rfl, rfl, rfl⟩

theorem note_inv {n : Note} {next : Script α} {r : RunEnd α}
    (h : (Script.note n next).Tells s events r later) :
    ∃ rest, events = .note n :: rest ∧ next.Tells s rest r later := by
  cases h with
  | note tail => exact ⟨_, rfl, tail⟩

/-- The signal changes as the events say. -/
theorem signal {script : Script α} {r : RunEnd α} (h : script.Tells s events r later) :
    later.signal = s.signal.after events := by
  induction h with
  | done => rfl
  | note tail ih => exact ih
  | checkpoint tail ih => exact ih
  | refused may tail ih => exact ih
  | answered may background mayReply tail ih => simp [ih, background.signal, Signal.see]
  | unanswered may background => exact background.signal
  | @startRenewal _ _ _ _ _ logs _ _ _ logged tail ih =>
    have same : ∀ signal : Signal, signal.after logs = signal := fun signal =>
      Signal.after_eq_self fun e mem c eq => by
        obtain ⟨record, rfl⟩ := logged e mem
        cases eq
    rw [ih, Signal.after_append, same]
    rfl
  | stopRenewal background tail ih =>
    rw [ih, Signal.after_append, ← background.signal]
    rfl
  | cutOff background => exact background.signal

/-- A story of two scripts in a row is one of the first, cut short or followed by one of the
second. -/
theorem bind_inv {first : Script α} {next : α → Script β} {r : RunEnd β}
    (h : (first >>= next).Tells s events r later) :
    (∃ a before mid rest, first.Tells s before (.exit (.ok a)) mid ∧
      (next a).Tells mid rest r later ∧ events = before ++ rest) ∨
    ∃ r₁ : RunEnd α, first.Tells s events r₁ later ∧ r₁.StopsAs r := by
  change (first.bind next).Tells s events r later at h
  induction first generalizing s events with
  | done exit =>
    cases exit with
    | ok a => exact .inl ⟨a, [], s, events, .done, h, rfl⟩
    | error e =>
      obtain ⟨rfl, rfl, rfl⟩ := h.done_inv
      exact .inr ⟨_, .done, .error e⟩
    | panic text =>
      obtain ⟨rfl, rfl, rfl⟩ := h.done_inv
      exact .inr ⟨_, .done, .panic text⟩
  | note n first ih =>
    cases h with
    | note h =>
      rcases ih h with ⟨a, before, mid, rest, h₁, h₂, rfl⟩ | ⟨r₁, h₁, stops⟩
      · exact .inl ⟨a, _, mid, rest, .note h₁, h₂, rfl⟩
      · exact .inr ⟨r₁, .note h₁, stops⟩
  | checkpoint first ih =>
    cases h with
    | checkpoint h =>
      rcases ih _ h with ⟨a, before, mid, rest, h₁, h₂, rfl⟩ | ⟨r₁, h₁, stops⟩
      · exact .inl ⟨a, _, mid, rest, .checkpoint h₁, h₂, rfl⟩
      · exact .inr ⟨r₁, .checkpoint h₁, stops⟩
  | call made first ih =>
    cases h with
    | refused may h =>
      rcases ih _ h with ⟨a, before, mid, rest, h₁, h₂, rfl⟩ | ⟨r₁, h₁, stops⟩
      · exact .inl ⟨a, _, mid, rest, .refused may h₁, h₂, rfl⟩
      · exact .inr ⟨r₁, .refused may h₁, stops⟩
    | answered may noise reply h =>
      rcases ih _ h with ⟨a, before, mid, rest, h₁, h₂, rfl⟩ | ⟨r₁, h₁, stops⟩
      · exact .inl ⟨a, _, mid, rest, .answered may noise reply h₁, h₂, by simp⟩
      · exact .inr ⟨r₁, .answered may noise reply h₁, stops⟩
    | unanswered may noise => exact .inr ⟨.hung, .unanswered may noise, .hung⟩
  | startRenewal machines ttl interval first ih =>
    cases h with
    | startRenewal logs h =>
      rcases ih h with ⟨a, before, mid, rest, h₁, h₂, rfl⟩ | ⟨r₁, h₁, stops⟩
      · exact .inl ⟨a, _, mid, rest, .startRenewal logs h₁, h₂, by simp⟩
      · exact .inr ⟨r₁, .startRenewal logs h₁, stops⟩
  | stopRenewal first ih =>
    cases h with
    | stopRenewal closing h =>
      rcases ih h with ⟨a, before, mid, rest, h₁, h₂, rfl⟩ | ⟨r₁, h₁, stops⟩
      · exact .inl ⟨a, _, mid, rest, .stopRenewal closing h₁, h₂, by simp⟩
      · exact .inr ⟨r₁, .stopRenewal closing h₁, stops⟩
    | cutOff closing => exact .inr ⟨.hung, .cutOff closing, .hung⟩

/-- An attempt tells what the script tells; only a run that is not seen to its end ends
otherwise than well. -/
theorem attempt_inv {first : Script α} {r : RunEnd (Exit α)}
    (h : first.attempt.Tells s events r later) :
    (∃ exit, first.Tells s events (.exit exit) later ∧ r = .exit (.ok exit)) ∨
    (first.Tells s events .hung later ∧ r = .hung) := by
  induction first generalizing s events with
  | done exit =>
    obtain ⟨rfl, rfl, rfl⟩ := h.done_inv
    exact .inl ⟨exit, .done, rfl⟩
  | note n first ih =>
    cases h with
    | note h =>
      rcases ih h with ⟨exit, h₁, rfl⟩ | ⟨h₁, rfl⟩
      · exact .inl ⟨exit, .note h₁, rfl⟩
      · exact .inr ⟨.note h₁, rfl⟩
  | checkpoint first ih =>
    cases h with
    | checkpoint h =>
      rcases ih _ h with ⟨exit, h₁, rfl⟩ | ⟨h₁, rfl⟩
      · exact .inl ⟨exit, .checkpoint h₁, rfl⟩
      · exact .inr ⟨.checkpoint h₁, rfl⟩
  | call made first ih =>
    cases h with
    | refused may h =>
      rcases ih _ h with ⟨exit, h₁, rfl⟩ | ⟨h₁, rfl⟩
      · exact .inl ⟨exit, .refused may h₁, rfl⟩
      · exact .inr ⟨.refused may h₁, rfl⟩
    | answered may noise reply h =>
      rcases ih _ h with ⟨exit, h₁, rfl⟩ | ⟨h₁, rfl⟩
      · exact .inl ⟨exit, .answered may noise reply h₁, rfl⟩
      · exact .inr ⟨.answered may noise reply h₁, rfl⟩
    | unanswered may noise => exact .inr ⟨.unanswered may noise, rfl⟩
  | startRenewal machines ttl interval first ih =>
    cases h with
    | startRenewal logs h =>
      rcases ih h with ⟨exit, h₁, rfl⟩ | ⟨h₁, rfl⟩
      · exact .inl ⟨exit, .startRenewal logs h₁, rfl⟩
      · exact .inr ⟨.startRenewal logs h₁, rfl⟩
  | stopRenewal first ih =>
    cases h with
    | stopRenewal closing h =>
      rcases ih h with ⟨exit, h₁, rfl⟩ | ⟨h₁, rfl⟩
      · exact .inl ⟨exit, .stopRenewal closing h₁, rfl⟩
      · exact .inr ⟨.stopRenewal closing h₁, rfl⟩
    | cutOff closing => exact .inr ⟨.cutOff closing, rfl⟩

end Script.Tells

namespace Script

/-- What is told when a script gives up because of shutdown. -/
def cancelNote : Note := .log ⟨.info, "Rollout cancelled", []⟩

def aftermath : Reply α → List Event
  | .cancelled => [.note cancelNote]
  | _ => []

def settle (blame : Failure → DeployError) : Reply α → Exit α
  | .ok answer => .ok answer
  | .failed failure => .error (blame failure)
  | .panicked text => .panic text
  | .cancelled => .error .cancelled

def carry : Reply α → Exit (Except Failure α)
  | .ok answer => .ok (.ok answer)
  | .failed failure => .ok (.error failure)
  | .panicked text => .panic text
  | .cancelled => .error .cancelled

namespace Tells

variable {s later : Stage} {events : List Event}

theorem cancel_inv {r : RunEnd α} (h : (cancel : Script α).Tells s events r later) :
    events = [.note cancelNote] ∧ r = .exit (.error .cancelled) ∧ later = s := by
  obtain ⟨rest, rfl, tail⟩ := note_inv h
  obtain ⟨rfl, rfl, rfl⟩ := done_inv tail
  exact ⟨rfl, rfl, rfl⟩

/-- The stories of a request: it is not begun, or is replied to, or hangs. -/
theorem request_inv {blame : Failure → DeployError} {call : Call} {r : RunEnd call.Answer}
    (h : (request blame call).Tells s events r later) :
    (¬ s.MayBegin call ∧ events = [.note cancelNote] ∧ r = .exit (.error .cancelled) ∧
      later = s) ∨
    (s.MayBegin call ∧ ∃ noise reply, s.Background noise later ∧ later.MayReply call reply ∧
      events = .began .pass call :: noise ++ .ended .pass call reply :: aftermath reply ∧
      r = .exit (settle blame reply)) ∨
    (s.MayBegin call ∧ ∃ noise mid, s.Background noise mid ∧ later = mid.alone ∧
      events = .began .pass call :: noise ∧ r = .hung) := by
  cases h with
  | refused may h =>
    obtain ⟨rfl, rfl, rfl⟩ := cancel_inv h
    exact .inl ⟨may, rfl, rfl, rfl⟩
  | @answered _ _ _ noise mid reply _ _ _ may background mayReply h =>
    refine .inr (.inl ⟨may, noise, reply, ?_⟩)
    cases reply with
    | cancelled =>
      obtain ⟨rfl, rfl, rfl⟩ := cancel_inv h
      exact ⟨background, mayReply, rfl, rfl⟩
    | ok answer =>
      obtain ⟨rfl, rfl, rfl⟩ := done_inv h
      exact ⟨background, mayReply, rfl, rfl⟩
    | failed failure =>
      obtain ⟨rfl, rfl, rfl⟩ := done_inv h
      exact ⟨background, mayReply, rfl, rfl⟩
    | panicked text =>
      obtain ⟨rfl, rfl, rfl⟩ := done_inv h
      exact ⟨background, mayReply, rfl, rfl⟩
  | unanswered may background => exact .inr (.inr ⟨may, _, _, background, rfl, rfl, rfl⟩)

/-- The stories of a call that is carried through: it is replied to or hangs. -/
theorem carryThrough_inv {call : Call} {r : RunEnd (Except Failure call.Answer)}
    (carried : call.cancellable = false) (h : (carryThrough call).Tells s events r later) :
    (∃ noise reply, s.Background noise later ∧ reply ≠ .cancelled ∧
      events = .began .pass call :: noise ++ [.ended .pass call reply] ∧
      r = .exit (carry reply)) ∨
    (∃ noise mid, s.Background noise mid ∧ later = mid.alone ∧
      events = .began .pass call :: noise ∧ r = .hung) := by
  cases h with
  | refused may h => exact absurd (fun interrupted => by simp [carried] at interrupted) may
  | @answered _ _ _ noise mid reply _ _ _ may background mayReply h =>
    refine .inl ⟨noise, reply, ?_⟩
    cases reply with
    | cancelled => exact absurd (mayReply rfl).1 (by simp [carried])
    | ok answer =>
      obtain ⟨rfl, rfl, rfl⟩ := done_inv h
      exact ⟨background, by simp, rfl, rfl⟩
    | failed failure =>
      obtain ⟨rfl, rfl, rfl⟩ := done_inv h
      exact ⟨background, by simp, rfl, rfl⟩
    | panicked text =>
      obtain ⟨rfl, rfl, rfl⟩ := done_inv h
      exact ⟨background, by simp, rfl, rfl⟩
  | unanswered may background => exact .inr ⟨_, _, background, rfl, rfl, rfl⟩

end Tells

end Script

end Rollout
