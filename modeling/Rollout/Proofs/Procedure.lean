import Rollout.Proofs.Following
import Rollout.Proofs.Transcript

/-!
# Procedures

A procedure is a row of calls, each made once the one before has succeeded; an answer may decide
which calls follow. Its transcripts are of two kinds: those in which every call succeeded, and
those that stop with a call that did not. A script performs a procedure if it has no other
transcripts than these.
-/

namespace Rollout

open Script

variable {α β : Type}

/-- A row of calls. Each is given with the error that its failure counts as. -/
inductive Procedure (α : Type)
  | finish (a : α)
  | call (c : Call) (blame : Failure → DeployError) (next : c.Answer → Procedure α)

namespace Procedure

def andThen : Procedure α → (α → Procedure β) → Procedure β
  | .finish a, q => q a
  | .call c blame next, q => .call c blame fun answer => (next answer).andThen q

/-- Every call of the procedure, whatever was answered before, is allowed. -/
def Uses (allowed : Call → Prop) : Procedure α → Prop
  | .finish _ => True
  | .call c _ next => allowed c ∧ ∀ answer, (next answer).Uses allowed

theorem Uses.andThen {allowed : Call → Prop} {p : Procedure α} {q : α → Procedure β}
    (uses : p.Uses allowed) (rest : ∀ a, (q a).Uses allowed) : (p.andThen q).Uses allowed := by
  induction p with
  | finish a => exact rest a
  | call c blame next ih => exact ⟨uses.1, fun answer => ih answer (uses.2 answer)⟩

theorem Uses.mono {allowed others : Call → Prop} {p : Procedure α}
    (implies : ∀ call, allowed call → others call) (uses : p.Uses allowed) : p.Uses others := by
  induction p with
  | finish a => trivial
  | call c blame next ih => exact ⟨implies c uses.1, fun answer => ih answer (uses.2 answer)⟩

/-- The transcripts of a procedure in which every call succeeded. -/
inductive Done : Procedure α → List Event → α → Prop
  | finish {a} : Done (.finish a) [] a
  | call {c blame next answer x a} :
    Done (next answer) x a → Done (.call c blame next) (exchange c answer ++ x) a

/-- The transcripts of a procedure that stops at a call, after the calls before have
succeeded. -/
inductive Stops (calm : Prop) : Procedure α → List Event → Stop → Prop
  | here {c blame next x stop} : Breaks calm blame c x stop → Stops calm (.call c blame next) x stop
  | later {c blame next answer x stop} :
    Stops calm (next answer) x stop → Stops calm (.call c blame next) (exchange c answer ++ x) stop

/-- A call is the next one of a procedure after calls that have all succeeded. -/
inductive Next : Procedure α → List Event → Call → (Failure → DeployError) → Prop
  | here {c blame next} : Next (.call c blame next) [] c blame
  | later {c blame next answer x made blame'} : Next (next answer) x made blame' →
    Next (.call c blame next) (exchange c answer ++ x) made blame'

variable {calm : Prop} {p : Procedure α} {q : α → Procedure β} {x y : List Event} {stop : Stop}

theorem Done.andThen {a : α} {b : β} (first : p.Done x a) (second : (q a).Done y b) :
    (p.andThen q).Done (x ++ y) b := by
  induction first with
  | finish => exact second
  | call _ ih =>
    rw [List.append_assoc]
    exact .call (ih second)

theorem Stops.andThen_left (first : p.Stops calm x stop) : (p.andThen q).Stops calm x stop := by
  induction first with
  | here breaks => exact .here breaks
  | later _ ih => exact .later ih

theorem Stops.andThen_right {a : α} (first : p.Done x a) (second : (q a).Stops calm y stop) :
    (p.andThen q).Stops calm (x ++ y) stop := by
  induction first with
  | finish => exact second
  | call _ ih =>
    rw [List.append_assoc]
    exact .later (ih second)

section Split

variable {c call : Call} {answer : c.Answer} {u v : List Event}

theorem split_exchange_began (eq : exchange c answer ++ x = u ++ .began .pass call :: v) :
    (u = [] ∧ c = call) ∨ ∃ u', u = exchange c answer ++ u' ∧ x = u' ++ .began .pass call :: v := by
  match u with
  | [] =>
    cases eq
    exact .inl ⟨rfl, rfl⟩
  | [_] => simp [exchange] at eq
  | _ :: _ :: u =>
    cases eq
    exact .inr ⟨u, rfl, rfl⟩

end Split

theorem Next.uses {allowed : Call → Prop} {call : Call} {blame : Failure → DeployError}
    (uses : p.Uses allowed) (next : p.Next x call blame) : allowed call := by
  induction next with
  | here => exact uses.1
  | later _ ih => exact ih (uses.2 _)

section Where

variable {call : Call} {blame : Failure → DeployError} {a : α} {u v : List Event}

theorem Done.next (whole : p.Done x a) (eq : x = u ++ .began .pass call :: v) :
    ∃ blame, p.Next u call blame := by
  induction whole generalizing u with
  | finish => simp at eq
  | call _ ih =>
    rcases split_exchange_began eq with ⟨rfl, rfl⟩ | ⟨u, rfl, rfl⟩
    · exact ⟨_, .here⟩
    · obtain ⟨blame, next⟩ := ih rfl
      exact ⟨blame, .later next⟩

/-- A procedure stops with its next call, after calls that have all succeeded. -/
theorem Stops.breaks (stops : p.Stops calm x stop) : ∃ current call blame y,
    p.Next current call blame ∧ Breaks calm blame call y stop ∧ x = current ++ y := by
  induction stops with
  | here breaks => exact ⟨[], _, _, _, .here, breaks, rfl⟩
  | later _ ih =>
    obtain ⟨current, call, blame, y, next, breaks, rfl⟩ := ih
    exact ⟨_, call, blame, y, .later next, breaks, by rw [List.append_assoc]⟩

theorem Next.next {made : Call} {blame' : Failure → DeployError} (next : p.Next x made blame')
    (eq : x = u ++ .began .pass call :: v) : ∃ blame, p.Next u call blame := by
  induction next generalizing u with
  | here => simp at eq
  | later _ ih =>
    rcases split_exchange_began eq with ⟨rfl, rfl⟩ | ⟨u, rfl, rfl⟩
    · exact ⟨_, .here⟩
    · obtain ⟨blame, next⟩ := ih rfl
      exact ⟨blame, .later next⟩

theorem Stops.next (stops : p.Stops calm x stop) (eq : x = u ++ .began .pass call :: v) :
    ∃ blame, p.Next u call blame := by
  obtain ⟨current, made, blame, y, next, breaks, rfl⟩ := stops.breaks
  rcases split_append eq with ⟨mid, rfl, tail⟩ | ⟨mid, head, _⟩
  · obtain ⟨rfl, rfl⟩ := breaks.next tail
    rw [List.append_nil]
    exact ⟨blame, next⟩
  · exact next.next head

/-- Every call of a procedure that is begun is one that it uses. -/
theorem Done.uses {allowed : Call → Prop} (uses : p.Uses allowed) (whole : p.Done x a) :
    ∀ call ∈ begun x, allowed call := by
  intro call mem
  obtain ⟨u, v, eq⟩ := List.append_of_mem (mem_begun.mp mem)
  obtain ⟨_, next⟩ := whole.next eq
  exact next.uses uses

theorem Stops.uses {allowed : Call → Prop} (uses : p.Uses allowed) (stops : p.Stops calm x stop) :
    ∀ call ∈ begun x, allowed call := by
  intro call mem
  obtain ⟨u, v, eq⟩ := List.append_of_mem (mem_begun.mp mem)
  obtain ⟨_, next⟩ := stops.next eq
  exact next.uses uses

theorem succeed_exchange {c : Call} (answer : c.Answer) : Succeed (exchange c answer) := by
  intro made reply mem
  rcases List.mem_cons.mp mem with eq | mem
  · cases eq
  · cases List.mem_singleton.mp mem
    exact ⟨answer, rfl⟩

theorem Done.succeed (whole : p.Done x a) : Succeed x := by
  induction whole with
  | finish => simp [Succeed]
  | call _ ih => exact succeed_append.mpr ⟨succeed_exchange _, ih⟩

/-- Nothing is told during a procedure in which every call succeeds. -/
theorem Done.note_notMem {n : Note} (whole : p.Done x a) : .note n ∉ x := by
  induction whole with
  | finish => simp
  | call _ ih => simp [exchange, ih]

theorem Next.succeed (next : p.Next x call blame) : Succeed x := by
  induction next with
  | here => simp [Succeed]
  | later _ ih => exact succeed_append.mpr ⟨succeed_exchange _, ih⟩

/-- A procedure stops at the first call that fails, with the error that the failure counts as. -/
theorem Stops.failed {failure : Failure} (stops : p.Stops calm x stop)
    (eq : x = u ++ .ended .pass call (.failed failure) :: v) : ∃ current blame,
      p.Next current call blame ∧ u = current ++ [.began .pass call] ∧ v = [] ∧
        stop = .error (blame failure) := by
  obtain ⟨current, made, blame, y, next, breaks, rfl⟩ := stops.breaks
  obtain ⟨u, rfl, tail⟩ := split_later eq next.succeed.failed_notMem
  obtain ⟨rfl, rfl, rfl, rfl⟩ := breaks.failed_last tail
  exact ⟨current, blame, next, rfl, rfl, rfl⟩

/-- A procedure that stops with an error was cancelled, or a call of it failed. -/
theorem Stops.error {e : DeployError} (stops : p.Stops calm x (.error e)) :
    (¬ calm ∧ e = .cancelled) ∨ ∃ current call blame failure, p.Next current call blame ∧
      x = current ++ [.began .pass call, .ended .pass call (.failed failure)] ∧
        e = blame failure := by
  obtain ⟨current, call, blame, y, next, breaks, rfl⟩ := stops.breaks
  cases breaks with
  | refused alarmed _ => exact .inl ⟨alarmed, rfl⟩
  | abandoned alarmed _ => exact .inl ⟨alarmed, rfl⟩
  | failed failure => exact .inr ⟨current, call, blame, failure, next, rfl, rfl⟩

theorem Stops.panicked {text : String} (stops : p.Stops calm x (.panic text)) :
    ∃ current call blame, p.Next current call blame ∧ .ended .pass call (.panicked text) ∈ x := by
  obtain ⟨current, call, blame, y, next, breaks, rfl⟩ := stops.breaks
  cases breaks with
  | panicked => exact ⟨current, call, blame, next, by simp⟩

/-- In a calm rollout in which nothing panics or hangs, only a failure stops a procedure. -/
theorem Stops.of_calm (calmly : calm) (stops : p.Stops calm x stop) (hung : stop ≠ .hung)
    (noPanic : ∀ call text, .ended .pass call (.panicked text) ∉ x) :
    ∃ current call blame failure, p.Next current call blame ∧
      x = current ++ [.began .pass call, .ended .pass call (.failed failure)] ∧
      stop = .error (blame failure) := by
  cases stop with
  | error e =>
    rcases stops.error with ⟨alarmed, _⟩ | ⟨current, call, blame, failure, next, eq, rfl⟩
    · exact absurd calmly alarmed
    · exact ⟨current, call, blame, failure, next, eq, rfl⟩
  | hung => exact absurd rfl hung
  | panic text =>
    obtain ⟨_, call, _, _, mem⟩ := stops.panicked
    exact absurd mem (noPanic call text)

end Where

end Procedure

/-- What is told at first comes first in a transcript. -/
theorem Script.Speaks.narrate_inv {notes : List Note} {next : Script α} {calm : Prop}
    {x : List Event} {r : RunEnd α} (h : (narrate notes next).Speaks calm x r) :
    ∃ y, x = transcript (notes.map .note) ++ y ∧ next.Speaks calm y r := by
  induction notes generalizing x with
  | nil => exact ⟨x, rfl, h⟩
  | cons n notes ih =>
    obtain ⟨y, rfl, told⟩ := h.note_inv
    obtain ⟨z, rfl, rest⟩ := ih told
    refine ⟨z, ?_, rest⟩
    rw [List.map_cons, ← List.append_assoc, ← transcript_note]

/-- The script has no other transcripts than the procedure. -/
structure Script.Performs (script : Script α) (p : Procedure α) : Prop where
  cases : ∀ {calm : Prop} {x : List Event} {r : RunEnd α}, script.Speaks calm x r →
    (∃ a, p.Done x a ∧ r = .exit (.ok a)) ∨ ∃ stop, p.Stops calm x stop ∧ r = stop.toEnd

namespace Script.Performs

theorem done (a : α) : (Script.done (.ok a)).Performs (.finish a) := by
  constructor
  intro calm x r h
  obtain ⟨rfl, rfl⟩ := h.done_inv
  exact .inl ⟨a, .finish, rfl⟩

theorem note {script : Script α} {p : Procedure α} {n : Note} (quiet : transcript [.note n] = [])
    (performs : script.Performs p) : (Script.note n script).Performs p :=
  ⟨fun h => performs.cases (h.skip quiet)⟩

theorem single (blame : Failure → DeployError) (c : Call) :
    (Script.request blame c).Performs (.call c blame .finish) := by
  constructor
  intro calm x r h
  rcases h.request_inv with ⟨answer, rfl, rfl⟩ | ⟨stop, breaks, rfl⟩
  · exact .inl ⟨answer, .call .finish, rfl⟩
  · exact .inr ⟨stop, .here breaks, rfl⟩

/-- What follows a procedure comes once every call of it has succeeded. -/
theorem bind_cases {first : Script α} {next : α → Script β} {p : Procedure α} {calm : Prop}
    {x : List Event} {r : RunEnd β} (performs : first.Performs p)
    (h : (first >>= next).Speaks calm x r) :
    (∃ a y z, p.Done y a ∧ (next a).Speaks calm z r ∧ x = y ++ z) ∨
    ∃ stop, p.Stops calm x stop ∧ r = stop.toEnd := by
  rcases h.bind_inv with ⟨a, y, z, told, told', rfl⟩ | ⟨stop, told, rfl⟩
  · rcases performs.cases told with ⟨a', whole, eq⟩ | ⟨stop, _, eq⟩
    · cases eq
      exact .inl ⟨a, y, z, whole, told', rfl⟩
    · simp at eq
  · rcases performs.cases told with ⟨a, _, eq⟩ | ⟨stop', stopped, eq⟩
    · simp at eq
    · obtain rfl := Stop.toEnd_inj.mp eq
      exact .inr ⟨stop, stopped, rfl⟩

theorem bind {first : Script α} {next : α → Script β} {p : Procedure α} {q : α → Procedure β}
    (performs : first.Performs p) (rest : ∀ a, (next a).Performs (q a)) :
    (first >>= next).Performs (p.andThen q) := by
  constructor
  intro calm x r h
  rcases performs.bind_cases h with ⟨a, y, z, whole, told, rfl⟩ | ⟨stop, stopped, rfl⟩
  · rcases (rest a).cases told with ⟨b, whole', rfl⟩ | ⟨stop, stopped, rfl⟩
    · exact .inl ⟨b, whole.andThen whole', rfl⟩
    · exact .inr ⟨stop, .andThen_right whole stopped, rfl⟩
  · exact .inr ⟨stop, stopped.andThen_left, rfl⟩

theorem request {blame : Failure → DeployError} {c : Call} {next : c.Answer → Script α}
    {p : c.Answer → Procedure α} (performs : ∀ answer, (next answer).Performs (p answer)) :
    (Script.request blame c >>= next).Performs (.call c blame p) :=
  (single blame c).bind performs

end Script.Performs

end Rollout
