import Rollout.Proofs.Usage

/-!
# Scripts that follow a list of calls

A script follows a list of calls if it changes machines by these calls only, in this order: it
may stop early, but not when it ends well, and where every call succeeds it ends as foretold.
The lists of scripts in a row are put together by `Script.Follows.bind`.
-/

namespace Rollout

variable {α β : Type}

def Call.changes : Call → Bool
  | .launch _ => true
  | .update .. => true
  | .destroy .. => true
  | _ => false

def Event.change? : Event → Option Call
  | .began .pass call => if call.changes then some call else none
  | _ => none

/-- The calls by which the pass changes machines, in order. -/
def changes (events : List Event) : List Call := events.filterMap Event.change?

@[simp] theorem changes_append (before later : List Event) :
    changes (before ++ later) = changes before ++ changes later :=
  List.filterMap_append

theorem changes_eq_nil {events : List Event}
    (none : ∀ call, .began .pass call ∈ events → call.changes = false) : changes events = [] := by
  rw [changes, List.filterMap_eq_nil_iff]
  intro e mem
  rcases e with ⟨actor, call⟩ | ⟨actor, call, reply⟩ | n | record | change
  · cases actor with
    | pass => simp [Event.change?, none call mem]
    | renewal => rfl
  · rfl
  · rfl
  · rfl
  · rfl

@[simp] theorem changes_notes (notes : List Note) : changes (notes.map .note) = [] :=
  changes_eq_nil fun call mem => by simp at mem

theorem Stage.Background.changes_eq_nil {s later : Stage} {events : List Event}
    (background : s.Background events later) : changes events = [] :=
  Rollout.changes_eq_nil fun call mem => absurd mem (background.began_notMem call)

theorem changes_began {s later : Stage} {noise : List Event} {call : Call}
    (waited : s.Background noise later) :
    changes (.began .pass call :: noise) = changes [.began .pass call] := by
  rw [← List.singleton_append, changes_append, waited.changes_eq_nil, List.append_nil]

theorem changes_exchange {s later : Stage} {noise : List Event} {call : Call}
    {reply : Reply call.Answer} (waited : s.Background noise later) :
    changes (.began .pass call :: noise ++ .ended .pass call reply :: Script.aftermath reply) =
      changes [.began .pass call] := by
  have rest : changes (.ended .pass call reply :: Script.aftermath reply) = [] :=
    changes_eq_nil fun made mem => by cases reply <;> simp [Script.aftermath] at mem
  rw [changes_append, changes_began waited, rest, List.append_nil]

/-- Every call of the pass that ended succeeded. -/
def Succeed (events : List Event) : Prop :=
  ∀ call reply, .ended .pass call reply ∈ events → ∃ answer, reply = .ok answer

theorem Succeed.reply {call : Call} {reply : Reply call.Answer} {noise rest : List Event}
    (succeed : Succeed (.began .pass call :: noise ++ .ended .pass call reply :: rest)) :
    ∃ answer, reply = .ok answer := succeed call reply (by simp)

theorem Succeed.failed_notMem {events : List Event} {call : Call} {failure : Failure}
    (succeed : Succeed events) : .ended .pass call (.failed failure) ∉ events := by
  intro mem
  obtain ⟨answer, eq⟩ := succeed call _ mem
  cases eq

theorem Succeed.panicked_notMem {events : List Event} (succeed : Succeed events) (call : Call)
    (text : String) : .ended .pass call (.panicked text) ∉ events := by
  intro mem
  obtain ⟨answer, eq⟩ := succeed call _ mem
  cases eq

theorem succeed_append {before later : List Event} :
    Succeed (before ++ later) ↔ Succeed before ∧ Succeed later := by
  constructor
  · intro succeed
    constructor
    · intro call reply mem
      exact succeed call reply (List.mem_append_left later mem)
    · intro call reply mem
      exact succeed call reply (List.mem_append_right before mem)
  · rintro ⟨first, second⟩ call reply mem
    rcases List.mem_append.mp mem with mem | mem
    · exact first call reply mem
    · exact second call reply mem

namespace Script

theorem bind_pure_id (script : Script α) : script.bind (fun a => .done (.ok a)) = script := by
  induction script with
  | done exit => cases exit <;> rfl
  | note n next ih => exact congrArg (Script.note n) ih
  | checkpoint next ih => exact congrArg Script.checkpoint (funext ih)
  | call made next ih => exact congrArg (Script.call made) (funext ih)
  | startRenewal machines ttl interval next ih =>
    exact congrArg (Script.startRenewal machines ttl interval) ih
  | stopRenewal next ih => exact congrArg Script.stopRenewal ih

theorem bind_bind {γ : Type} (script : Script α) (f : α → Script β) (g : β → Script γ) :
    (script.bind f).bind g = script.bind fun a => (f a).bind g := by
  induction script with
  | done exit => cases exit <;> rfl
  | note n next ih => exact congrArg (Script.note n) ih
  | checkpoint next ih => exact congrArg Script.checkpoint (funext ih)
  | call made next ih => exact congrArg (Script.call made) (funext ih)
  | startRenewal machines ttl interval next ih =>
    exact congrArg (Script.startRenewal machines ttl interval) ih
  | stopRenewal next ih => exact congrArg Script.stopRenewal ih

instance : LawfulMonad Script :=
  LawfulMonad.mk' Script bind_pure_id (fun _ _ => rfl) bind_bind

def narrate (notes : List Note) (next : Script α) : Script α := notes.foldr .note next

theorem narrate_bind (notes : List Note) (next : Script α) (f : α → Script β) :
    (narrate notes next >>= f) = narrate notes (next >>= f) := by
  induction notes with
  | nil => rfl
  | cons n rest ih => exact congrArg (Script.note n) ih

theorem narrate_narrate (first second : List Note) (next : Script α) :
    narrate first (narrate second next) = narrate (first ++ second) next :=
  List.foldr_append.symm

theorem Tells.narrate_inv {notes : List Note} {next : Script α} {s later : Stage}
    {events : List Event} {r : RunEnd α} (h : (narrate notes next).Tells s events r later) :
    ∃ rest, events = notes.map .note ++ rest ∧ next.Tells s rest r later := by
  induction notes generalizing events with
  | nil => exact ⟨events, rfl, h⟩
  | cons n notes ih =>
    obtain ⟨rest, rfl, tail⟩ := h.note_inv
    obtain ⟨rest', rfl, tail'⟩ := ih tail
    exact ⟨rest', rfl, tail'⟩

/-- Going on after an attempt only where it went well is going on after the script. -/
theorem attempt_bind (script : Script α) {f : Exit α → Script β} {g : α → Script β}
    (ok : ∀ a, f (.ok a) = g a) (error : ∀ e, f (.error e) = fail e)
    (panic : ∀ text, f (.panic text) = .done (.panic text)) :
    (script.attempt >>= f) = (script >>= g) := by
  induction script with
  | done exit =>
    cases exit with
    | ok a => exact ok a
    | error e => exact error e
    | panic text => exact panic text
  | note n next ih => exact congrArg (Script.note n) ih
  | checkpoint next ih => exact congrArg Script.checkpoint (funext ih)
  | call made next ih => exact congrArg (Script.call made) (funext ih)
  | startRenewal machines ttl interval next ih =>
    exact congrArg (Script.startRenewal machines ttl interval) ih
  | stopRenewal next ih => exact congrArg Script.stopRenewal ih

/-- The script changes machines by these calls, and ends like this where every call succeeds
and shutdown is never requested. -/
structure Follows (script : Script α) (calls : List Call) (ends : Exit α → Prop) : Prop where
  within : ∀ {s events r later}, script.Tells s events r later → changes events <+: calls
  whole : ∀ {s events a later}, script.Tells s events (.exit (.ok a)) later →
    changes events = calls ∧ ends (.ok a)
  smooth : ∀ {s events r later}, script.Tells s events r later → Succeed events →
    s.signal.StaysDown events → r = .hung ∨ ∃ exit, r = .exit exit ∧ ends exit

def Well : Exit α → Prop
  | .ok _ => True
  | .error _ => False
  | .panic _ => False

namespace Follows

variable {calls calls' : List Call} {ends : Exit α → Prop} {ends' : Exit β → Prop}

theorem done {exit : Exit α} (holds : ends exit) : (Script.done exit).Follows [] ends where
  within h := by
    obtain ⟨rfl, _, _⟩ := h.done_inv
    exact List.prefix_rfl
  whole h := by
    obtain ⟨rfl, eq, _⟩ := h.done_inv
    cases eq
    exact ⟨rfl, holds⟩
  smooth h _ _ := by
    obtain ⟨_, rfl, _⟩ := h.done_inv
    exact .inr ⟨exit, rfl, holds⟩

theorem narrate {script : Script α} (follows : script.Follows calls ends) (notes : List Note) :
    (narrate notes script).Follows calls ends where
  within h := by
    obtain ⟨rest, rfl, tail⟩ := h.narrate_inv
    simpa using follows.within tail
  whole h := by
    obtain ⟨rest, rfl, tail⟩ := h.narrate_inv
    simpa using follows.whole tail
  smooth := by
    intro s events r later h succeed down
    obtain ⟨rest, rfl, tail⟩ := h.narrate_inv
    have same : s.signal.after (notes.map .note) = s.signal :=
      Signal.after_eq_self fun e mem c eq => by simp [eq] at mem
    rw [Signal.staysDown_append, same] at down
    exact follows.smooth tail (succeed_append.mp succeed).2 down.2

theorem note {script : Script α} {n : Note} (follows : script.Follows calls ends) :
    (Script.note n script).Follows calls ends := follows.narrate [n]

/-- A script that looks for shutdown follows the list of what it does without it. -/
theorem checkpoint {next : Bool → Script α} (follows : (next false).Follows calls ends)
    (cancels : next true = cancel) : (Script.checkpoint next).Follows calls ends where
  within {s} _ _ _ h := by
    cases h with
    | checkpoint h =>
      cases raised : s.signal.raised with
      | false => exact follows.within (raised ▸ h)
      | true =>
        rw [raised, cancels] at h
        obtain ⟨rfl, _, _⟩ := h.cancel_inv
        exact List.nil_prefix
  whole {s} _ _ _ h := by
    cases h with
    | checkpoint h =>
      cases raised : s.signal.raised with
      | false => exact follows.whole (raised ▸ h)
      | true =>
        rw [raised, cancels] at h
        obtain ⟨_, eq, _⟩ := h.cancel_inv
        cases eq
  smooth h succeed down := by
    cases h with
    | checkpoint h =>
      rw [down.start] at h
      exact follows.smooth h succeed down

/-- Two scripts in a row follow their lists in a row. -/
theorem bind {first : Script α} {next : α → Script β}
    (follows : first.Follows calls ends) (well : ∀ exit, ends exit → Well exit)
    (rest : ∀ a, ends (.ok a) → (next a).Follows calls' ends') :
    (first >>= next).Follows (calls ++ calls') ends' where
  within h := by
    rcases h.bind_inv with ⟨a, before, mid, tail, h₁, h₂, rfl⟩ | ⟨r, h, _⟩
    · obtain ⟨all, holds⟩ := follows.whole h₁
      rw [changes_append, all]
      exact (List.prefix_append_right_inj calls).mpr ((rest a holds).within h₂)
    · exact (follows.within h).trans (List.prefix_append calls calls')
  whole h := by
    rcases h.bind_inv with ⟨a, before, mid, tail, h₁, h₂, rfl⟩ | ⟨r, h, stops⟩
    · obtain ⟨all, holds⟩ := follows.whole h₁
      obtain ⟨all', holds'⟩ := (rest a holds).whole h₂
      exact ⟨by rw [changes_append, all, all'], holds'⟩
    · cases stops
  smooth h succeed down := by
    rcases h.bind_inv with ⟨a, before, mid, tail, h₁, h₂, rfl⟩ | ⟨r, h, stops⟩
    · obtain ⟨_, succeed'⟩ := succeed_append.mp succeed
      rw [Signal.staysDown_append, ← h₁.signal] at down
      exact (rest a (follows.whole h₁).2).smooth h₂ succeed' down.2
    · rcases follows.smooth h succeed down with rfl | ⟨exit, rfl, holds⟩
      · cases stops
        exact .inl rfl
      · have ok := well exit holds
        cases stops with
        | error => cases ok
        | panic => cases ok

/-- A script that fails is all that follows its list. -/
theorem bind_error {first : Script α} {next : α → Script β} {e : DeployError}
    (follows : first.Follows calls (· = .error e)) :
    (first >>= next).Follows calls (· = .error e) where
  within h := by
    rcases h.bind_inv with ⟨a, before, mid, tail, h₁, _, _⟩ | ⟨r, h, _⟩
    · cases (follows.whole h₁).2
    · exact follows.within h
  whole h := by
    rcases h.bind_inv with ⟨a, before, mid, tail, h₁, _, _⟩ | ⟨r, h, stops⟩
    · cases (follows.whole h₁).2
    · cases stops
  smooth h succeed down := by
    rcases h.bind_inv with ⟨a, before, mid, tail, h₁, _, _⟩ | ⟨r, h, stops⟩
    · cases (follows.whole h₁).2
    · rcases follows.smooth h succeed down with rfl | ⟨exit, rfl, rfl⟩
      · cases stops
        exact .inl rfl
      · cases stops
        exact .inr ⟨_, rfl, rfl⟩

theorem request (blame : Failure → DeployError) (call : Call) :
    (request blame call).Follows (changes [.began .pass call]) Well where
  within h := by
    rcases h.request_inv with ⟨_, rfl, _, _⟩ | ⟨_, noise, reply, waited, _, rfl, _⟩ |
      ⟨_, noise, mid, waited, _, rfl, _⟩
    · exact List.nil_prefix
    · refine ⟨[], ?_⟩
      rw [List.append_nil]
      exact changes_exchange waited
    · refine ⟨[], ?_⟩
      rw [List.append_nil]
      exact changes_began waited
  whole h := by
    rcases h.request_inv with ⟨_, _, stopped, _⟩ | ⟨_, noise, reply, waited, _, rfl, _⟩ |
      ⟨_, _, _, _, _, _, stopped⟩
    · cases stopped
    · exact ⟨changes_exchange waited, trivial⟩
    · cases stopped
  smooth h succeed down := by
    rcases h.request_inv with ⟨may, _, _, _⟩ | ⟨_, noise, reply, _, _, rfl, rfl⟩ |
      ⟨_, _, _, _, _, _, rfl⟩
    · exact absurd (fun interrupted => by simp [down.start] at interrupted) may
    · obtain ⟨answer, rfl⟩ := succeed.reply
      exact .inr ⟨.ok answer, rfl, trivial⟩
    · exact .inl rfl

end Follows

end Script

end Rollout
