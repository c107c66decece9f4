import Rollout.Proofs.Following
import Rollout.Proofs.Frame

/-!
# The work within a rollout

A story of a rollout holds a story of its work, unless the rollout stops before it comes to the
work. What stands around it changes no machine, and where every call succeeds the rollout ends
as the work did.
-/

namespace Rollout

open Script

variable {s mid later : Stage} {events : List Event} {r : RunEnd Unit}

theorem Call.role_of_changes {call : Call} (changes : call.changes = true) :
    call.role = .work := by
  cases call <;> simp_all [Call.changes, Call.role]

/-- A pass that has succeeded is told from the state that is written in the end. -/
def PassSucceeded (events : List Event) : Prop :=
  ∃ release, .began .pass (.setStatus release .complete) ∈ events

theorem passSucceeded_append {before rest : List Event} :
    PassSucceeded (before ++ rest) ↔ PassSucceeded before ∨ PassSucceeded rest := by
  constructor
  · rintro ⟨release, mem⟩
    rcases List.mem_append.mp mem with mem | mem
    · exact .inl ⟨release, mem⟩
    · exact .inr ⟨release, mem⟩
  · rintro (⟨release, mem⟩ | ⟨release, mem⟩)
    · exact ⟨release, List.mem_append_left rest mem⟩
    · exact ⟨release, List.mem_append_right before mem⟩

/-- Events that change no machine and do not conclude the rollout. -/
structure Aside (events : List Event) : Prop where
  quiet : changes events = []
  open_ : ¬ PassSucceeded events

theorem Aside.append {before rest : List Event} (first : Aside before) (second : Aside rest) :
    Aside (before ++ rest) where
  quiet := by rw [changes_append, first.quiet, second.quiet, List.append_nil]
  open_ succeeded := (passSucceeded_append.mp succeeded).elim first.open_ second.open_

theorem aside_of_role {events : List Event}
    (role : ∀ call, .began .pass call ∈ events → call.role ≠ .work ∧ call.role ≠ .conclusion) :
    Aside events where
  quiet := changes_eq_nil fun call mem =>
    Bool.eq_false_iff.mpr fun changes => (role call mem).1 (Call.role_of_changes changes)
  open_ := by
    rintro ⟨release, mem⟩
    exact (role _ mem).2 rfl

theorem Stage.Background.aside (background : s.Background events later) : Aside events :=
  aside_of_role fun call mem => absurd mem (background.began_notMem call)

theorem Script.Tells.aside {α : Type} {script : Script α} {r : RunEnd α} {allowed : Call → Prop}
    (uses : script.Uses allowed)
    (role : ∀ call, allowed call → call.role ≠ .work ∧ call.role ≠ .conclusion)
    (h : script.Tells s events r later) : Aside events :=
  aside_of_role fun call mem => role call (h.within uses _ mem)

/-- What becomes of the work in a story: it is not reached, or its story is a part. -/
inductive Wraps (body : Script Unit) (s : Stage) (events : List Event) (r : RunEnd Unit) : Prop
  | unreached (aside : Aside events) (stops : ∀ a, r ≠ .exit (.ok a))
      (smooth : Succeed events → s.signal.StaysDown events → r = .hung)
  | reached (before after : List Event) {work : List Event} {mid later : Stage} {r' : RunEnd Unit}
      (tells : body.Tells mid work r' later) (eq : events = before ++ work ++ after)
      (signal : mid.signal = s.signal.after before)
      (quiet : changes before = []) (quiet' : changes after = [])
      (succeeds : PassSucceeded events → r' = .exit (.ok ()))
      (ok : ∀ a, r = .exit (.ok a) → r' = .exit (.ok a))
      (smooth : Succeed after → r = .hung ∨ r = r')

namespace Wraps

variable {body : Script Unit}

/-- The work wraps itself. -/
theorem self (uses : Order.MachineWork body) (h : body.Tells s events r later) :
    Wraps body s events r := by
  refine .reached [] [] h (by simp) rfl rfl rfl ?_ (fun _ eq => eq) fun _ => .inr rfl
  rintro ⟨release, mem⟩
  have role := h.within uses _ mem
  cases role

/-- More may come before the work. -/
theorem after {before : List Event} (wraps : Wraps body mid events r) (aside : Aside before)
    (signal : mid.signal = s.signal.after before) : Wraps body s (before ++ events) r := by
  cases wraps with
  | unreached aside' stops smooth =>
    refine .unreached (aside.append aside') stops fun succeed down => ?_
    rw [Signal.staysDown_append, ← signal] at down
    exact smooth (succeed_append.mp succeed).2 down.2
  | reached first rest tells eq signal' quiet quiet' succeeds ok smooth =>
    refine .reached (before ++ first) rest tells ?_ ?_ ?_ quiet' ?_ ok smooth
    · simp [eq]
    · rw [signal', signal, Signal.after_append]
    · rw [changes_append, aside.quiet, quiet, List.append_nil]
    · intro succeeded
      exact succeeds ((passSucceeded_append.mp succeeded).resolve_left aside.open_)

end Wraps

structure Settles (after : Exit Unit → Script Unit) : Prop where
  quiet : ∀ {exit s events r later}, (after exit).Tells s events r later → changes events = []
  succeeds : ∀ {exit s events r later}, (after exit).Tells s events r later →
    PassSucceeded events → exit = .ok ()
  ok : ∀ {exit s events a later}, (after exit).Tells s events (.exit (.ok a)) later → exit = .ok a
  smooth : ∀ {exit s events r later}, (after exit).Tells s events r later → Succeed events →
    r = .hung ∨ r = .exit exit

/-- More may come after the work, whatever it comes to. -/
theorem Wraps.attempt {body first : Script Unit} {after : Exit Unit → Script Unit}
    (settles : Settles after)
    (wraps : ∀ {events r later}, first.Tells s events r later → Wraps body s events r)
    (h : (first.attempt >>= after).Tells s events r later) : Wraps body s events r := by
  rcases h.bind_inv with ⟨exit, before, mid, rest, attempted, told, rfl⟩ | ⟨r, attempted, stops⟩
  · have ended : first.Tells s before (.exit exit) mid := by
      rcases attempted.attempt_inv with ⟨exit', ended, eq⟩ | ⟨_, hung⟩
      · cases eq
        exact ended
      · cases hung
    have quiet := settles.quiet told
    cases wraps ended with
    | unreached aside fails smooth =>
      have notOk : exit ≠ .ok () := fun ok => fails () (congrArg _ ok)
      refine .unreached ⟨?_, ?_⟩ ?_ ?_
      · rw [changes_append, aside.quiet, quiet, List.append_nil]
      · intro succeeded
        rcases passSucceeded_append.mp succeeded with succeeded | succeeded
        · exact aside.open_ succeeded
        · exact notOk (settles.succeeds told succeeded)
      · rintro a rfl
        exact notOk (settles.ok told)
      · intro succeed down
        cases smooth (succeed_append.mp succeed).1 (Signal.staysDown_append.mp down).1
    | reached opening closing tells eq signal quiet₁ quiet₂ succeeds ok smooth =>
      refine .reached opening (closing ++ rest) tells ?_ signal quiet₁ ?_ ?_ ?_ ?_
      · simp [eq]
      · rw [changes_append, quiet₂, quiet, List.append_nil]
      · intro succeeded
        rcases passSucceeded_append.mp succeeded with succeeded | succeeded
        · exact succeeds succeeded
        · exact ok () (congrArg _ (settles.succeeds told succeeded))
      · rintro a rfl
        exact ok a (congrArg _ (settles.ok told))
      · intro succeed
        obtain ⟨first, second⟩ := succeed_append.mp succeed
        rcases settles.smooth told second with rfl | rfl
        · exact .inl rfl
        · exact smooth first
  · rcases attempted.attempt_inv with ⟨exit, _, rfl⟩ | ⟨hung, rfl⟩
    · cases stops
    · cases stops
      exact wraps hung

namespace Order

theorem tellHandback_inv {o : Order} {exit : Exit Unit}
    {answer : Except Failure o.handback.Answer}
    (h : (o.tellHandback exit answer).Tells s events r later) :
    (∃ n, events = [.note n]) ∧ r = .exit exit := by
  cases answer with
  | ok _ =>
    obtain ⟨rest, rfl, told⟩ := h.note_inv
    obtain ⟨rfl, rfl, rfl⟩ := told.done_inv
    exact ⟨⟨_, rfl⟩, rfl⟩
  | error _ =>
    obtain ⟨rest, rfl, told⟩ := h.note_inv
    obtain ⟨rfl, rfl, rfl⟩ := told.done_inv
    exact ⟨⟨_, rfl⟩, rfl⟩

/-- Giving the leases back is aside, and ends as the work did unless the reply is a panic. -/
theorem giveBack_inv {o : Order} {exit : Exit Unit}
    (h : (o.giveBack exit).Tells s events r later) :
    Aside events ∧ (r = .hung ∨ r = .exit exit ∨
      ∃ text, r = .exit (.panic text) ∧ .ended .pass o.handback (.panicked text) ∈ events) := by
  cases h with
  | @stopRenewal _ _ closing mid rest _ _ background h =>
    have uses : (carryThrough o.handback >>= o.tellHandback exit).Uses (·.role = .release) := by
      refine ⟨rfl, fun reply => ?_⟩
      cases reply <;> trivial
    have aside : Aside rest := h.aside uses fun call role => by simp [role]
    refine ⟨background.aside.append aside, ?_⟩
    rcases h.bind_inv with ⟨answer, handing, after, tail, released, told, rfl⟩ | ⟨r, h, stops⟩
    · exact .inr (.inl (tellHandback_inv told).2)
    · rcases h.carryThrough_inv rfl with ⟨noise, reply, _, notCancelled, rfl, rfl⟩ |
        ⟨_, _, _, _, _, rfl⟩
      · cases reply with
        | ok answer => cases stops
        | failed failure => cases stops
        | panicked text =>
          cases stops
          exact .inr (.inr ⟨text, rfl, by simp⟩)
        | cancelled => exact absurd rfl notCancelled
      · cases stops
        exact .inl rfl
  | cutOff background => exact ⟨background.aside, .inl rfl⟩

theorem giveBack_settles (o : Order) : Settles o.giveBack where
  quiet h := (giveBack_inv h).1.quiet
  succeeds h succeeded := absurd succeeded (giveBack_inv h).1.open_
  ok h := by
    rcases (giveBack_inv h).2 with hung | eq | ⟨text, panicked, _⟩
    · cases hung
    · cases eq
      rfl
    · cases panicked
  smooth h succeed := by
    rcases (giveBack_inv h).2 with hung | eq | ⟨text, _, mem⟩
    · exact .inl hung
    · exact .inr eq
    · obtain ⟨answer, eq⟩ := succeed _ _ mem
      cases eq

/-- A pass that succeeded is concluded well where the reply is good. -/
theorem conclude_ok_inv {o : Order} (h : (o.conclude (.ok ())).Tells s events r later)
    (succeed : Succeed events) : r = .hung ∨ r = .exit (.ok ()) := by
  cases h with
  | refused may _ => exact absurd (fun interrupted => by cases interrupted.1) may
  | @answered _ _ _ noise mid reply _ _ _ may background mayReply told =>
    obtain ⟨answer, rfl⟩ := succeed.reply
    obtain ⟨rest, rfl, ended⟩ := Tells.note_inv told
    obtain ⟨_, rfl, _⟩ := ended.done_inv
    exact .inr rfl
  | unanswered may background => exact .inl rfl

/-- A pass that failed keeps its error, and never is called complete. -/
theorem conclude_error_inv {o : Order} {e : DeployError}
    (h : (o.conclude (.error e)).Tells s events r later) :
    ¬ PassSucceeded events ∧ (∀ a, r ≠ .exit (.ok a)) ∧
      (Succeed events → r = .hung ∨ r = .exit (.error e)) := by
  have uses : (o.conclude (.error e)).Uses
      (· = .setStatus o.deployment.launch.release.id .failed) := by
    refine ⟨rfl, fun reply => ?_⟩
    cases reply <;> trivial
  have open_ : ¬ PassSucceeded events := by
    rintro ⟨release, mem⟩
    cases h.within uses _ mem
  refine ⟨open_, ?_⟩
  cases h with
  | refused may _ => exact absurd (fun interrupted => by cases interrupted.1) may
  | @answered _ _ _ noise mid reply _ _ _ may background mayReply told =>
    cases reply with
    | ok answer =>
      obtain ⟨rest, rfl, ended⟩ := Tells.note_inv told
      obtain ⟨_, rfl, _⟩ := ended.done_inv
      exact ⟨fun a => by simp, fun _ => .inr rfl⟩
    | failed failure =>
      obtain ⟨rest, rfl, ended⟩ := Tells.note_inv told
      obtain ⟨_, rfl, _⟩ := ended.done_inv
      exact ⟨fun a => by simp, fun _ => .inr rfl⟩
    | panicked text =>
      obtain ⟨_, rfl, _⟩ := Tells.done_inv told
      refine ⟨fun a => by simp, fun succeed => ?_⟩
      obtain ⟨answer, eq⟩ := succeed.reply
      cases eq
    | cancelled => cases (mayReply rfl).1
  | unanswered may background => exact ⟨fun a => by simp, fun _ => .inl rfl⟩

theorem conclude_settles (o : Order) : Settles o.conclude where
  quiet {exit} _ _ _ _ h := changes_eq_nil fun call mem => by
    have role : call.role = .conclusion := h.within (o.conclude_uses exit) _ mem
    refine Bool.eq_false_iff.mpr fun changes => ?_
    rw [Call.role_of_changes changes] at role
    cases role
  succeeds {exit} _ _ _ _ h succeeded := by
    cases exit with
    | ok value => rfl
    | error e => exact absurd succeeded (conclude_error_inv h).1
    | panic text =>
      obtain ⟨rfl, _, _⟩ := h.done_inv
      obtain ⟨release, mem⟩ := succeeded
      simp at mem
  ok {exit} _ _ a _ h := by
    cases exit with
    | ok value => rfl
    | error e => exact absurd rfl ((conclude_error_inv h).2.1 a)
    | panic text =>
      obtain ⟨_, eq, _⟩ := h.done_inv
      cases eq
  smooth {exit} _ _ _ _ h succeed := by
    cases exit with
    | ok value => exact conclude_ok_inv h succeed
    | error e => exact (conclude_error_inv h).2.2 succeed
    | panic text =>
      obtain ⟨_, rfl, _⟩ := h.done_inv
      exact .inr rfl

/-- A part of the frame before the work is aside, and goes on where every call succeeds. -/
theorem bind_wraps {α : Type} {first : Script α} {next : α → Script Unit} {body : Script Unit}
    {allowed : Call → Prop} (uses : first.Uses allowed)
    (role : ∀ call, allowed call → call.role ≠ .work ∧ call.role ≠ .conclusion)
    (follows : ∃ calls, first.Follows calls Well)
    (wraps : ∀ {a s events r later}, (next a).Tells s events r later → Wraps body s events r)
    (h : (first >>= next).Tells s events r later) : Wraps body s events r := by
  obtain ⟨calls, follows⟩ := follows
  rcases h.bind_inv with ⟨a, before, mid, rest, first, told, rfl⟩ | ⟨r, first, stops⟩
  · exact (wraps told).after (first.aside uses role) first.signal
  · refine .unreached (first.aside uses role) ?_ fun succeed down => ?_
    · rintro a rfl
      cases stops
    · rcases follows.smooth first succeed down with rfl | ⟨exit, rfl, well⟩
      · cases stops
        rfl
      · cases stops with
        | error => cases well
        | panic => cases well

/-- Work under leases is wrapped. -/
theorem withLeases_wraps {o : Order} {body : Script Unit} (work : MachineWork body)
    (h : (o.withLeases body).Tells s events r later) : Wraps body s events r := by
  rw [withLeases_eq] at h
  have uses : (request .leaseAcquisition o.acquisition).Uses (· = o.acquisition) :=
    uses_request rfl
  refine bind_wraps uses ?_ ⟨_, Follows.request _ _⟩ ?_ h
  · rintro call rfl
    simp [Call.role]
  · intro _ s events r later h
    obtain ⟨rest, rfl, renewed⟩ := h.note_inv
    cases renewed with
    | @startRenewal _ _ _ _ _ logs rest _ _ logged doing =>
      have wraps : Wraps body (s.renewingBy o.acquisition) rest r :=
        .attempt o.giveBack_settles (fun h => .self work h) doing
      have plain : ∀ e ∈ .note o.heldNote :: logs,
          (∀ call, e ≠ .began .pass call) ∧ ∀ c, e ≠ .signal c := by
        intro e mem
        rcases List.mem_cons.mp mem with rfl | mem
        · simp
        · obtain ⟨record, rfl⟩ := logged e mem
          simp
      change Wraps body s ((.note o.heldNote :: logs) ++ rest) r
      refine wraps.after ?_ ?_
      · exact aside_of_role fun call mem => absurd rfl ((plain _ mem).1 call)
      · exact (Signal.after_eq_self fun e mem => (plain e mem).2).symm

theorem runReleaseCommand_uses (o : Order) : o.runReleaseCommand.Uses (· = .releaseCommand) := by
  rw [runReleaseCommand]
  split
  · exact uses_request rfl
  · intro raised
    cases raised <;> trivial

/-- Without a release command the pass only looks whether to go on. -/
theorem runReleaseCommand_follows (o : Order) : o.runReleaseCommand.Follows [] Well := by
  rw [runReleaseCommand]
  split
  · exact Follows.request _ .releaseCommand
  · exact .checkpoint (.done trivial) rfl

/-- The work of a deploy pass is wrapped by the rollout. -/
theorem script_wraps {o : Order} (deploys : o.settings.restartOnly = false)
    (h : o.script.Tells s events r later) : Wraps o.converge s events r := by
  rw [script_eq] at h
  refine bind_wraps o.announce_uses (fun call role => by simp [role]) ?_ ?_ h
  · exact ⟨_, .note (Follows.request _ _)⟩
  · intro _ s events r later concluded
    refine .attempt o.conclude_settles (fun passed => ?_) concluded
    have eq : o.pass = (o.runReleaseCommand >>= fun _ => o.withLeases o.converge) := by
      simp [pass, deploys, deployPass]
    rw [eq] at passed
    refine bind_wraps o.runReleaseCommand_uses ?_ ⟨_, o.runReleaseCommand_follows⟩ ?_ passed
    · rintro call rfl
      simp [Call.role]
    · intro _ s events r later leased
      exact withLeases_wraps o.machineWork_converge leased

end Order

end Rollout
