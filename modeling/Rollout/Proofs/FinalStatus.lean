import Rollout.Proofs.Ending
import Rollout.Proofs.LeaseFailures
import Rollout.Proofs.Sequence
import Rollout.Rehearsal.Rules

/-!
# The final state of a release

A rollout that has marked its release as running leaves it in a final state. The last call of a
rollout that returns writes that state: complete if its pass succeeded, and failed otherwise. The
rollout returns what its pass returned, unless the pass succeeded and that could not be written.
-/

namespace Rollout

open Script

/-- In a story that ends every call has had its reply. -/
theorem Script.Tells.settled_of_exit {α : Type} {script : Script α} {s later : Stage}
    {events : List Event} {exit : Exit α} (h : script.Tells s events (.exit exit) later) :
    Settled events := by
  generalize ending : RunEnd.exit exit = r at h
  induction h with
  | done => exact settled_nil
  | note _ ih => exact settled_append (settled_note _) (ih ending)
  | checkpoint _ ih => exact ih ending
  | refused _ _ ih => exact ih ending
  | @answered call _ _ _ _ reply _ _ _ _ background _ _ ih =>
    have asked : Settled (.began .pass call :: _ ++ [.ended .pass call reply]) :=
      settled_exchange background.began_notMem
    simpa using settled_append asked (ih ending)
  | unanswered _ _ => cases ending
  | startRenewal logged _ ih =>
    refine settled_append (settled_of_notMem fun call mem => ?_) (ih ending)
    obtain ⟨record, eq⟩ := logged _ mem
    cases eq
  | stopRenewal background _ ih =>
    exact settled_append (settled_of_notMem background.began_notMem) (ih ending)
  | cutOff _ => cases ending

/-- A run that returns: it neither hangs nor panics. -/
def RunEnd.Returns {α : Type} (r : RunEnd α) : Prop :=
  (∃ a, r = .exit (.ok a)) ∨ ∃ e, r = .exit (.error e)

theorem RunEnd.not_returns_hung {α : Type} : ¬ (RunEnd.hung : RunEnd α).Returns := by
  rintro (⟨_, ⟨⟩⟩ | ⟨_, ⟨⟩⟩)

theorem RunEnd.not_returns_panic {α : Type} {text : String} :
    ¬ (RunEnd.exit (.panic text) : RunEnd α).Returns := by
  rintro (⟨_, ⟨⟩⟩ | ⟨_, ⟨⟩⟩)

/-- The script says at most a word and calls nobody, and ends like this. -/
structure Script.Rests {α : Type} (script : Script α) (exit : Exit α) : Prop where
  ends : ∀ {s later : Stage} {events : List Event} {r : RunEnd α},
    script.Tells s events r later → Uneventful events ∧ r = .exit exit

namespace Script.Rests

theorem done {α : Type} (exit : Exit α) : (Script.done exit).Rests exit := by
  constructor
  intro s later events r h
  obtain ⟨rfl, rfl, _⟩ := h.done_inv
  exact ⟨by simp [Uneventful], rfl⟩

theorem note {α : Type} {n : Note} {script : Script α} {exit : Exit α}
    (rests : script.Rests exit) : (Script.note n script).Rests exit := by
  constructor
  intro s later events r h
  obtain ⟨rest, rfl, told⟩ := h.note_inv
  obtain ⟨quiet, rfl⟩ := rests.ends told
  refine ⟨fun e mem => ?_, rfl⟩
  rcases List.mem_cons.mp mem with rfl | mem
  · trivial
  · exact quiet e mem

end Script.Rests

/-- A call that is carried through where no leases are renewed, and that nothing but words
follow: nobody makes another call. -/
theorem Script.Tells.carried_inv {α : Type} (call : Call) {next : Reply call.Answer → Script α}
    {s later : Stage} {events : List Event} {r : RunEnd α} (ends : Reply call.Answer → Exit α)
    (carried : call.cancellable = false) (alone : s.renewing = none) (returns : r.Returns)
    (rests : ∀ reply, reply ≠ .cancelled → (next reply).Rests (ends reply))
    (h : (Script.call call next).Tells s events r later) : ∃ noise reply rest,
      events = .began .pass call :: noise ++ .ended .pass call reply :: rest ∧
      reply ≠ .cancelled ∧ Uneventful (noise ++ rest) ∧ r = .exit (ends reply) := by
  cases h with
  | refused may _ => exact absurd (fun interrupted => by simp [carried] at interrupted) may
  | @answered _ _ _ noise mid reply rest _ _ _ background mayReply told =>
    have notCancelled : reply ≠ .cancelled := by
      rintro rfl
      exact absurd (mayReply rfl).1 (by simp [carried])
    obtain ⟨quiet, rfl⟩ := (rests reply notCancelled).ends told
    refine ⟨noise, reply, rest, rfl, notCancelled, fun e mem => ?_, rfl⟩
    rcases List.mem_append.mp mem with mem | mem
    · exact background.uneventful alone e mem
    · exact quiet e mem
  | unanswered _ _ => rcases returns with ⟨_, eq⟩ | ⟨_, eq⟩ <;> cases eq

def writes (events : List Event) : List (ReleaseId × ReleaseStatus) :=
  events.filterMap fun
    | .began _ (.setStatus release status) => some (release, status)
    | _ => none

@[simp] theorem writes_append (before later : List Event) :
    writes (before ++ later) = writes before ++ writes later :=
  List.filterMap_append

@[simp] theorem writes_note (n : Note) (rest : List Event) :
    writes (.note n :: rest) = writes rest := rfl

@[simp] theorem writes_setStatus (actor : Actor) (release : ReleaseId) (status : ReleaseStatus)
    (rest : List Event) : writes (.began actor (.setStatus release status) :: rest) =
      (release, status) :: writes rest := rfl

@[simp] theorem writes_ended (actor : Actor) (call : Call) (reply : Reply call.Answer)
    (rest : List Event) : writes (.ended actor call reply :: rest) = writes rest := rfl

theorem writes_eq_nil {events : List Event}
    (none : ∀ actor release status, .began actor (.setStatus release status) ∉ events) :
    writes events = [] := by
  refine List.filterMap_eq_nil_iff.mpr fun e mem => ?_
  cases e with
  | began actor call =>
    cases call with
    | setStatus release status => exact absurd mem (none actor release status)
    | _ => rfl
  | _ => rfl

theorem Uneventful.writes_eq_nil {events : List Event} (uneventful : Uneventful events) :
    writes events = [] :=
  Rollout.writes_eq_nil fun actor _ _ => uneventful.began_notMem actor _

/-- The final state of a release whose pass ended like this. -/
def RunEnd.status : RunEnd Unit → ReleaseStatus
  | .exit (.ok _) => .complete
  | _ => .failed

namespace Order

@[reducible] def mark (o : Order) (status : ReleaseStatus) : Call :=
  .setStatus o.deployment.launch.release.id status

end Order

/-- How a rollout that returns leaves its release after such a pass. -/
structure StatusProtocol {σ : Type} (o : Order) (pass run : World σ × RunEnd Unit) : Prop where
  returned : pass.2.Returns
  /-- When the pass returns every call of it has ended, that which gives back the leases as
  well. -/
  settled : Settled pass.1.events
  /-- The rollout writes one state after the first one, -/
  once : writes run.1.events = [(o.deployment.launch.release.id, .running),
    (o.deployment.launch.release.id, pass.2.status)]
  /-- and that after the pass, as the last call of all. Shutdown does not interrupt it. -/
  last : ∃ noise reply rest, run.1.events = pass.1.events ++
      .began .pass (o.mark pass.2.status) :: noise ++
        .ended .pass (o.mark pass.2.status) reply :: rest ∧
    reply ≠ .cancelled ∧ Uneventful (noise ++ rest)
  /-- The rollout succeeds if the pass does and that could be written. -/
  succeeds : run.2 = .exit (.ok ()) ↔
    pass.2 = .exit (.ok ()) ∧ .ended .pass o.markComplete (.ok ()) ∈ run.1.events
  /-- It says so if only that could not be written. -/
  unwritten : ∀ failure, run.2 = .exit (.error (.finalReleaseStatus failure)) ↔
    pass.2 = .exit (.ok ()) ∧ .ended .pass o.markComplete (.failed failure) ∈ run.1.events
  /-- Otherwise it fails as the pass did. -/
  keeps : ∀ e, pass.2 = .exit (.error e) → run.2 = .exit (.error e)

namespace Order

variable {o : Order} {calm : Prop} {x : List Event} {s later : Stage} {events : List Event}
  {r : RunEnd Unit}

/-- If the release is marked as running the rollout goes on. -/
theorem marked_of_announced (h : o.announce.Tells s events r later)
    (mem : o.announced ∈ events) : r = .exit (.ok ()) := by
  have told := h.speaks
  rw [← announced_mem_transcript] at mem
  generalize transcript events = x at mem told
  rcases o.announce_performs.cases told with ⟨⟨⟩, _, rfl⟩ | ⟨stop, stopped, rfl⟩
  · rfl
  · cases stopped with
    | here breaks => exact absurd mem breaks.ok_notMem
    | later stopped => cases stopped

/-- Marking the release as running is all that is done before the pass. -/
theorem announce_writes (alone : s.renewing = none)
    (h : o.announce.Tells s events (.exit (.ok ())) later) :
    writes events = [(o.deployment.launch.release.id, .running)] := by
  obtain ⟨rest, rfl, asked⟩ := h.note_inv
  rcases asked.request_inv with ⟨_, _, stopped, _⟩ |
    ⟨_, noise, reply, waited, _, rfl, ended⟩ | ⟨_, _, _, _, _, _, stopped⟩
  · cases stopped
  · have quiet := (waited.uneventful alone).writes_eq_nil
    have silent : writes (aftermath reply) = [] := by cases reply <;> rfl
    simp [quiet, silent]
  · cases stopped

/-- A pass writes no state of the release. -/
theorem Passage.setStatus_notMem {release : ReleaseId} {status : ReleaseStatus}
    (passage : o.Passage calm x r) : .setStatus release status ∉ begun x := by
  intro mem
  cases passage with
  | barred stopped =>
    rcases stopped.uses o.admission_uses _ mem with eq | eq
    · cases eq
    · cases eq
  | @admitted x y z r₀ _ whole work handed =>
    simp only [begun_append, begun_foreword, List.nil_append, List.mem_append] at mem
    rcases mem with mem | mem | mem
    · rcases whole.uses o.admission_uses _ mem with eq | eq
      · cases eq
      · cases eq
    · cases status <;> cases work_role work _ mem
    · cases handed.begun_eq (mem_begun.mp mem)

/-- Nor does the renewal of its leases. -/
theorem pass_setStatus_notMem {exit : Exit Unit} (alone : s.renewing = none)
    (h : o.pass.Tells s events (.exit exit) later) :
    (∀ actor release status, .began actor (.setStatus release status) ∉ events) ∧
    ∀ release status reply, .ended .pass (.setStatus release status) reply ∉ events := by
  have passage := pass_passage h.speaks
  constructor
  · intro actor release status mem
    cases actor with
    | pass => exact passage.setStatus_notMem (mem_begun.mpr ((mem_transcript rfl).mpr mem))
    | renewal =>
      obtain ⟨before, rest, eq⟩ := List.append_of_mem mem
      have renews := ((pass_tells alone h).1.leaseDiscipline.renewal before _ rest eq).1
      cases renews
  · intro release status reply mem
    obtain ⟨u, v, eq⟩ := List.append_of_mem ((mem_transcript rfl).mpr mem)
    obtain ⟨w, rfl⟩ := h.speaks.replied eq
    have mem' : Event.began .pass (.setStatus release status) ∈ transcript events := by simp [eq]
    exact passage.setStatus_notMem (mem_begun.mpr mem')

/-- A failure during the pass is never taken for one of the final state. -/
theorem blame_eq_finalReleaseStatus {before : List Event} {call : Call} {failure cause : Failure}
    (blamed : o.blame before call failure = some (.finalReleaseStatus cause)) :
    call.role = .conclusion := by
  unfold blame at blamed
  split at blamed <;> try cases blamed
  · rfl
  · split at blamed
    · cases blamed
    · simp at blamed

theorem finish_ne_finalReleaseStatus (o : Order) (cause : Failure) :
    o.finish ≠ .error (.finalReleaseStatus cause) := by
  intro eq
  obtain ⟨build, behind⟩ := finish_buildError eq
  cases behind

/-- A pass does not fail because the final state could not be written. -/
theorem Passage.error_ne {e : DeployError} (passage : o.Passage calm x (.exit (.error e)))
    (cause : Failure) : e ≠ .finalReleaseStatus cause := by
  rintro rfl
  generalize ending : RunEnd.exit (Exit.error (DeployError.finalReleaseStatus cause)) = r at passage
  cases passage with
  | @barred _ stop stops =>
    obtain rfl : Stop.error _ = stop := Stop.toEnd_inj.mp ending
    rcases stops.error with ⟨_, eq⟩ | ⟨current, call, blame, failure, next, rfl, eq⟩
    · cases eq
    · rcases admission_next_inv next with ⟨_, _, rfl⟩ | ⟨_, _, rfl⟩
      · cases eq
      · cases eq
  | @admitted x y z r₀ _ whole work handed =>
    subst ending
    obtain ⟨rfl, _⟩ := handed.of_error
    rcases work.error with none | eq | ⟨current, task, call, blame, failure, rfl, reaches, eq, _⟩
    · exact o.finish_ne_finalReleaseStatus cause none
    · cases eq
    · have blamed := (reaches.reads (.refl _)).blame failure
      rw [← eq] at blamed
      have role := work_role work call (by simp)
      rw [blame_eq_finalReleaseStatus blamed] at role
      cases role

def outcome (exit : Exit Unit) (reply : Reply Unit) : Exit Unit :=
  match exit with
  | .ok _ => settle .finalReleaseStatus reply
  | exit => exit.past reply

/-- What concludes a rollout that returns. -/
theorem conclude_tells {exit : Exit Unit} (alone : s.renewing = none)
    (h : (o.conclude exit).Tells s events r later) (returns : r.Returns) :
    (RunEnd.exit exit).Returns ∧ ∃ noise reply rest,
      events = .began .pass (o.mark (RunEnd.exit exit).status) :: noise ++
        .ended .pass (o.mark (RunEnd.exit exit).status) reply :: rest ∧
      reply ≠ .cancelled ∧ Uneventful (noise ++ rest) ∧ r = .exit (outcome exit reply) := by
  cases exit with
  | panic text =>
    obtain ⟨_, rfl, _⟩ := h.done_inv
    rcases returns with ⟨_, eq⟩ | ⟨_, eq⟩ <;> cases eq
  | ok a =>
    refine ⟨.inl ⟨a, rfl⟩, h.carried_inv o.markComplete (outcome (.ok a)) rfl alone returns
      fun reply notCancelled => ?_⟩
    cases reply with
    | ok answer => exact .note (.done _)
    | failed failure => exact .done _
    | panicked text => exact .done _
    | cancelled => exact absurd rfl notCancelled
  | error e =>
    refine ⟨.inr ⟨e, rfl⟩, h.carried_inv o.markFailed (outcome (.error e)) rfl alone returns
      fun reply notCancelled => ?_⟩
    cases reply with
    | ok answer => exact .note (.done _)
    | failed failure => exact .note (.done _)
    | panicked text => exact .done _
    | cancelled => exact absurd rfl notCancelled

end Order

/-- A rollout whose release is marked as running, whose pass ends and which is concluded. -/
structure Concluded (o : Order) (exit : Exit Unit) (r : RunEnd Unit) where
  first : Stage
  marked : Stage
  after : Stage
  last : Stage
  opening : List Event
  passing : List Event
  closing : List Event
  alone : first.renewing = none
  opens : o.announce.Tells first opening (.exit (.ok ())) marked
  passes : o.pass.Tells marked passing (.exit exit) after
  closes : (o.conclude exit).Tells after closing r last

namespace Concluded

variable {o : Order} {exit : Exit Unit} {r : RunEnd Unit}

def events (l : Concluded o exit r) : List Event := l.opening ++ l.passing ++ l.closing

theorem marked_alone (l : Concluded o exit r) : l.marked.renewing = none :=
  (l.opens.settled o.announce_uses).2.trans l.alone

theorem after_alone (l : Concluded o exit r) : l.after.renewing = none :=
  (Order.pass_tells l.marked_alone l.passes).2

theorem settled (l : Concluded o exit r) : Settled (l.opening ++ l.passing) :=
  settled_append (l.opens.settled o.announce_uses).1 l.passes.settled_of_exit

theorem writes_pass (l : Concluded o exit r) :
    writes (l.opening ++ l.passing) = [(o.deployment.launch.release.id, .running)] := by
  rw [writes_append, Order.announce_writes l.alone l.opens,
    writes_eq_nil (Order.pass_setStatus_notMem l.marked_alone l.passes).1]
  rfl

/-- The final state is not written before the rollout is concluded. -/
theorem ended_notMem (l : Concluded o exit r) {status : ReleaseStatus} (final : status ≠ .running)
    (reply : Reply Unit) : .ended .pass (o.mark status) reply ∉ l.opening ++ l.passing := by
  intro mem
  rcases List.mem_append.mp mem with mem | mem
  · have role : (o.mark status).role = .opening := l.opens.within o.announce_uses _ mem
    cases status with
    | running => exact final rfl
    | complete => cases role
    | failed => cases role
  · exact (Order.pass_setStatus_notMem l.marked_alone l.passes).2 _ _ _ mem

/-- What is replied about the final state tells how the rollout ends. -/
theorem concludes (l : Concluded o exit r) (returns : r.Returns) :
    (RunEnd.exit exit).Returns ∧ ∃ noise reply rest,
      l.closing = .began .pass (o.mark (RunEnd.exit exit).status) :: noise ++
        .ended .pass (o.mark (RunEnd.exit exit).status) reply :: rest ∧
      reply ≠ .cancelled ∧ Uneventful (noise ++ rest) ∧ r = .exit (Order.outcome exit reply) ∧
      ∀ other, .ended .pass (o.mark (RunEnd.exit exit).status) other ∈ l.events ↔
        other = reply := by
  obtain ⟨ended, noise, reply, rest, eq, notCancelled, quiet, outcome⟩ :=
    Order.conclude_tells l.after_alone l.closes returns
  refine ⟨ended, noise, reply, rest, eq, notCancelled, quiet, outcome, fun other => ?_⟩
  have final : (RunEnd.exit exit).status ≠ .running := by cases exit <;> simp [RunEnd.status]
  have none : .ended .pass (o.mark (RunEnd.exit exit).status) other ∉ noise ++ rest := fun mem => by
    cases quiet.call?_eq_none mem
  rw [events, eq, List.mem_append, or_iff_right (l.ended_notMem final other)]
  constructor
  · intro mem
    simp only [List.cons_append, List.mem_cons, List.mem_append] at mem none
    rcases mem with eq | mem | eq | mem
    · cases eq
    · exact absurd (.inl mem) none
    · cases eq
      rfl
    · exact absurd (.inr mem) none
  · rintro rfl
    simp

structure IsOf {σ : Type} (l : Concluded o exit r) (pass run : World σ × RunEnd Unit) : Prop where
  passed : pass.1.events = l.opening ++ l.passing
  passEnd : pass.2 = .exit exit
  ran : run.1.events = l.events
  runEnd : run.2 = r

/-- A pass that went well is followed by one of two ends, -/
theorem ends_of_ok {a : Unit} (l : Concluded o (.ok a) r) (returns : r.Returns) :
    (r = .exit (.ok ()) ↔ .ended .pass o.markComplete (.ok ()) ∈ l.events) ∧
    ∀ failure, r = .exit (.error (.finalReleaseStatus failure)) ↔
      .ended .pass o.markComplete (.failed failure) ∈ l.events := by
  obtain ⟨_, _, reply, _, _, notCancelled, _, rfl, replied⟩ := l.concludes returns
  refine ⟨Iff.trans ?_ (replied (.ok ())).symm,
    fun failure => Iff.trans ?_ (replied (.failed failure)).symm⟩
  · cases reply with
    | cancelled => exact absurd rfl notCancelled
    | _ => simp [Order.outcome, settle]
  · cases reply with
    | cancelled => exact absurd rfl notCancelled
    | _ => simp [Order.outcome, settle, eq_comm]

/-- and one that failed by its own error. -/
theorem ends_of_error {e : DeployError} (l : Concluded o (.error e) r) (returns : r.Returns) :
    r = .exit (.error e) := by
  obtain ⟨_, _, reply, _, _, _, _, rfl, _⟩ := l.concludes returns
  cases reply with
  | panicked text => rcases returns with ⟨_, eq⟩ | ⟨_, eq⟩ <;> cases eq
  | _ => rfl

theorem error_ne {e : DeployError} (l : Concluded o (.error e) r) (cause : Failure) :
    e ≠ .finalReleaseStatus cause :=
  (Order.pass_passage l.passes.speaks).error_ne cause

theorem ends (l : Concluded o exit r) (returns : r.Returns) :
    (r = .exit (.ok ()) ↔ exit = .ok () ∧ .ended .pass o.markComplete (.ok ()) ∈ l.events) ∧
    (∀ failure, r = .exit (.error (.finalReleaseStatus failure)) ↔
      exit = .ok () ∧ .ended .pass o.markComplete (.failed failure) ∈ l.events) ∧
    ∀ e, exit = .error e → r = .exit (.error e) := by
  rcases (l.concludes returns).1 with ⟨⟨⟩, same⟩ | ⟨e, same⟩
  · obtain rfl := RunEnd.exit.inj same
    obtain ⟨succeeds, unwritten⟩ := l.ends_of_ok returns
    exact ⟨by simpa using succeeds, by simpa using unwritten, by rintro e ⟨⟩⟩
  · obtain rfl := RunEnd.exit.inj same
    have fails := l.ends_of_error returns
    refine ⟨by simp [fails], by simpa [fails] using l.error_ne, ?_⟩
    rintro _ ⟨⟩
    exact fails

theorem statusProtocol {σ : Type} {pass run : World σ × RunEnd Unit} (l : Concluded o exit r)
    (isOf : l.IsOf pass run) (returns : r.Returns) : StatusProtocol o pass run := by
  obtain ⟨passed, passEnd, ran, rfl⟩ := isOf
  obtain ⟨ended, noise, reply, rest, eq, notCancelled, quiet, _⟩ := l.concludes returns
  obtain ⟨succeeds, unwritten, keeps⟩ := l.ends returns
  have silent := quiet.writes_eq_nil
  rw [writes_append] at silent
  obtain ⟨before, later⟩ := List.append_eq_nil_iff.mp silent
  constructor
  case returned => exact passEnd ▸ ended
  case settled => exact passed ▸ l.settled
  case once =>
    rw [ran, events, writes_append, l.writes_pass, eq, passEnd]
    simp [before, later]
  case last =>
    refine ⟨noise, reply, rest, ?_, notCancelled, quiet⟩
    rw [ran, events, passed, eq, passEnd]
    simp
  case succeeds => simpa [passEnd, ran] using succeeds
  case unwritten => simpa [passEnd, ran] using unwritten
  case keeps => simpa [passEnd] using keeps

end Concluded

namespace Order

section Runs

variable {σ : Type} {o : Order} {c : Collaborators σ} {horizon : Horizon} {signal : Signal}
  {schedule : List (Nat × SignalChange)} {memory : σ}

/-- A rollout whose release is marked as running goes on with its pass. -/
theorem announce_run (announced : o.announced ∈
      (o.run c horizon (.start signal schedule memory)).1.events) :
    (o.announce.run c horizon (.start signal schedule memory)).2 = .exit (.ok ()) := by
  obtain ⟨x, grown, told⟩ := o.announce.run_tells c horizon (.start signal schedule memory)
  have whole : (o.announce.run c horizon (.start signal schedule memory)).1.events = x := grown
  rw [← whole] at told
  rw [Order.run, script_eq, run_bind] at announced
  rcases ran : o.announce.run c horizon (.start signal schedule memory) with ⟨after, ending⟩
  rw [ran] at announced told
  rcases ending with ⟨⟨⟩ | e | text⟩ | _
  · rfl
  · exact marked_of_announced told announced
  · exact marked_of_announced told announced
  · exact marked_of_announced told announced

/-- The parts of a rollout that returns after its release was marked as running. -/
theorem run_concluded (returns : (o.run c horizon (.start signal schedule memory)).2.Returns)
    (announced : o.announced ∈ (o.run c horizon (.start signal schedule memory)).1.events) :
    ∃ (exit : Exit Unit) (r : RunEnd Unit) (l : Concluded o exit r),
      l.IsOf (o.passRun c horizon (.start signal schedule memory))
        (o.run c horizon (.start signal schedule memory)) := by
  have marked := announce_run announced
  obtain ⟨x, grown, told⟩ := o.announce.run_tells c horizon (.start signal schedule memory)
  rw [marked] at told
  let before := (o.announce.run c horizon (.start signal schedule memory)).1
  obtain ⟨y, grown', passed⟩ := o.pass.run_tells c horizon before
  rw [run_of_marked marked] at returns ⊢
  rw [passRun] at returns ⊢
  rcases ran : o.pass.run c horizon before with ⟨after, exit | _⟩
  · rw [ran] at grown' passed returns
    obtain ⟨z, grown'', closed⟩ := (o.conclude exit).run_tells c horizon after
    have opening : before.events = x := grown
    have passing : after.events = x ++ y := by rw [← opening]; exact grown'
    refine ⟨exit, _, ⟨_, _, _, _, x, y, z, rfl, told, passed, closed⟩, passing, rfl, ?_, rfl⟩
    rw [Concluded.events, ← passing]
    exact grown''
  · rw [ran] at returns
    rcases returns with ⟨_, eq⟩ | ⟨_, eq⟩
    · cases eq
    · cases eq

end Runs

/-- Every rollout that returns after its release was marked as running keeps to the protocol.
Unless it was refused its leases, the calls it makes and what it returns are those that it would
make and return if nothing failed about leases. -/
theorem run_statusProtocol {σ : Type} (o : Order) (c : Collaborators σ) (horizon : Horizon)
    (signal : Signal) (schedule : List (Nat × SignalChange)) (memory : σ)
    (returns : (o.run c horizon (.start signal schedule memory)).2.Returns)
    (announced : o.announced ∈ (o.run c horizon (.start signal schedule memory)).1.events) :
    StatusProtocol o (o.passRun c horizon (.start signal schedule memory))
      (o.run c horizon (.start signal schedule memory)) ∧
    (Granted (o.run c horizon (.start signal schedule memory)).1.events →
      (o.run c.lenient horizon (.start signal schedule memory)).2 =
        (o.run c horizon (.start signal schedule memory)).2 ∧
      (o.run c.lenient horizon (.start signal schedule memory)).1.trace.calls =
        (o.run c horizon (.start signal schedule memory)).1.trace.calls) := by
  obtain ⟨exit, r, parts, isOf⟩ := run_concluded returns announced
  exact ⟨parts.statusProtocol isOf (isOf.runEnd ▸ returns),
    o.run_lenient c horizon signal schedule memory⟩

end Order

namespace Rehearsal

/-- Waits take seven seconds, the first renewal fails, the leases cannot be given back, and the
release cannot be marked as complete. -/
def brokenRules : List Rule :=
  [{ callName := "wait_for_state", actions := [.sleep 7000] },
    { callName := "acquire", nth := some 2, actions := [.fail ⟨"lease lost", []⟩] },
    { callName := "release", actions := [.fail ⟨"lease manager unavailable", []⟩] },
    { callName := "set_status", target := some "complete",
      actions := [.fail ⟨"release store unavailable", []⟩] }]

def brokenRun : World Progress × RunEnd Unit :=
  loneOrder.run byRules ⟨60000, false⟩ (.start {} [] (ofRules brokenRules))

def grants : Event → Bool
  | .ended .pass made (.failed _) => made.role ≠ .acquire
  | _ => true

theorem granted_of_grants {events : List Event} (all : events.all grants = true) :
    Granted events := by
  intro call failure role mem
  have kept := List.all_eq_true.mp all _ mem
  simp [grants, role] at kept

/-- What could not be written is what the rollout fails with; that the leases were lost and not
given back makes no difference. -/
theorem brokenRun_statusProtocol :
    brokenRun.2 = .exit (.error (.finalReleaseStatus ⟨"release store unavailable", []⟩)) ∧
    StatusProtocol loneOrder
      (loneOrder.passRun byRules ⟨60000, false⟩ (.start {} [] (ofRules brokenRules))) brokenRun ∧
    (loneOrder.run byRules.lenient ⟨60000, false⟩ (.start {} [] (ofRules brokenRules))).2 =
      brokenRun.2 := by
  have announced : loneOrder.announced ∈ brokenRun.1.events :=
    List.mem_of_getElem? (show brokenRun.1.events[2]? = _ from rfl)
  obtain ⟨protocol, lenient⟩ := Order.run_statusProtocol loneOrder byRules ⟨60000, false⟩ {} []
    (ofRules brokenRules) (.inr ⟨_, rfl⟩) announced
  exact ⟨rfl, protocol, (lenient (granted_of_grants rfl)).1⟩

end Rehearsal

end Rollout
