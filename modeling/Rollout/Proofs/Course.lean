import Rollout.Proofs.Frame
import Rollout.Proofs.Tasks

/-!
# The course of a rollout

The transcript of a rollout has the same parts in every run: the release is marked as running,
the pass is admitted, its tasks are worked on, the leases are handed back, and the state in
which the release is left is written. `Course` says how each part may go, and how the rollout
ends with them.
-/

namespace Rollout

open Script

/-- How something ends that one more call follows: as it did, unless the call panics. -/
def Exit.past {α : Type} (exit : Exit Unit) : Reply α → Exit Unit
  | .panicked text => .panic text
  | _ => exit

namespace Order

@[reducible] def markRunning (o : Order) : Call :=
  .setStatus o.deployment.launch.release.id .running

@[reducible] def markComplete (o : Order) : Call :=
  .setStatus o.deployment.launch.release.id .complete

@[reducible] def markFailed (o : Order) : Call :=
  .setStatus o.deployment.launch.release.id .failed

def runsCommand (o : Order) : Bool := !o.settings.restartOnly && o.releaseCommand.declared

/-- What admits a pass to its work: the release command, where there is one, and the leases. -/
def admission (o : Order) : Procedure Unit :=
  let leases : Procedure Unit := .call o.acquisition .leaseAcquisition .finish
  if o.runsCommand then .call .releaseCommand .releaseCommand fun _ => leases else leases

theorem admission_uses (o : Order) :
    o.admission.Uses fun call => call = .releaseCommand ∨ call = o.acquisition := by
  rw [admission]
  split
  · exact ⟨.inl rfl, fun _ => ⟨.inr rfl, fun _ => trivial⟩⟩
  · exact ⟨.inr rfl, fun _ => trivial⟩

def foreword (o : Order) : List Event := transcript (o.preface.map .note)

/-- How the leases are given back after work that ended like this. -/
inductive HandsBack (o : Order) : RunEnd Unit → List Event → RunEnd Unit → Prop
  | hung : HandsBack o .hung [] .hung
  /-- The renewal of the leases does not end while the run is watched. -/
  | cutOff {exit} : HandsBack o (.exit exit) [] .hung
  | unanswered {exit} : HandsBack o (.exit exit) [.began .pass o.handback] .hung
  | answered {exit reply} : reply ≠ .cancelled →
    HandsBack o (.exit exit) [.began .pass o.handback, .ended .pass o.handback reply]
      (.exit (exit.past reply))

/-- The transcripts of a pass. -/
inductive Passage (o : Order) (calm : Prop) : List Event → RunEnd Unit → Prop
  | barred {x stop} : o.admission.Stops calm x stop → Passage o calm x stop.toEnd
  | admitted {x y z r r'} : o.admission.Done x () → Work o calm o.finish o.tasks y r →
    HandsBack o r z r' → Passage o calm (x ++ (o.foreword ++ (y ++ z))) r'

/-- How the state of the release is written after a pass that ended like this. -/
inductive Concludes (o : Order) : RunEnd Unit → List Event → RunEnd Unit → Prop
  | hung : Concludes o .hung [] .hung
  | panicked {text} : Concludes o (.exit (.panic text)) [] (.exit (.panic text))
  | succeeded {a reply} : reply ≠ .cancelled →
    Concludes o (.exit (.ok a)) [.began .pass o.markComplete, .ended .pass o.markComplete reply]
      (.exit (settle .finalReleaseStatus reply))
  | failed {e reply} : reply ≠ .cancelled →
    Concludes o (.exit (.error e)) [.began .pass o.markFailed, .ended .pass o.markFailed reply]
      (.exit ((Exit.error e).past reply))
  | completing {a} : Concludes o (.exit (.ok a)) [.began .pass o.markComplete] .hung
  | failing {e} : Concludes o (.exit (.error e)) [.began .pass o.markFailed] .hung

/-- The transcripts of a rollout. -/
inductive Course (o : Order) (calm : Prop) : List Event → RunEnd Unit → Prop
  | unannounced {x stop} : Breaks calm .releaseStatus o.markRunning x stop →
    Course o calm x stop.toEnd
  | announced {x y r r'} : o.Passage calm x r → o.Concludes r y r' →
    Course o calm (exchange o.markRunning () ++ (x ++ y)) r'

section Parts

variable {o : Order} {x z : List Event} {r : RunEnd Unit} {call : Call}

def admitting (o : Order) : List Event :=
  (if o.runsCommand then exchange .releaseCommand () else []) ++ exchange o.acquisition ()

theorem eq_admitting (whole : o.admission.Done x ()) : x = o.admitting := by
  rw [admission] at whole
  rw [admitting]
  split at whole
  · rename_i runs
    cases whole with
    | call whole =>
      cases whole with
      | call whole =>
        cases whole
        rw [if_pos runs, List.append_nil]
  · rename_i skips
    cases whole with
    | call whole =>
      cases whole
      rw [if_neg skips]
      rfl

/-- The release command comes first, where there is one, and then the leases are acquired. -/
theorem admission_next_inv {u : List Event} {blame : Failure → DeployError}
    (next : o.admission.Next u call blame) :
    (u = [] ∧ call = .releaseCommand ∧ blame = .releaseCommand) ∨
    ((u = [] ∨ u = exchange .releaseCommand ()) ∧ call = o.acquisition ∧
      blame = .leaseAcquisition) := by
  rw [admission] at next
  split at next
  · cases next with
    | here => exact .inl ⟨rfl, rfl, rfl⟩
    | later next =>
      cases next with
      | here => exact .inr ⟨.inr rfl, rfl, rfl⟩
      | later next => cases next
  · cases next with
    | here => exact .inr ⟨.inl rfl, rfl, rfl⟩
    | later next => cases next

/-- What is told before the first task are lines of progress. -/
theorem mem_foreword {e : Event} (mem : e ∈ o.foreword) : ∃ line, e = .note (.progress line) := by
  obtain ⟨told, kept⟩ := List.mem_filter.mp mem
  obtain ⟨n, among, rfl⟩ := List.mem_map.mp told
  rw [preface] at among
  split at among
  · cases among
  · rw [changeNotes] at among
    split at among
    · cases among
    · rcases List.mem_cons.mp among with rfl | progress
      · simp [Event.isScripted, Note.isNotable, Note.isLeftBehind, cancelNote] at kept
      · obtain ⟨line, _, rfl⟩ := List.mem_map.mp progress
        exact ⟨line, rfl⟩

theorem begun_admitting (o : Order) :
    begun o.admitting = (if o.runsCommand then [.releaseCommand] else []) ++ [o.acquisition] := by
  rw [admitting, begun_append]
  split <;> rfl

theorem mem_preface {n : Note} (mem : .note n ∈ o.foreword) : n ∈ o.preface := by
  obtain ⟨n', among, same⟩ := List.mem_map.mp (List.mem_filter.mp mem).1
  cases same
  exact among

theorem filterMap_foreword {α : Type} (o : Order) {f : Event → Option α}
    (silent : ∀ line, f (.note (.progress line)) = none) : o.foreword.filterMap f = [] := by
  refine List.filterMap_eq_nil_iff.mpr fun e mem => ?_
  obtain ⟨line, rfl⟩ := mem_foreword mem
  exact silent line

theorem begun_foreword (o : Order) : begun o.foreword = [] := o.filterMap_foreword fun _ => rfl

/-- What gives the leases back and does not hang follows work that did not. -/
theorem HandsBack.ne_hung {r₀ : RunEnd Unit} (handed : o.HandsBack r₀ z r) (hung : r ≠ .hung) :
    r₀ ≠ .hung := by
  rintro rfl
  cases handed
  exact hung rfl

theorem HandsBack.begun_eq {r₀ : RunEnd Unit} (handed : o.HandsBack r₀ z r)
    (mem : .began .pass call ∈ z) : call = o.handback := by
  cases handed with
  | unanswered => simpa using mem
  | answered _ => simpa using mem
  | _ => simp at mem

theorem HandsBack.call_eq {r₀ : RunEnd Unit} {reply : Reply call.Answer}
    (handed : o.HandsBack r₀ z r) (mem : .ended .pass call reply ∈ z) : call = o.handback := by
  cases handed with
  | answered _ =>
    rcases List.mem_pair.mp mem with eq | eq
    · cases eq
    · cases eq
      rfl
  | _ => simp at mem

/-- Where nothing hangs and nothing panics the leases are given back, and the pass ends as its
work did. -/
theorem HandsBack.smooth {exit : Exit Unit} (handed : o.HandsBack (.exit exit) z r)
    (hung : r ≠ .hung) (noPanic : ∀ call text, .ended .pass call (.panicked text) ∉ z) :
    (∃ reply, z = [.began .pass o.handback, .ended .pass o.handback reply]) ∧ r = .exit exit := by
  cases handed with
  | cutOff => exact absurd rfl hung
  | unanswered => exact absurd rfl hung
  | @answered _ reply _ =>
    refine ⟨⟨reply, rfl⟩, ?_⟩
    cases reply with
    | panicked text => exact absurd (by simp) (noPanic o.handback text)
    | _ => rfl

/-- Giving the leases back adds no error of its own. -/
theorem HandsBack.of_error {r₀ : RunEnd Unit} {e : DeployError}
    (handed : o.HandsBack r₀ z (.exit (.error e))) :
    r₀ = .exit (.error e) ∧ begun z = [o.handback] := by
  generalize ending : RunEnd.exit (Exit.error e) = r at handed
  cases handed with
  | hung => cases ending
  | cutOff => cases ending
  | unanswered => cases ending
  | @answered exit reply _ =>
    refine ⟨?_, rfl⟩
    cases reply with
    | panicked text => cases ending
    | _ => rfl

/-- Where nothing hangs, nothing panics and the release can be marked, a pass that went well is
marked as complete. -/
theorem Concludes.smooth_ok {a : Unit} (concluded : o.Concludes (.exit (.ok a)) z r)
    (hung : r ≠ .hung) (noPanic : ∀ call text, .ended .pass call (.panicked text) ∉ z)
    (marked : ∀ failure, .ended .pass o.markComplete (.failed failure) ∉ z) :
    z = exchange o.markComplete () ∧ r = .exit (.ok ()) := by
  cases concluded with
  | completing => exact absurd rfl hung
  | @succeeded _ reply notCancelled =>
    cases reply with
    | ok answer => exact ⟨rfl, rfl⟩
    | failed failure => exact absurd (by simp) (marked failure)
    | panicked text => exact absurd (by simp) (noPanic o.markComplete text)
    | cancelled => exact absurd rfl notCancelled

theorem Concludes.ne_hung {r₀ : RunEnd Unit} (concluded : o.Concludes r₀ z r)
    (hung : r ≠ .hung) : r₀ ≠ .hung := by
  rintro rfl
  cases concluded
  exact hung rfl

theorem Concludes.begun_eq {r₀ : RunEnd Unit} (concluded : o.Concludes r₀ z r)
    (mem : .began .pass call ∈ z) : call = o.markComplete ∨ call = o.markFailed := by
  cases concluded with
  | succeeded _ => exact .inl (by simpa using mem)
  | completing => exact .inl (by simpa using mem)
  | failed _ => exact .inr (by simpa using mem)
  | failing => exact .inr (by simpa using mem)
  | _ => simp at mem

theorem Concludes.call_eq {r₀ : RunEnd Unit} {reply : Reply call.Answer}
    (concluded : o.Concludes r₀ z r) (mem : .ended .pass call reply ∈ z) :
    call = o.markComplete ∨ call = o.markFailed := by
  cases concluded with
  | succeeded _ =>
    rcases List.mem_pair.mp mem with eq | eq
    · cases eq
    · cases eq
      exact .inl rfl
  | failed _ =>
    rcases List.mem_pair.mp mem with eq | eq
    · cases eq
    · cases eq
      exact .inr rfl
  | _ => simp at mem

/-- Where nothing hangs and nothing panics a failed pass is marked so, and its error stands. -/
theorem Concludes.smooth_error {e : DeployError}
    (concluded : o.Concludes (.exit (.error e)) z r) (hung : r ≠ .hung)
    (noPanic : ∀ call text, .ended .pass call (.panicked text) ∉ z) :
    begun z = [o.markFailed] ∧ r = .exit (.error e) := by
  cases concluded with
  | failing => exact absurd rfl hung
  | @failed _ reply _ =>
    refine ⟨rfl, ?_⟩
    cases reply with
    | panicked text => exact absurd (by simp) (noPanic o.markFailed text)
    | _ => rfl

/-- Writing the final state adds no error but the one that it could not be written. -/
theorem Concludes.of_error {r₀ : RunEnd Unit} {e : DeployError}
    (concluded : o.Concludes r₀ z (.exit (.error e))) :
    (∃ failure, e = .finalReleaseStatus failure) ∨
      (r₀ = .exit (.error e) ∧ begun z = [o.markFailed]) := by
  generalize ending : RunEnd.exit (Exit.error e) = r at concluded
  cases concluded with
  | hung => cases ending
  | panicked => cases ending
  | completing => cases ending
  | failing => cases ending
  | @succeeded _ reply notCancelled =>
    cases reply with
    | cancelled => exact absurd rfl notCancelled
    | ok answer => cases ending
    | panicked text => cases ending
    | failed failure =>
      cases ending
      exact .inl ⟨failure, rfl⟩
  | @failed e' reply _ =>
    refine .inr ⟨?_, rfl⟩
    cases reply with
    | panicked text => cases ending
    | _ => rfl

end Parts

def opening (o : Order) : Script Unit :=
  if o.settings.restartOnly then pure () else o.runReleaseCommand

theorem pass_eq (o : Order) : o.pass = (o.opening >>= fun _ => o.withLeases o.body) := by
  rw [pass, opening, body]
  cases o.settings.restartOnly <;> rfl

variable {o : Order} {calm : Prop} {x : List Event} {r : RunEnd Unit}

/-- Without a release command, shutdown is looked for where the command would be run, and the
pass stops as it would at the leases. -/
theorem admission_performs (o : Order) :
    (o.opening >>= fun _ => request .leaseAcquisition o.acquisition).Performs o.admission := by
  rw [opening, admission, runsCommand]
  have leases := Performs.single .leaseAcquisition o.acquisition
  cases o.settings.restartOnly with
  | true => exact leases
  | false =>
    rw [runReleaseCommand]
    cases o.releaseCommand.declared with
    | true => exact .request fun _ => leases
    | false =>
      constructor
      intro calm x r h
      cases h with
      | @checkpoint _ raised _ _ down h =>
        cases raised with
        | false => exact leases.cases h
        | true =>
          have alarmed : ¬ calm := fun calmly => by cases down calmly
          have cancelled : (cancel : Script Unit).Speaks calm x r := h
          obtain ⟨rfl, rfl⟩ := cancelled.cancel_inv
          exact .inr ⟨.error .cancelled, .here (.refused alarmed rfl), rfl⟩

theorem giveBack_handsBack {exit : Exit Unit} (h : (o.giveBack exit).Speaks calm x r) :
    o.HandsBack (.exit exit) x r := by
  cases h with
  | cutOff => exact .cutOff
  | stopRenewal h =>
    have closes : ∀ reply : Reply o.handback.Answer, reply ≠ .cancelled →
        (Script.done (carry reply) >>= o.tellHandback exit).Closes (exit.past reply) := by
      intro reply notCancelled
      cases reply with
      | ok answer => exact .note (transcript_log (by simp)) (.done _)
      | failed failure => exact .note (transcript_log (by simp)) (.done _)
      | panicked text => exact .done _
      | cancelled => exact absurd rfl notCancelled
    rcases h.carryThrough_inv exit.past rfl closes with ⟨rfl, rfl⟩ | ⟨reply, notCancelled, rfl, rfl⟩
    · exact .unanswered
    · exact .answered notCancelled

theorem conclude_concludes {exit : Exit Unit} (h : (o.conclude exit).Speaks calm x r) :
    o.Concludes (.exit exit) x r := by
  cases exit with
  | panic text =>
    obtain ⟨rfl, rfl⟩ := h.done_inv
    exact .panicked
  | ok a =>
    have marked := h.carryThrough_inv (settle .finalReleaseStatus) rfl fun reply notCancelled => by
      cases reply with
      | ok answer => exact .note (transcript_log (by simp)) (.done _)
      | failed failure => exact .done _
      | panicked text => exact .done _
      | cancelled => exact absurd rfl notCancelled
    rcases marked with ⟨rfl, rfl⟩ | ⟨reply, notCancelled, rfl, rfl⟩
    · exact .completing
    · exact .succeeded notCancelled
  | error e =>
    have marked := h.carryThrough_inv (Exit.error e).past rfl fun reply notCancelled => by
      cases reply with
      | ok answer => exact .note (transcript_log (by simp)) (.done _)
      | failed failure => exact .note (transcript_log (by simp)) (.done _)
      | panicked text => exact .done _
      | cancelled => exact absurd rfl notCancelled
    rcases marked with ⟨rfl, rfl⟩ | ⟨reply, notCancelled, rfl, rfl⟩
    · exact .failing
    · exact .failed notCancelled

/-- The work, and giving back the leases however it ends. -/
theorem body_handsBack (h : (o.body.attempt >>= o.giveBack).Speaks calm x r) :
    ∃ y z r', x = o.foreword ++ (y ++ z) ∧ Work o calm o.finish o.tasks y r' ∧
      o.HandsBack r' z r := by
  obtain ⟨script, eq, works⟩ := o.body_eq
  rw [eq] at h
  rcases h.attempt_bind_inv with ⟨exit, y, z, worked, told, rfl⟩ | ⟨worked, rfl⟩
  · obtain ⟨y, rfl, done⟩ := worked.narrate_inv
    exact ⟨y, z, _, by simp [foreword], works.work done, giveBack_handsBack told⟩
  · obtain ⟨y, rfl, done⟩ := worked.narrate_inv
    exact ⟨y, [], .hung, by simp [foreword], works.work done, .hung⟩

theorem pass_passage (h : o.pass.Speaks calm x r) : o.Passage calm x r := by
  rw [pass_eq] at h
  simp only [withLeases_eq] at h
  rw [← bind_assoc] at h
  rcases o.admission_performs.bind_cases h with
    ⟨⟨⟩, y, z, whole, told, rfl⟩ | ⟨stop, stops, rfl⟩
  · cases Speaks.skip (transcript_log (by simp)) told with
    | startRenewal worked =>
      obtain ⟨work, back, r', rfl, works, handed⟩ := body_handsBack worked
      exact .admitted whole works handed
  · exact .barred stops

theorem announce_performs (o : Order) :
    o.announce.Performs (.call o.markRunning .releaseStatus .finish) :=
  .note (transcript_log (by simp)) (.single _ _)

/-- Every rollout takes its course. -/
theorem script_course (h : o.script.Speaks calm x r) : o.Course calm x r := by
  rw [script_eq] at h
  rcases o.announce_performs.bind_cases h with
    ⟨⟨⟩, y, z, announced, told, rfl⟩ | ⟨stop, stopped, rfl⟩
  · obtain rfl : y = exchange o.markRunning () := by
      cases announced with
      | call whole =>
        cases whole
        rfl
    rcases told.attempt_bind_inv with ⟨exit, y, z, passed, concluded, rfl⟩ | ⟨passed, rfl⟩
    · exact .announced (pass_passage passed) (conclude_concludes concluded)
    · have course := Course.announced (pass_passage passed) .hung
      rwa [List.append_nil] at course
  · cases stopped with
    | here breaks => exact .unannounced breaks
    | later stopped => cases stopped

end Order

end Rollout
