import Rollout.Proofs.Completion
import Rollout.Proofs.LeaseDiscipline
import Rollout.Proofs.PlanAgreement
import Rollout.Proofs.Position

/-!
# Failures stop a rollout

A failure that stops the pass is the last thing that its work comes to. After it the leases are
given back if they are held, the release is marked as failed if it was marked as running, and the
rollout ends with the error that names the failed call. Such an error comes from nothing else.
-/

namespace Rollout

open Script

namespace Order

def announced (o : Order) : Event := .ended .pass o.markRunning (.ok ())

end Order

/-- Whether an error tells of a call that stops the pass when it fails. -/
def DeployError.isStep : DeployError → Bool
  | .releaseStatus _ => true
  | .releaseCommand _ => true
  | .leaseAcquisition _ => true
  | .destroy .. => true
  | .create .. => true
  | .launch .. => true
  | .update .. => true
  | .wait .. => true
  | .finalReleaseStatus _ => false
  | .buildPlan .. => false
  | .buildLaunch .. => false
  | .cancelled => false

/-- What is still begun after the pass has failed. -/
structure Aftermath (o : Order) (before later : List Event) : Prop where
  /-- Leases that are held are given back, and the release is marked as failed. -/
  held : o.acquired ∈ before → begun later = [o.handback, o.markFailed]
  /-- Without leases the release is only marked as failed, -/
  unheld : o.announced ∈ before → o.acquired ∉ before → begun later = [o.markFailed]
  /-- and a release that was not marked as running is left alone. -/
  unannounced : o.announced ∉ before → begun later = []
  /-- Leases that are held may be renewed until they are given back. -/
  renewals : ∀ mid call rest, later = mid ++ .began .renewal call :: rest →
    call = o.acquisition ∧ o.acquired ∈ before ∧ o.handback ∉ begun mid

/-- What failures do to a rollout. -/
structure FailStop (o : Order) (events : List Event) (r : RunEnd Unit) : Prop where
  /-- A failure that stops the pass is what the rollout ends with. -/
  stops : r ≠ .hung → (∀ call text, .ended .pass call (.panicked text) ∉ events) →
    ∀ before call failure later, events = before ++ .ended .pass call (.failed failure) :: later →
      o.isFatal before call = true →
        ∃ e, o.blame before call failure = some e ∧ r = .exit (.error e) ∧ Aftermath o before later
  /-- An error that tells of a failure comes from one, and no call of the pass proper follows
  that. -/
  blamed : ∀ e, r = .exit (.error e) → e.isStep = true → ∃ before call failure later,
    events = before ++ .ended .pass call (.failed failure) :: later ∧
    o.isFatal before call = true ∧ o.blame before call failure = some e ∧
    ∀ call ∈ begun later, call = o.handback ∨ call = o.markFailed
  /-- The group or the machine that a failed launch names is the one that it was for. -/
  launches : ∀ before input failure later,
    events = before ++ .ended .pass (.launch input) (.failed failure) :: later →
      BlamesOwn o before input failure

namespace Order

variable {o : Order} {calm : Prop} {x u v before : List Event} {r : RunEnd Unit} {call : Call}
  {failure : Failure} {blame : Failure → DeployError}

/-- Before the leases are acquired they are not held. -/
theorem acquired_notMem_of_next (next : o.admission.Next u call blame) : o.acquired ∉ u := by
  rcases admission_next_inv next with ⟨rfl, _, _⟩ | ⟨rfl | rfl, _, _⟩
  · simp
  · simp
  · simp [exchange, acquired]

theorem acquired_mem_admitting (o : Order) : o.acquired ∈ o.admitting := by
  simp [admitting, exchange, acquired]

/-- A call of a pass that failed was to admit it, was to give the leases back, or is part of a
task, which then stops the work unless it is left behind. -/
theorem passage_failed_at (passage : o.Passage calm x r)
    (eq : x = u ++ .ended .pass call (.failed failure) :: v) :
    (v = [] ∧ ∃ current blame, u = current ++ [.began .pass call] ∧
      o.admission.Next current call blame ∧ r = .exit (.error (blame failure))) ∨
    call = o.handback ∨
    ∃ current task blame, u = o.admitting ++ (o.foreword ++ (current ++ [.began .pass call])) ∧
      Reaches o calm o.tasks current task call blame ∧
      ((o.strategy = .immediate ∧ ∃ entry, task = .settle entry) ∨
        o.HandsBack (.exit (.error (blame failure))) v r) := by
  cases passage with
  | barred stops =>
    obtain ⟨current, blame, next, rfl, rfl, rfl⟩ := stops.failed eq
    exact .inl ⟨rfl, current, blame, rfl, next, rfl⟩
  | @admitted x y z r' _ whole work handed =>
    have notAdmitting : .ended .pass call (.failed failure) ∉ x := whole.succeed.failed_notMem
    have notForeword : .ended .pass call (.failed failure) ∉ o.foreword := fun mem => by
      obtain ⟨line, eq⟩ := mem_foreword mem
      cases eq
    obtain ⟨u₁, rfl, tail₁⟩ := split_later eq notAdmitting
    obtain ⟨u₂, rfl, tail₂⟩ := split_later tail₁ notForeword
    refine .inr ?_
    rcases split_append tail₂ with ⟨u₃, rfl, tail₃⟩ | ⟨rest, head, rfl⟩
    · have mem : .ended .pass call (.failed failure) ∈ z := by simp [tail₃]
      exact .inl (handed.call_eq mem)
    · obtain ⟨current, task, blame, rfl, reaches, ending⟩ := work.failed head
      rw [eq_admitting whole]
      refine .inr ⟨current, task, blame, rfl, reaches, ending.imp_right ?_⟩
      rintro ⟨rfl, rfl, _⟩
      exact handed

/-- A failure that stops the pass is what the pass ends with, once the leases are given back. -/
theorem passage_failed (passage : o.Passage calm x r) (hung : r ≠ .hung)
    (noPanic : ∀ call text, .ended .pass call (.panicked text) ∉ x)
    (eq : x = u ++ .ended .pass call (.failed failure) :: v) (same : SameMachines before u)
    (fatal : o.isFatal before call = true) : ∃ e,
      o.blame before call failure = some e ∧ r = .exit (.error e) ∧
      ((o.acquired ∈ u ∧ begun v = [o.handback]) ∨ (o.acquired ∉ u ∧ v = [])) := by
  rcases passage_failed_at passage eq with ⟨rfl, current, blame, rfl, next, rfl⟩ | rfl |
    ⟨current, task, blame, rfl, reaches, ending⟩
  · have unheld := acquired_notMem_of_next next
    exact ⟨blame failure, (admission_next next).1 _ _, rfl,
      .inr ⟨by simpa [acquired] using unheld, rfl⟩⟩
  · cases fatal
  · -- During the work it depends on the machines that are gone and new what the failure means.
    have reads : Reads o before task call blame :=
      reaches.reads (same.trans (o.sameMachines_work current call))
    rcases ending with ⟨immediate, entry, rfl⟩ | handed
    · exact absurd rfl (reads.fatal.mp fatal immediate entry)
    · obtain ⟨⟨reply, rfl⟩, rfl⟩ := handed.smooth hung fun call text mem =>
        noPanic call text (by simp [eq, mem])
      have held := List.mem_append_left (o.foreword ++ (current ++ [.began .pass call]))
        o.acquired_mem_admitting
      exact ⟨blame failure, reads.blame failure, rfl, .inl ⟨held, rfl⟩⟩

section Launches

variable {input : LaunchInput}

theorem passage_blamesOwn (passage : o.Passage calm x r)
    (eq : x = u ++ .ended .pass (.launch input) (.failed failure) :: v)
    (same : SameMachines before u) : BlamesOwn o before input failure := by
  rcases passage_failed_at passage eq with ⟨_, current, blame, _, next, _⟩ | handing |
    ⟨current, task, blame, rfl, reaches, _⟩
  · rcases admission_next_inv next with ⟨_, other, _⟩ | ⟨_, other, _⟩
    · cases other
    · cases other
  · cases handing
  · exact reaches.blamesOwn (same.trans (o.sameMachines_work current _)) failure

/-- A failed launch in a rollout names what it was for. -/
theorem course_blamesOwn (course : o.Course calm x r)
    (eq : x = u ++ .ended .pass (.launch input) (.failed failure) :: v)
    (same : SameMachines before u) : BlamesOwn o before input failure := by
  cases course with
  | unannounced breaks =>
    obtain ⟨other, _⟩ := breaks.failed_last eq
    cases other
  | @announced x y r₀ _ passage concluded =>
    have marking : Succeed (exchange o.markRunning ()) :=
      Procedure.succeed_exchange (c := o.markRunning) ()
    obtain ⟨u₁, rfl, tail₁⟩ := split_later eq marking.failed_notMem
    rcases split_append tail₁ with ⟨u₂, rfl, tail₂⟩ | ⟨rest, head, rfl⟩
    · have mem : .ended .pass (.launch input) (.failed failure) ∈ y := by simp [tail₂]
      rcases concluded.call_eq mem with other | other
      · cases other
      · cases other
    · exact passage_blamesOwn passage head (same.trans ⟨rfl, rfl⟩)

end Launches

/-- A failure that stops the pass is what the rollout ends with. -/
theorem course_failed (course : o.Course calm x r) (hung : r ≠ .hung)
    (noPanic : ∀ call text, .ended .pass call (.panicked text) ∉ x)
    (eq : x = u ++ .ended .pass call (.failed failure) :: v) (fatal : o.isFatal u call = true) :
    ∃ e, o.blame u call failure = some e ∧ r = .exit (.error e) ∧
      ((o.announced ∈ u ∧ o.acquired ∈ u ∧ begun v = [o.handback, o.markFailed]) ∨
        (o.announced ∈ u ∧ o.acquired ∉ u ∧ o.acquired ∉ v ∧ begun v = [o.markFailed]) ∨
        (o.announced ∉ u ∧ o.acquired ∉ u ∧ v = [])) := by
  cases course with
  | unannounced breaks =>
    obtain ⟨rfl, rfl, rfl, rfl⟩ := breaks.failed_last eq
    exact ⟨_, rfl, rfl, .inr (.inr ⟨by simp [announced], by simp [acquired], rfl⟩)⟩
  | @announced x y r₀ _ passage concluded =>
    have marking : Succeed (exchange o.markRunning ()) :=
      Procedure.succeed_exchange (c := o.markRunning) ()
    obtain ⟨u₁, rfl, tail₁⟩ := split_later eq marking.failed_notMem
    rcases split_append tail₁ with ⟨u₂, rfl, tail₂⟩ | ⟨rest, head, rfl⟩
    · have mem : .ended .pass call (.failed failure) ∈ y := by simp [tail₂]
      rcases concluded.call_eq mem with rfl | rfl
      · cases fatal
      · cases fatal
    · have hung₀ : r₀ ≠ .hung := concluded.ne_hung hung
      obtain ⟨e, means, rfl, ending⟩ := passage_failed passage hung₀
        (fun call text mem => noPanic call text (by simp [mem])) head ⟨rfl, rfl⟩ fatal
      obtain ⟨marked, rfl⟩ := concluded.smooth_error hung fun call text mem =>
        noPanic call text (by simp [mem])
      have announced : o.announced ∈ exchange o.markRunning () ++ u₁ := by
        simp [exchange, announced]
      have unrelated : o.acquired ∉ exchange o.markRunning () := by simp [exchange, acquired]
      refine ⟨e, means, rfl, ?_⟩
      rw [begun_append, marked]
      rcases ending with ⟨held, handed⟩ | ⟨unheld, rfl⟩
      · exact .inl ⟨announced, List.mem_append_right _ held, by rw [handed]; rfl⟩
      · refine .inr (.inl ⟨announced, by simp [unrelated, unheld], fun mem => ?_, rfl⟩)
        rcases concluded.call_eq mem with eq | eq
        · cases eq
        · cases eq

/-- The only errors of a plan are those of its inputs. -/
theorem finish_buildError {e : DeployError} (eq : o.finish = .error e) :
    ∃ cause, e.buildError? = some cause := by
  have failed : o.plan = .error e := by
    rw [finish] at eq
    cases planned : o.plan with
    | ok plan => simp [planned, Exit.ofExcept] at eq
    | error e' =>
      rw [planned] at eq
      cases eq
      rfl
  cases restarts : o.settings.restartOnly with
  | true => simp [plan, restarts] at failed
  | false =>
    rw [plan_of_deploys restarts] at failed
    rcases Plan.deploy_eq_error_iff.mp failed with unlaunched | ⟨_, _, unplanned⟩
    · obtain ⟨_, group, _, _, _, refused⟩ := mapM_eq_error_iff.mp unlaunched
      obtain ⟨cause, _, rfl⟩ := Plan.planLaunch_eq_error refused
      exact ⟨cause, rfl⟩
    · obtain ⟨_, m, _, _, _, refused⟩ := mapM_eq_error_iff.mp unplanned
      obtain ⟨cause, _, rfl⟩ := Plan.planUpdate_eq_error refused
      exact ⟨cause, rfl⟩

theorem finish_not_step {e : DeployError} (eq : o.finish = .error e) : e.isStep = false := by
  obtain ⟨cause, behind⟩ := finish_buildError eq
  cases e with
  | buildPlan machine cause => rfl
  | buildLaunch group cause => rfl
  | _ => cases behind

/-- A pass that ends with such an error has come to a failure that stops it. -/
theorem passage_blamed {e : DeployError} (passage : o.Passage calm x (.exit (.error e)))
    (step : e.isStep = true) : ∃ u call failure v,
      x = u ++ .ended .pass call (.failed failure) :: v ∧
      (∀ before, SameMachines before u →
        o.isFatal before call = true ∧ o.blame before call failure = some e) ∧
      ∀ call ∈ begun v, call = o.handback := by
  generalize ending : RunEnd.exit (Exit.error e) = r at passage
  cases passage with
  | @barred _ stop stops =>
    obtain rfl : Stop.error e = stop := Stop.toEnd_inj.mp ending
    rcases stops.error with ⟨_, rfl⟩ | ⟨current, call, blame, failure, next, rfl, rfl⟩
    · cases step
    · obtain ⟨means, fatal⟩ := admission_next next
      exact ⟨current ++ [.began .pass call], call, failure, [], by simp,
        fun before _ => ⟨fatal before, means before failure⟩, by simp⟩
  | @admitted x y z r' _ whole work handed =>
    subst ending
    obtain ⟨rfl, handback⟩ := handed.of_error
    rcases work.error with none | rfl |
      ⟨current, task, call, blame, failure, rfl, reaches, rfl, left⟩
    · rw [finish_not_step none] at step
      cases step
    · cases step
    · refine ⟨x ++ (o.foreword ++ (current ++ [.began .pass call])), call, failure, z, by simp,
        fun before same => ?_, by simp [handback]⟩
      rw [eq_admitting whole] at same
      have reads : Reads o before task call blame :=
        reaches.reads (same.trans (o.sameMachines_work current call))
      refine ⟨reads.fatal.mpr fun immediate entry same => ?_, reads.blame failure⟩
      rw [left immediate entry same] at step
      cases step

/-- An error that tells of a failure comes from one. -/
theorem course_blamed {e : DeployError} (course : o.Course calm x (.exit (.error e)))
    (step : e.isStep = true) : ∃ u call failure v,
      x = u ++ .ended .pass call (.failed failure) :: v ∧ o.isFatal u call = true ∧
      o.blame u call failure = some e ∧
      ∀ call ∈ begun v, call = o.handback ∨ call = o.markFailed := by
  generalize ending : RunEnd.exit (Exit.error e) = r at course
  cases course with
  | @unannounced _ stop breaks =>
    obtain rfl : Stop.error e = stop := Stop.toEnd_inj.mp ending
    cases breaks with
    | refused => cases step
    | abandoned => cases step
    | failed failure =>
      exact ⟨[.began .pass o.markRunning], o.markRunning, failure, [], rfl, rfl, rfl, by simp⟩
  | @announced x y r₀ _ passage concluded =>
    subst ending
    rcases concluded.of_error with ⟨failure, rfl⟩ | ⟨rfl, marked⟩
    · cases step
    · obtain ⟨u, call, failure, v, rfl, means, handback⟩ := passage_blamed passage step
      obtain ⟨fatal, blamed⟩ := means (exchange o.markRunning () ++ u) ⟨rfl, rfl⟩
      refine ⟨exchange o.markRunning () ++ u, call, failure, v ++ y, by simp, fatal, blamed, ?_⟩
      intro call mem
      rw [begun_append, marked] at mem
      rcases List.mem_append.mp mem with mem | mem
      · exact .inl (handback call mem)
      · exact .inr (List.mem_singleton.mp mem)

/-- Leases that were acquired before the failure may still be renewed, but not after they are
given back. -/
theorem renewals_after {events later : List Event} {e : Event}
    (discipline : LeaseDiscipline o events) (eq : events = before ++ e :: later)
    (first : e ≠ o.acquired) (none : o.acquired ∉ before → o.acquired ∉ later) (mid : List Event)
    (renewed : Call) (rest : List Event) (at_ : later = mid ++ .began .renewal renewed :: rest) :
    renewed = o.acquisition ∧ o.acquired ∈ before ∧ o.handback ∉ begun mid := by
  have whole : events = (before ++ e :: mid) ++ .began .renewal renewed :: rest := by
    simp [eq, at_]
  obtain ⟨rfl, held⟩ := discipline.renewal _ _ _ whole
  refine ⟨rfl, ?_, fun handed => ?_⟩
  · by_contra unheld
    rcases List.mem_append.mp held with mem | mem
    · exact unheld mem
    · rcases List.mem_cons.mp mem with eq | mem
      · exact first eq.symm
      · exact none unheld (by simp [at_, mem])
  · obtain ⟨u, v, rfl⟩ := List.append_of_mem (mem_begun.mp handed)
    have split : events = (before ++ e :: u) ++
        .began .pass o.handback :: (v ++ .began .renewal o.acquisition :: rest) := by
      simp [eq, at_]
    exact discipline.none_after_release _ _ _ _ split rfl .renewal o.acquisition (by simp) rfl

theorem acquired_mem_transcript {events : List Event} :
    o.acquired ∈ transcript events ↔ o.acquired ∈ events := mem_transcript rfl

theorem announced_mem_transcript {events : List Event} :
    o.announced ∈ transcript events ↔ o.announced ∈ events := mem_transcript rfl

theorem script_failStop {s later : Stage} {events : List Event} (alone : s.renewing = none)
    (h : o.script.Tells s events r later) : FailStop o events r := by
  have course := script_course h.speaks
  constructor
  · intro hung noPanic before call failure after eq fatal
    have discipline : LeaseDiscipline o events := by
      cases r with
      | hung => exact absurd rfl hung
      | exit e => exact (script_tells alone h).leaseDiscipline
    have same := SameMachines.of_transcript before
    have split : transcript events =
        transcript before ++ .ended .pass call (.failed failure) :: transcript after := by simp [eq]
    rw [← isFatal_congr same] at fatal
    obtain ⟨e, means, rfl, ending⟩ := course_failed course hung
      (fun call text mem => noPanic call text ((mem_transcript rfl).mp mem)) split fatal
    refine ⟨e, by rwa [← blame_congr same], rfl, ?_⟩
    simp only [acquired_mem_transcript, announced_mem_transcript, begun_transcript] at ending
    have renewals := renewals_after discipline eq fun same => by cases same
    rcases ending with ⟨marked, held, only⟩ | ⟨marked, unheld, none, only⟩ |
      ⟨unmarked, unheld, empty⟩
    · exact ⟨fun _ => only, fun _ none => absurd held none, fun none => absurd marked none,
        renewals fun none => absurd held none⟩
    · exact ⟨fun held => absurd held unheld, fun _ _ => only, fun none => absurd marked none,
        renewals fun _ => none⟩
    · refine ⟨fun held => absurd held unheld, fun marked => absurd marked unmarked, fun _ => ?_,
        renewals fun _ mem => ?_⟩
      · rw [← begun_transcript, empty]
        rfl
      · rw [← acquired_mem_transcript, empty] at mem
        cases mem
  · rintro e rfl step
    obtain ⟨u, call, failure, v, eq, fatal, blamed, only⟩ := course_blamed course step
    obtain ⟨before, later, rfl, rfl, rfl⟩ := split_transcript eq
    have same := SameMachines.of_transcript before
    refine ⟨before, call, failure, later, rfl, by rwa [← isFatal_congr same],
      by rwa [← blame_congr same], ?_⟩
    rwa [begun_transcript] at only
  · intro before input failure later eq
    have split : transcript events = transcript before ++
        .ended .pass (.launch input) (.failed failure) :: transcript later := by simp [eq]
    exact course_blamesOwn course split (SameMachines.of_transcript before).symm

/-- Every run of a rollout stops at a failure that stops the pass, and what it says about a failure
is true. Where no call goes on for ever, one that is watched for long enough ends. -/
theorem run_failStop {σ : Type} (o : Order) (c : Collaborators σ) (signal : Signal)
    (schedule : List (Nat × SignalChange)) (memory : σ) :
    (∀ horizon, FailStop o (o.run c horizon (.start signal schedule memory)).1.events
      (o.run c horizon (.start signal schedule memory)).2) ∧
    (c.Return → ∃ time, ∀ horizon : Horizon, time < horizon.time →
      (o.run c horizon (.start signal schedule memory)).2 ≠ .hung) := by
  constructor
  · intro horizon
    exact script_failStop rfl (o.run_tells c horizon signal schedule memory)
  · intro returns
    exact o.run_returns returns (.start signal schedule memory)

end Order

namespace Rehearsal

/-- A machine was destroyed before the launch that fails, and one is left as it is. -/
theorem mixedOrder_failStop : (∃ before call failure later,
    (mixedOrder.run Fleet.collaborators ⟨60000, false⟩
      (.start {} [] { faults := { failLaunch := some ("web", "no capacity") } })).1.events =
        before ++ .ended .pass call (.failed failure) :: later ∧
    mixedOrder.isFatal before call = true ∧
    mixedOrder.blame before call failure = some (.create "web" none ⟨"no capacity", []⟩) ∧
    ∀ call ∈ begun later, call = mixedOrder.handback ∨ call = mixedOrder.markFailed) ∧
    ∃ time, ∀ horizon : Horizon, time < horizon.time →
      (mixedOrder.run willing horizon (.start {} [] ())).2 ≠ .hung := by
  obtain ⟨stops, _⟩ := Order.run_failStop mixedOrder Fleet.collaborators {} []
    { faults := { failLaunch := some ("web", "no capacity") } }
  obtain ⟨_, returns⟩ := Order.run_failStop mixedOrder willing {} [] ()
  exact ⟨(stops ⟨60000, false⟩).blamed _ rfl rfl, returns willing_return⟩

end Rehearsal

end Rollout
