import Rollout.Proofs.LeaseFailures
import Rollout.Proofs.Planning
import Rollout.Proofs.Promptness
import Rollout.Proofs.RenewalPace
import Rollout.Proofs.Sequence
import Rollout.Rehearsal.Rules

/-!
# Leases do not lapse

Whatever a pass does while it holds its leases, they are renewed before they run out, if shutdown is
not requested and no renewal takes as long as what a lease lasts beyond the interval. Before a run
acquires its leases and once it gives them back there is nothing that could lapse; in between it
makes calls, and waits for them beside the loop.
-/

namespace Rollout

variable {σ α β : Type}

namespace Order

variable {o : Order} {ttl : Nat} {c : Collaborators σ} {horizon : Horizon} {w later : World σ}
  {new : Trace}

theorem Holds.of_append {t : Trace} (holds : o.Holds (t ++ new))
    (none : o.acquired ∉ new.events) : o.Holds t := by
  obtain ⟨held, kept⟩ := holds
  rw [Trace.events_append] at held kept
  refine ⟨(List.mem_append.mp held).resolve_right none, fun mem => kept ?_⟩
  rw [begun_append]
  exact List.mem_append_left _ mem

/-- Nothing has lapsed, and no leases are held that could. -/
structure Idle (o : Order) (ttl : Nat) (w : World σ) : Prop where
  safe : o.Safe ttl w
  free : ¬ o.Holds w.trace

namespace Idle

/-- This only changes as leases are acquired. -/
theorem gains (idle : o.Idle ttl w) (gains : w.Gains c new later)
    (none : o.acquired ∉ new.events) : o.Idle ttl later := by
  have free : ∀ first second, new = first ++ second → ¬ o.Holds (w.trace ++ first) := by
    intro first second eq holds
    refine idle.free (holds.of_append fun mem => none ?_)
    rw [eq, Trace.events_append]
    exact List.mem_append_left _ mem
  have free_later : ¬ o.Holds later.trace := by
    rw [gains.trace]
    exact free new [] (List.append_nil _).symm
  refine ⟨⟨?_, fun holds => absurd holds free_later⟩, free_later⟩
  intro before e rest eq holds
  rw [gains.trace] at eq
  rcases split_append eq with ⟨mid, rfl, tail⟩ | ⟨mid, found, _⟩
  · exact absurd holds (free mid (e :: rest) tail)
  · exact idle.safe.watched before e mid found holds

theorem record (idle : o.Idle ttl w) {e : Event} (silent : ∀ actor call, e ≠ .began actor call)
    (other : e ≠ o.acquired) (c : Collaborators σ) : o.Idle ttl (w.record e) :=
  idle.gains (World.gains_record c w silent) (by simpa using other.symm)

theorem asked (idle : o.Idle ttl w) (c : Collaborators σ) (made : Call) :
    o.Idle ttl (w.asked c .pass made) :=
  idle.gains (World.gains_began c w .pass made) (by simp [acquired])

/-- In the background the pass acquires nothing. -/
theorem background {events : List Event} {s mid : Stage} (idle : o.Idle ttl w)
    (gains : w.Gains c new later) (grown : later.events = w.events ++ events)
    (background : s.Background events mid) : o.Idle ttl later := by
  obtain rfl := gains.events_eq grown
  exact idle.gains gains fun mem => background.admitted _ mem

theorem dropRenewal (idle : o.Idle ttl w) (c : Collaborators σ) : o.Idle ttl w.dropRenewal := by
  obtain ⟨_, new, gains, _⟩ := World.atOnce_dropRenewal c w
  obtain ⟨closing, mid, grown, background, _⟩ := w.dropRenewal_tells
  exact idle.background gains grown background

/-- A script that does not acquire leases leaves it at that. -/
theorem run {allowed : Call → Prop} {script : Script α} (idle : o.Idle ttl w)
    (uses : script.Uses allowed) (never : ¬ allowed o.acquisition) :
    o.Idle ttl (script.run c horizon w).1 := by
  obtain ⟨new, gains⟩ := script.run_gains c horizon w
  obtain ⟨events, grown, told⟩ := script.run_tells c horizon w
  obtain rfl := gains.events_eq grown
  exact idle.gains gains fun mem => never (told.within uses _ mem)

/-- Nor does a call, up to its reply. -/
theorem perform {made : Call} (idle : o.Idle ttl (w.asked c .pass made)) (horizon : Horizon)
    (admitted : (made.cancellable && w.signal.raised) = false) :
    ∃ after : World σ, o.Idle ttl after ∧
      (w.perform c horizon made = (after, none) ∨ ∃ reply,
        w.perform c horizon made = (after.record (.ended .pass made reply), some reply)) := by
  let reaction := (c.react w.memory w.now made).2
  obtain ⟨noise, gains⟩ := World.await_gains c horizon made.cancellable reaction
    (w.asked c .pass made)
  obtain ⟨events, grown, background⟩ := (World.waits_await c horizon made.cancellable reaction
    (w.asked c .pass made)).drifts
  refine ⟨_, idle.background gains grown background, ?_⟩
  rw [World.perform_of_open c horizon admitted]
  rcases World.await c horizon made.cancellable reaction (w.asked c .pass made) with
    ⟨after, _ | reply⟩
  · exact .inl rfl
  · exact .inr ⟨reply, rfl⟩

end Idle

end Order

namespace World

variable {o : Order} {c : Collaborators σ} {horizon : Horizon} {signal : Signal} {memory : σ}
  {i ttl : Nat} {w : World σ}

/-- A run goes by its trace. -/
theorem Tracks.run (tracks : w.Tracks c signal memory) (horizon : Horizon) (script : Script α) :
    (script.run c horizon w).1.Tracks c signal memory := by
  obtain ⟨new, gains⟩ := script.run_gains c horizon w
  obtain ⟨events, grown, told⟩ := script.run_tells c horizon w
  obtain rfl := gains.events_eq grown
  exact tracks.of_gains gains told.signal

theorem Leased.guarded (pace : o.RunsBy i ttl) (leased : w.Leased o c signal memory i ttl) :
    o.Guarded ttl w := by
  obtain ⟨r, last, kept⟩ := leased.kept
  exact kept.guarded pace leased.watched

theorem Leased.record {e : Event} (pace : o.RunsBy i ttl)
    (leased : w.Leased o c signal memory i ttl) (silent : ∀ actor call, e ≠ .began actor call)
    (still : ∀ change, e ≠ .signal change) (other : Trace.grants [⟨w.now, e⟩] = []) :
    (w.record e).Leased o c signal memory i ttl := by
  have same : (w.record e).signal = w.signal.after [e] := by
    refine (Signal.after_eq_self fun e' mem change eq => ?_).symm
    exact still change ((List.mem_singleton.mp mem).symm.trans eq)
  exact leased.gain pace (leased.tracks.of_gains (gains_record c w silent) same) rfl rfl
    (trace_record w e) other

/-- Work on a machine acquires no leases. -/
theorem grants_ended {made : Call} (work : made.role = .work) (time : Nat)
    (reply : Reply made.Answer) : Trace.grants [⟨time, .ended .pass made reply⟩] = [] := by
  cases made with
  | acquire machines ttl => cases work
  | _ => rfl

/-- The leases are renewed while the pass works on a machine. -/
theorem Leased.perform {made : Call} (pace : o.RunsBy i ttl)
    (leased : w.Leased o c signal memory i ttl) (work : made.role = .work)
    (smooth : Smooth o c signal memory i ttl (w.perform c horizon made).1.trace) :
    (w.perform c horizon made).1.Leased o c signal memory i ttl := by
  by_cases refused : (made.cancellable && w.signal.raised) = true
  · rw [World.perform, if_pos refused]
    exact leased
  · have asked : (w.asked c .pass made).Leased o c signal memory i ttl :=
      leased.gain pace (leased.tracks.of_gains (gains_began c w .pass made) rfl) rfl rfl
        (asked_trace c w .pass made) rfl
    have waited : Smooth o c signal memory i ttl ((w.asked c .pass made).await c horizon
        made.cancellable (c.react w.memory w.now made).2).1.trace → _ := asked.await pace
    rw [perform_of_open c horizon (by simpa using refused)] at smooth ⊢
    generalize World.await c horizon made.cancellable (c.react w.memory w.now made).2
      (w.asked c .pass made) = out at waited smooth ⊢
    obtain ⟨after, _ | reply⟩ := out
    · exact waited smooth
    · have before := waited (smooth.of_gains (gains_record c after (by simp)))
      exact before.record pace (by simp) (by simp) (grants_ended work _ reply)

end World

namespace Script

variable {o : Order} {c : Collaborators σ} {horizon : Horizon} {signal : Signal} {memory : σ}
  {i ttl : Nat} {w : World σ}

/-- Work on machines, of any length, goes on beside renewals in time. -/
theorem run_leased {script : Script α} (pace : o.RunsBy i ttl)
    (work : script.Uses (·.role = .work)) (leased : w.Leased o c signal memory i ttl)
    (smooth : Smooth o c signal memory i ttl (script.run c horizon w).1.trace) :
    o.Guarded ttl (script.run c horizon w).1 ∧
      ((script.run c horizon w).2 ≠ .hung →
        (script.run c horizon w).1.Leased o c signal memory i ttl) := by
  induction script generalizing w with
  | done exit => exact ⟨leased.guarded pace, fun _ => leased⟩
  | note n next ih => exact ih work (leased.record pace (by simp) (by simp) rfl) smooth
  | checkpoint next ih => exact ih _ (work _) leased smooth
  | startRenewal machines ttl interval next ih => exact work.elim
  | stopRenewal next ih => exact work.elim
  | call made next ih =>
    have performed : Smooth o c signal memory i ttl (w.perform c horizon made).1.trace → _ :=
      leased.perform pace work.1
    simp only [run] at smooth ⊢
    generalize w.perform c horizon made = out at performed smooth ⊢
    obtain ⟨after, _ | reply⟩ := out
    · obtain ⟨_, _, gains, _⟩ := World.atOnce_dropRenewal c after
      have guarded := (performed (smooth.of_gains gains)).guarded pace
      exact ⟨guarded.dropRenewal, fun ends => absurd rfl ends⟩
    · obtain ⟨_, gains⟩ := (next reply).run_gains c horizon after
      exact ih reply (work.2 reply) (performed (smooth.of_gains gains)) smooth

end Script

namespace Order

open Script

variable {o : Order} {c : Collaborators σ} {horizon : Horizon} {signal : Signal} {memory : σ}
  {i ttl : Nat} {w : World σ}

/-- The request for leases is granted now, or the run goes on without. -/
theorem acquisition_run (c : Collaborators σ) (horizon : Horizon) (pace : o.RunsBy i ttl)
    (idle : o.Idle ttl w) {out : World σ × RunEnd o.acquisition.Answer}
    (ran : (request .leaseAcquisition o.acquisition).run c horizon w = out) :
    (out.2 = .exit (.ok ()) ∧ o.Guarded ttl out.1 ∧ out.1.trace.lastGrant? = some out.1.now) ∨
      (out.2 ≠ .exit (.ok ()) ∧ o.Idle ttl out.1) := by
  rw [request, Script.run] at ran
  by_cases refused : (o.acquisition.cancellable && w.signal.raised) = true
  · rw [World.perform, if_pos refused] at ran
    subst ran
    exact .inr ⟨by rintro ⟨⟩, idle.record (by simp) (by simp [acquired]) c⟩
  · obtain ⟨after, idle, performed | ⟨reply, performed⟩⟩ :=
      (idle.asked c o.acquisition).perform horizon (by simpa using refused)
    · rw [performed] at ran
      subst ran
      exact .inr ⟨by rintro ⟨⟩, idle.dropRenewal c⟩
    · rw [performed] at ran
      subst ran
      cases reply with
      | ok answer =>
        have granted : (after.record o.acquired).trace.lastGrant? = some after.now := by
          rw [World.trace_record, Trace.lastGrant?_acquired rfl]
        have watched : o.Watched ttl (after.record o.acquired).trace := by
          rw [World.trace_record]
          exact idle.safe.watched.snoc fun holds => absurd holds idle.free
        have lasts : after.now < after.now + ttl :=
          Nat.lt_add_of_pos_right (Nat.lt_trans pace.pos pace.shorter)
        exact .inl ⟨rfl, ⟨watched, after.now, granted, lasts⟩, granted⟩
      | failed failure =>
        exact .inr ⟨by rintro ⟨⟩, idle.record (by simp) (by simp [acquired]) c⟩
      | panicked text =>
        exact .inr ⟨by rintro ⟨⟩, idle.record (by simp) (by simp [acquired]) c⟩
      | cancelled =>
        have ended := idle.record (e := .ended .pass o.acquisition .cancelled) (by simp)
          (by simp [acquired]) c
        exact .inr ⟨by rintro ⟨⟩, ended.record (by simp) (by simp [acquired]) c⟩

/-- The loop that starts as leases were acquired is on time. -/
theorem leased_startRenewal (pace : o.RunsBy i ttl) (tracks : w.Tracks c signal memory)
    (guarded : o.Guarded ttl w) (granted : w.trace.lastGrant? = some w.now) :
    (w.startRenewal o.machineIds o.settings.leaseTtl o.settings.leaseRenewInterval).Leased o c
      signal memory i ttl := by
  have pos := pace.pos
  have interval : (Renewal.effectiveInterval o.settings.leaseTtl
      o.settings.leaseRenewInterval).nanos = i * 1000000 := by
    rw [Renewal.effectiveInterval, if_neg, pace.interval]
    rw [pace.interval]
    omega
  let start : Script Unit := .startRenewal o.machineIds o.settings.leaseTtl
    o.settings.leaseRenewInterval (.done (.ok ()))
  refine ⟨tracks.run ⟨0, false⟩ start, (guarded.setRenewal _).watched, _, w.now,
    World.kept_setRenewal w rfl interval granted (.waiting ?_ (Nat.le_max_right _ _))⟩
  rw [World.tickTime_eq interval]
  exact Nat.le_of_eq (by rw [Renewal.begin]; simp)

/-- To give leases back is to make one call and to say what came of it. -/
theorem giveBack_eq (o : Order) (exit : Exit Unit) :
    ∃ next : Reply o.handback.Answer → Script Unit,
      o.giveBack exit = .stopRenewal (.call o.handback next) ∧
      ∀ reply, (next reply).Uses fun _ => False := by
  refine ⟨_, rfl, fun reply => ?_⟩
  cases reply <;> exact trivial

/-- Leases that are given back have not run out, and can not do so any more. -/
theorem giveBack_run (pace : o.RunsBy i ttl) (leased : w.Leased o c signal memory i ttl)
    (exit : Exit Unit) :
    o.Safe ttl ((o.giveBack exit).run c horizon w).1 ∧
      (((o.giveBack exit).run c horizon w).2 ≠ .hung →
        o.Idle ttl ((o.giveBack exit).run c horizon w).1) := by
  have guarded := leased.guarded pace
  obtain ⟨next, eq, silent⟩ := o.giveBack_eq exit
  rw [eq, Script.run]
  split
  · exact ⟨guarded.dropRenewal.safe, fun ends => absurd rfl ends⟩
  · have asked : o.Idle ttl (w.stopRenewal.asked c .pass o.handback) := by
      have began := guarded.stopRenewal.record (e := .began .pass o.handback) rfl
      refine ⟨⟨began.watched, fun _ => began.covered⟩, fun holds => holds.2 ?_⟩
      rw [World.asked_trace, Trace.events_append, begun_append]
      exact List.mem_append_right _ (List.mem_singleton_self _)
    suffices idle : o.Idle ttl ((Script.call o.handback next).run c horizon w.stopRenewal).1 from
      ⟨idle.safe, fun _ => idle⟩
    obtain ⟨after, idle, performed | ⟨reply, performed⟩⟩ := asked.perform horizon rfl
    · rw [Script.run, performed]
      exact idle.dropRenewal c
    · rw [Script.run, performed]
      exact (idle.record (by simp) (by simp [acquired]) c).run (silent reply) id

/-- Work under leases: they do not lapse before they are given back. -/
theorem leased_run {body : Script Unit} (pace : o.RunsBy i ttl) (work : MachineWork body)
    (leased : w.Leased o c signal memory i ttl)
    (smooth : Smooth o c signal memory i ttl ((body.attempt >>= o.giveBack).run c horizon w).1.trace) :
    o.Safe ttl ((body.attempt >>= o.giveBack).run c horizon w).1 ∧
      (((body.attempt >>= o.giveBack).run c horizon w).2 ≠ .hung →
        o.Idle ttl ((body.attempt >>= o.giveBack).run c horizon w).1) := by
  have worked : Smooth o c signal memory i ttl (body.attempt.run c horizon w).1.trace → _ :=
    run_leased pace (uses_attempt work) leased
  rw [run_bind] at smooth ⊢
  rcases World.follow_cases (fun exit w => (o.giveBack exit).run c horizon w)
    (body.attempt.run c horizon w) with ⟨exit, ended, eq⟩ | ⟨same, stops⟩
  · rw [eq] at smooth ⊢
    obtain ⟨_, gains⟩ := (o.giveBack exit).run_gains c horizon (body.attempt.run c horizon w).1
    obtain ⟨_, leased⟩ := worked (smooth.of_gains gains)
    exact giveBack_run pace (leased (by simp [ended])) exit
  · rw [same] at smooth ⊢
    refine ⟨(worked smooth).1.safe, fun ends => ?_⟩
    have caught : (body.attempt.run c horizon w).2 = (body.run c horizon w).2.caught := by
      rw [run_attempt]
    rw [caught] at stops
    exact absurd stops.of_caught ends

/-- Leases that a pass acquires do not lapse before it gives them back. -/
theorem withLeases_run {body : Script Unit} (pace : o.RunsBy i ttl) (work : MachineWork body)
    (tracks : w.Tracks c signal memory) (idle : o.Idle ttl w)
    (smooth : Smooth o c signal memory i ttl ((o.withLeases body).run c horizon w).1.trace) :
    o.Safe ttl ((o.withLeases body).run c horizon w).1 ∧
      (((o.withLeases body).run c horizon w).2 ≠ .hung →
        o.Idle ttl ((o.withLeases body).run c horizon w).1) := by
  have acquiring := tracks.run horizon (request .leaseAcquisition o.acquisition)
  rw [withLeases_eq, run_bind] at smooth ⊢
  generalize ran : (request .leaseAcquisition o.acquisition).run c horizon w = out
    at acquiring smooth ⊢
  rcases acquisition_run c horizon pace idle ran with ⟨ended, guarded, granted⟩ | ⟨failed, idle⟩
  · obtain ⟨w, _⟩ := out
    subst ended
    have told : o.Guarded ttl (w.record (.note o.heldNote)) := guarded.record rfl
    have noted := acquiring.run horizon (.note o.heldNote (.done (.ok ())) : Script Unit)
    have still : (w.record (.note o.heldNote)).trace.lastGrant? = some w.now := by
      rw [World.lastGrant?_record w rfl, granted]
    exact leased_run pace work (leased_startRenewal pace noted told still) smooth
  · rcases World.follow_cases _ out with ⟨⟨⟩, ended, _⟩ | ⟨same, _⟩
    · exact absurd ended failed
    · rw [same]
      exact ⟨idle.safe, fun _ => idle⟩

/-- So it is in either pass, -/
theorem pass_run (pace : o.RunsBy i ttl) (tracks : w.Tracks c signal memory)
    (idle : o.Idle ttl w)
    (smooth : Smooth o c signal memory i ttl (o.pass.run c horizon w).1.trace) :
    o.Safe ttl (o.pass.run c horizon w).1 ∧
      ((o.pass.run c horizon w).2 ≠ .hung → o.Idle ttl (o.pass.run c horizon w).1) := by
  obtain ⟨opening, body, eq, uses, work⟩ := o.pass_eq_withLeases
  rw [eq, run_bind] at smooth ⊢
  have opened : o.Idle ttl (opening.run c horizon w).1 := idle.run uses (by simp)
  rcases World.follow_cases (fun _ w => (o.withLeases body).run c horizon w)
    (opening.run c horizon w) with ⟨_, _, onward⟩ | ⟨same, _⟩
  · rw [onward] at smooth ⊢
    exact withLeases_run pace work (tracks.run horizon opening) opened smooth
  · rw [same]
    exact ⟨opened.safe, fun _ => opened⟩

/-- and in the whole run. -/
theorem script_run (pace : o.RunsBy i ttl) (tracks : w.Tracks c signal memory)
    (idle : o.Idle ttl w) (smooth : Smooth o c signal memory i ttl (o.run c horizon w).1.trace) :
    o.Safe ttl (o.run c horizon w).1 := by
  rw [Order.run, script_eq, run_bind] at smooth ⊢
  have announced : o.Idle ttl (o.announce.run c horizon w).1 :=
    idle.run o.announce_uses (by simp [Call.role])
  rcases World.follow_cases (fun _ w => (o.pass.attempt >>= o.conclude).run c horizon w)
    (o.announce.run c horizon w) with ⟨_, _, onward⟩ | ⟨same, _⟩
  · rw [onward, run_bind, run_attempt] at smooth ⊢
    have passed : Smooth o c signal memory i ttl
        (o.pass.run c horizon (o.announce.run c horizon w).1).1.trace → _ :=
      pass_run pace (tracks.run horizon o.announce) announced
    generalize o.pass.run c horizon (o.announce.run c horizon w).1 = out at passed smooth ⊢
    obtain ⟨after, exit | _⟩ := out
    · obtain ⟨_, gains⟩ := (o.conclude exit).run_gains c horizon after
      have idle := (passed (smooth.of_gains gains)).2 (by rintro ⟨⟩)
      exact (idle.run (o.conclude_uses exit) (by simp [Call.role])).safe
    · exact (passed smooth).1
  · rw [same]
    exact announced.safe

end Order

theorem Settings.readSeconds_whole {key : String} {default d : Duration} {value : Option String}
    (whole : ∃ n, default = .ofSecs n) (read : readSeconds key default value = .ok d) :
    ∃ n, d = .ofSecs n := by
  unfold readSeconds at read
  split at read
  · cases read
    exact whole
  · split at read
    · cases read
      exact ⟨_, rfl⟩
    · cases read

/-- Settings that are accepted count in whole seconds, and renew leases before they run out. -/
theorem Order.runsBy_of_ofLookup {o : Order} {lookup : String → Option String}
    (read : Settings.ofLookup lookup = .ok o.settings) : ∃ i ttl, o.RunsBy i ttl := by
  simp only [Settings.ofLookup, bind_eq_ok_iff] at read
  obtain ⟨_, _, _, _, _, _, ttl, ttl_read, interval, interval_read, read⟩ := read
  obtain ⟨ttl, rfl⟩ := Settings.readSeconds_whole ⟨13, rfl⟩ ttl_read
  obtain ⟨interval, rfl⟩ := Settings.readSeconds_whole ⟨5, rfl⟩ interval_read
  split at read
  · cases read
  · rename_i accepted
    have settings := Except.ok.inj read
    have interval_eq : o.settings.leaseRenewInterval = .ofSecs interval := by rw [← settings]
    have ttl_eq : o.settings.leaseTtl = .ofSecs ttl := by rw [← settings]
    simp only [Duration.ofSecs, not_or, Nat.not_le] at accepted interval_eq ttl_eq
    refine ⟨interval * 1000, ttl * 1000, ?_, ?_, ?_, ?_⟩
    · rw [interval_eq, Nat.mul_assoc]
    · rw [ttl_eq, Nat.mul_assoc]
    · omega
    · omega

namespace Order

/-- Every renewal in a trace succeeds, in less time than what leases last beyond the interval. -/
def RenewsPromptly (o : Order) (c : Collaborators σ) (memory : σ) (t : Trace) : Prop :=
  ∀ before start later, t = before ++ ⟨start, .began .renewal o.acquisition⟩ :: later →
    ∃ d, (c.react (c.recall memory (Trace.calls before)) start o.acquisition).2.Leads d
        (.succeed ()) ∧
      (Duration.ofMillis d).nanos + o.settings.leaseRenewInterval.nanos <
        o.settings.leaseTtl.nanos

/-- From when the pass acquires its leases until it gives them back they do not run out: at every
time less than a lease lasts has passed since they were acquired last. -/
def LeasesLast (o : Order) (w : World σ) : Prop :=
  ∀ before later, w.trace = before ++ later → o.Holds before →
    ∃ last, before.lastGrant? = some last ∧
      ∀ t, (∀ e ∈ later.head?, t ≤ e.time) → (later = [] → t ≤ w.now) →
        (Duration.ofMillis (t - last)).nanos < o.settings.leaseTtl.nanos

theorem Safe.leasesLast {o : Order} {w : World σ} {i ttl : Nat} (pace : o.RunsBy i ttl)
    (safe : o.Safe ttl w) : o.LeasesLast w := by
  have lasts : ∀ {t last now : Nat}, t ≤ now → now < last + ttl → 
      (Duration.ofMillis (t - last)).nanos < o.settings.leaseTtl.nanos := by
    intro t last now passed early
    have pos := pace.pos
    have shorter := pace.shorter
    rw [pace.lease, Duration.ofMillis]
    dsimp only
    omega
  intro before later eq holds
  cases later with
  | nil =>
    rw [List.append_nil] at eq
    subst eq
    obtain ⟨last, granted, early⟩ := safe.covered holds
    exact ⟨last, granted, fun t _ passed => lasts (passed rfl) early⟩
  | cons e later =>
    obtain ⟨last, granted, early⟩ := safe.watched before e later eq holds
    exact ⟨last, granted, fun t passed _ => lasts (passed e rfl) early⟩

/-- In a run by settings that were accepted, leases last for as long as they are held, unless
shutdown is requested or a renewal fails or takes too long. -/
theorem run_leasesLast (o : Order) (c : Collaborators σ) (horizon : Horizon) (signal : Signal)
    (schedule : List (Nat × SignalChange)) (memory : σ) (lookup : String → Option String)
    (read : Settings.ofLookup lookup = .ok o.settings)
    (down : signal.StaysDown (o.run c horizon (.start signal schedule memory)).1.events)
    (prompt : o.RenewsPromptly c memory
      (o.run c horizon (.start signal schedule memory)).1.trace) :
    o.LeasesLast (o.run c horizon (.start signal schedule memory)).1 := by
  obtain ⟨i, ttl, pace⟩ := runsBy_of_ofLookup read
  have idle : o.Idle ttl (World.start signal schedule memory) := by
    have free : ¬ o.Holds (World.start signal schedule memory).trace := fun holds => by
      cases holds.1
    refine ⟨⟨fun before e later eq => ?_, fun holds => absurd holds free⟩, free⟩
    cases before <;> cases eq
  refine (script_run pace ⟨rfl, rfl⟩ idle ⟨down, fun before start later eq => ?_⟩).leasesLast pace
  obtain ⟨d, leads, quick⟩ := prompt before start later eq
  refine ⟨d, leads, ?_⟩
  rw [pace.interval, pace.lease, Duration.ofMillis] at quick
  dsimp only at quick
  omega

end Order

namespace Rehearsal

/-- Collaborators that take seven seconds to lease machines and forty to start one. -/
def sluggish : Collaborators Unit where
  react _ _ call := ((), reaction (call.answer 0) (match call with
    | .acquire .. => [.sleep 7000]
    | .waitForState .. => [.sleep 40000]
    | _ => []))

def isSignal : Event → Bool
  | .signal _ => true
  | _ => false

theorem staysDown_of_still {events : List Event} (still : events.any isSignal = false) :
    ({} : Signal).StaysDown events :=
  .of_still rfl fun c mem =>
    absurd (List.any_eq_false.mp still (.signal c) mem) (by simp [isSignal])

def sluggishRun : World Unit × RunEnd Unit :=
  loneOrder.run sluggish ⟨100000, false⟩ (.start {} [] ())

/-- Each renewal takes longer than the interval, so that ticks are missed, but not so long that the
leases lapse, for as long as the machine takes to start. -/
theorem sluggishRun_leasesLast :
    sluggishRun.2 = .exit (.ok ()) ∧ loneOrder.acquired ∈ sluggishRun.1.events ∧
      sluggishRun.1.trace.grants = [7000, 19000, 26000, 33000, 40000] ∧
      loneOrder.LeasesLast sluggishRun.1 := by
  have held : loneOrder.acquired ∈ sluggishRun.1.events :=
    List.mem_of_getElem? (show sluggishRun.1.events[6]? = _ from rfl)
  refine ⟨rfl, held, by decide +kernel, ?_⟩
  exact Order.run_leasesLast loneOrder sluggish ⟨100000, false⟩ {} [] () (fun _ => none) rfl
    (staysDown_of_still rfl) fun _ _ _ _ => ⟨7000, .sleep .here, by decide⟩

end Rehearsal

end Rollout
