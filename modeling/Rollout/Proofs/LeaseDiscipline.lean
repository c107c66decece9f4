import Rollout.Proofs.Frame
import Rollout.Rehearsal.Fixtures
import Rollout.Rehearsal.Fleet

/-!
# Lease discipline

A pass touches machines only while it holds leases on the machines of the snapshot, and gives
the leases back once, whatever becomes of its work. The law is read off the events of a run: it
holds for either pass, for every behaviour of the collaborators and of the signal, and for every
way in which a run ends.
-/

namespace Rollout

namespace Order

/-- From this event on a pass holds its leases. -/
def acquired (o : Order) : Event := .ended .pass o.acquisition (.ok ())

end Order

def Event.call? : Event → Option Call
  | .began _ call => some call
  | .ended _ call _ => some call
  | _ => none

def Event.beginsAcquisition : Event → Bool
  | .began .pass call => call.role = .acquire
  | _ => false

/-- What a run does about leases. -/
structure LeaseDiscipline (o : Order) (events : List Event) : Prop where
  /-- Machines are touched only after the leases on the machines of the snapshot were
  acquired. -/
  work_held : ∀ before actor call later, events = before ++ .began actor call :: later →
    call.role = .work → o.acquired ∈ before
  /-- Leases that were acquired are given back once, the same ones in the same order, after
  every call before has ended or been abandoned. From then on no machine is touched, and only
  after the reply the final state of the release is written. -/
  given_back : o.acquired ∈ events → ∃ before later,
    events = before ++ .began .pass o.handback :: later ∧ Settled before ∧
    (∀ actor call, .began actor call ∈ before ++ later → call.role ≠ .release) ∧
    (∀ actor call, .began actor call ∈ before → call.role ≠ .conclusion) ∧
    (∀ e ∈ later, ∀ call, e.call? = some call → call.role ≠ .work) ∧
    ∀ mid actor call rest, later = mid ++ .began actor call :: rest →
      call.role = .conclusion → ∃ reply, .ended .pass o.handback reply ∈ mid
  /-- Without leases there is nothing to give back and no machine is touched. -/
  not_held : o.acquired ∉ events → ∀ actor call, .began actor call ∈ events →
    call.role ≠ .release ∧ call.role ≠ .work
  /-- No leases are acquired once they are being given back. -/
  none_after_release : ∀ before actor call later, events = before ++ .began actor call :: later →
    call.role = .release → ∀ actor call, .began actor call ∈ later → call.role ≠ .acquire
  /-- A renewal acquires the same leases for the same time, after they were acquired first. -/
  renewal : ∀ before call later, events = before ++ .began .renewal call :: later →
    call = o.acquisition ∧ o.acquired ∈ before
  /-- The pass itself acquires these leases only, -/
  foreground : ∀ call, .began .pass call ∈ events → call.role = .acquire → call = o.acquisition
  /-- and once at most. -/
  foreground_once : events.countP Event.beginsAcquisition ≤ 1

/-- Nothing but notes, changes of the signal and what the renewal loop logs. -/
def Uneventful (events : List Event) : Prop := ∀ e ∈ events, e.Within (fun _ => False) none

/-- No other calls than those that play a part, and no renewal. -/
def Plays (role : Role) (events : List Event) : Prop := ∀ e ∈ events, e.Within (·.role = role) none

theorem Plays.began {role : Role} {events : List Event} (plays : Plays role events)
    {actor : Actor} {call : Call} (mem : .began actor call ∈ events) :
    actor = .pass ∧ call.role = role := by
  cases actor with
  | pass => exact ⟨rfl, plays _ mem⟩
  | renewal => simpa [Event.Within] using plays _ mem

theorem Plays.role_of_call {role : Role} {events : List Event} (plays : Plays role events)
    {e : Event} (mem : e ∈ events) {call : Call} (calls : e.call? = some call) :
    call.role = role := by
  have within := plays e mem
  rcases e with ⟨actor, made⟩ | ⟨actor, made, reply⟩ | n | record | change
  · obtain rfl : made = call := Option.some.inj calls
    exact (plays.began mem).2
  · obtain rfl : made = call := Option.some.inj calls
    cases actor with
    | pass => exact within
    | renewal => simp [Event.Within] at within
  · cases calls
  · cases calls
  · cases calls

theorem Uneventful.call?_eq_none {events : List Event} (uneventful : Uneventful events)
    {e : Event} (mem : e ∈ events) : e.call? = none := by
  have within := uneventful e mem
  rcases e with ⟨actor, made⟩ | ⟨actor, made, reply⟩ | n | record | change
  · cases actor <;> simp [Event.Within] at within
  · cases actor <;> simp [Event.Within] at within
  · rfl
  · rfl
  · rfl

theorem Uneventful.began_notMem {events : List Event} (uneventful : Uneventful events)
    (actor : Actor) (call : Call) : .began actor call ∉ events := by
  intro mem
  have none := uneventful.call?_eq_none mem
  cases none

theorem Uneventful.settled {events : List Event} (uneventful : Uneventful events) :
    Settled events :=
  settled_of_notMem (uneventful.began_notMem .pass)

theorem countP_beginsAcquisition {events : List Event}
    (none : ∀ call, .began .pass call ∈ events → call.role ≠ .acquire) :
    events.countP Event.beginsAcquisition = 0 := by
  rw [List.countP_eq_zero]
  intro e mem begins
  rcases e with ⟨actor, call⟩ | ⟨actor, call, reply⟩ | n | record | change
  · cases actor with
    | pass => exact none call mem (by simpa [Event.beginsAcquisition] using begins)
    | renewal => cases begins
  · cases begins
  · cases begins
  · cases begins
  · cases begins

structure UnleasedStory (o : Order) (events : List Event) : Prop where
  within : ∀ e ∈ events, e.Within
    (fun call => call.role = .opening ∨ call.role = .conclusion ∨ call = o.acquisition) none
  unheld : o.acquired ∉ events
  once : events.countP Event.beginsAcquisition ≤ 1

structure LeasedStory (o : Order) where
  start : List Event
  waiting : List Event
  work : List Event
  closing : List Event
  reply : Reply o.handback.Answer
  tail : List Event
  start_plays : Plays .opening start
  start_settled : Settled start
  waiting_uneventful : Uneventful waiting
  work_within : ∀ e ∈ work, e.Within (·.role = .work) (some o.acquisition)
  work_settled : Settled work
  closing_uneventful : Uneventful closing
  tail_plays : Plays .conclusion tail

namespace LeasedStory

variable {o : Order}

def opening (l : LeasedStory o) : List Event :=
  l.start ++ .began .pass o.acquisition :: l.waiting ++ [o.acquired]

def before (l : LeasedStory o) : List Event := l.opening ++ l.work

def later (l : LeasedStory o) : List Event :=
  l.closing ++ .ended .pass o.handback l.reply :: l.tail

def events (l : LeasedStory o) : List Event := l.before ++ .began .pass o.handback :: l.later

theorem acquired_mem (l : LeasedStory o) : o.acquired ∈ l.opening := by simp [opening]

theorem began_opening (l : LeasedStory o) {actor : Actor} {call : Call}
    (mem : .began actor call ∈ l.opening) :
    actor = .pass ∧ (call.role = .opening ∨ call = o.acquisition) := by
  simp only [opening, List.append_assoc, List.cons_append, List.mem_append, List.mem_cons] at mem
  rcases mem with mem | mem | mem | mem | mem
  · obtain ⟨pass, role⟩ := l.start_plays.began mem
    exact ⟨pass, .inl role⟩
  · cases mem
    exact ⟨rfl, .inr rfl⟩
  · exact absurd mem (l.waiting_uneventful.began_notMem actor call)
  · cases mem
  · cases mem

theorem began_work (l : LeasedStory o) {actor : Actor} {call : Call}
    (mem : .began actor call ∈ l.work) :
    actor = .pass ∧ call.role = .work ∨ actor = .renewal ∧ call = o.acquisition := by
  have within := l.work_within _ mem
  cases actor with
  | pass => exact .inl ⟨rfl, within⟩
  | renewal => exact .inr ⟨rfl, (Option.some.inj within).symm⟩

theorem began_later (l : LeasedStory o) {actor : Actor} {call : Call}
    (mem : .began actor call ∈ l.later) : actor = .pass ∧ call.role = .conclusion := by
  simp only [later, List.mem_append, List.mem_cons] at mem
  rcases mem with mem | mem | mem
  · exact absurd mem (l.closing_uneventful.began_notMem actor call)
  · cases mem
  · exact l.tail_plays.began mem

/-- Up to where the leases are given back, calls open the run, acquire leases or work. -/
theorem began_before (l : LeasedStory o) {actor : Actor} {call : Call}
    (mem : .began actor call ∈ l.before) : call.role ≠ .release ∧ call.role ≠ .conclusion := by
  rcases List.mem_append.mp mem with mem | mem
  · obtain ⟨_, role | rfl⟩ := l.began_opening mem
    · simp [role]
    · simp [Call.role]
  · rcases l.began_work mem with ⟨_, role⟩ | ⟨_, rfl⟩
    · simp [role]
    · simp [Call.role]

/-- Leases are acquired by one call only, whoever makes it. -/
theorem began_events (l : LeasedStory o) {actor : Actor} {call : Call}
    (mem : .began actor call ∈ l.events) :
    call = o.acquisition ∨ actor = .pass ∧ call.role ≠ .acquire := by
  simp only [events, before, List.append_assoc, List.mem_append, List.mem_cons] at mem
  rcases mem with mem | mem | mem | mem
  · obtain ⟨pass, role | rfl⟩ := l.began_opening mem
    · exact .inr ⟨pass, by simp [role]⟩
    · exact .inl rfl
  · rcases l.began_work mem with ⟨pass, role⟩ | ⟨_, rfl⟩
    · exact .inr ⟨pass, by simp [role]⟩
    · exact .inl rfl
  · cases mem
    exact .inr ⟨rfl, by simp [Call.role]⟩
  · obtain ⟨pass, role⟩ := l.began_later mem
    exact .inr ⟨pass, by simp [role]⟩

theorem countP_opening (l : LeasedStory o) : l.opening.countP Event.beginsAcquisition = 1 := by
  have start : l.start.countP Event.beginsAcquisition = 0 :=
    countP_beginsAcquisition fun call mem => by simp [(l.start_plays.began mem).2]
  have waiting : l.waiting.countP Event.beginsAcquisition = 0 :=
    countP_beginsAcquisition fun call mem =>
      absurd mem (l.waiting_uneventful.began_notMem .pass call)
  have began : Event.beginsAcquisition (.began .pass o.acquisition) = true := rfl
  have ended : Event.beginsAcquisition o.acquired = false := rfl
  simp [opening, start, waiting, began, ended]

theorem countP_work (l : LeasedStory o) : l.work.countP Event.beginsAcquisition = 0 :=
  countP_beginsAcquisition fun call mem => by
    rcases l.began_work mem with ⟨_, role⟩ | ⟨renewal, _⟩
    · simp [role]
    · cases renewal

theorem countP_later (l : LeasedStory o) : l.later.countP Event.beginsAcquisition = 0 :=
  countP_beginsAcquisition fun call mem => by simp [(l.began_later mem).2]

theorem settled_before (l : LeasedStory o) : Settled l.before := by
  have exchange : Settled (.began .pass o.acquisition :: l.waiting ++ [o.acquired]) :=
    settled_exchange (l.waiting_uneventful.began_notMem .pass)
  simpa [before, opening] using
    settled_append l.start_settled (settled_append exchange l.work_settled)

/-- An event that stands where no leases are held yet nor any more stands between. -/
theorem acquired_before (l : LeasedStory o) {before later : List Event} {e : Event}
    (eq : l.events = before ++ e :: later) (notMem : e ∉ l.opening) : o.acquired ∈ before := by
  have eq' : l.opening ++ (l.work ++ .began .pass o.handback :: l.later) = before ++ e :: later := by
    simpa [events, LeasedStory.before] using eq
  obtain ⟨mid, rfl, _⟩ := split_later eq' notMem
  exact List.mem_append_left mid l.acquired_mem

/-- Once leases are being given back, no call that works begins or ends. -/
theorem role_of_call_later (l : LeasedStory o) {e : Event} (mem : e ∈ l.later) {call : Call}
    (calls : e.call? = some call) : call.role ≠ .work := by
  rcases List.mem_append.mp mem with mem | mem
  · rw [l.closing_uneventful.call?_eq_none mem] at calls
    cases calls
  · rcases List.mem_cons.mp mem with rfl | mem
    · obtain rfl := Option.some.inj calls
      simp [Call.role]
    · simp [l.tail_plays.role_of_call mem calls]

/-- What concludes the run begins after the reply about the leases. -/
theorem replied_before (l : LeasedStory o) {mid rest : List Event} {actor : Actor} {call : Call}
    (eq : l.later = mid ++ .began actor call :: rest) :
    .ended .pass o.handback l.reply ∈ mid := by
  have eq' : (l.closing ++ [.ended .pass o.handback l.reply]) ++ l.tail =
      mid ++ .began actor call :: rest := by
    simpa [later] using eq
  obtain ⟨more, rfl, _⟩ := split_later eq' fun mem => by
    rcases List.mem_append.mp mem with mem | mem
    · exact l.closing_uneventful.began_notMem actor call mem
    · simp at mem
  simp

/-- The call that gives the leases back parts the story. -/
theorem later_of_release (l : LeasedStory o) {before later : List Event} {actor : Actor}
    {call : Call} (eq : l.events = before ++ .began actor call :: later)
    (role : call.role = .release) : later = l.later := by
  obtain ⟨mid, rfl, tail⟩ := split_later eq fun mem => (l.began_before mem).1 role
  cases mid with
  | nil => exact (List.cons.inj tail).2.symm
  | cons e mid =>
    have found : Event.began actor call ∈ l.later := by
      rw [(List.cons.inj tail).2]
      simp
    rw [(l.began_later found).2] at role
    cases role

theorem leaseDiscipline (l : LeasedStory o) : LeaseDiscipline o l.events where
  work_held := by
    intro before actor call later eq work
    refine l.acquired_before eq fun mem => ?_
    obtain ⟨_, role | rfl⟩ := l.began_opening mem
    · simp [work] at role
    · simp [Call.role] at work
  given_back := by
    intro _
    refine ⟨l.before, l.later, rfl, l.settled_before, ?_, ?_, ?_, ?_⟩
    · intro actor call mem
      rcases List.mem_append.mp mem with mem | mem
      · exact (l.began_before mem).1
      · simp [(l.began_later mem).2]
    · intro actor call mem
      exact (l.began_before mem).2
    · intro e mem call calls
      exact l.role_of_call_later mem calls
    · intro mid actor call rest eq _
      exact ⟨l.reply, l.replied_before eq⟩
  not_held := by
    intro unheld
    exact absurd (by simp [events, before, l.acquired_mem]) unheld
  none_after_release := by
    intro before actor call later eq role actor' call' mem
    rw [l.later_of_release eq role] at mem
    simp [(l.began_later mem).2]
  renewal := by
    intro before call later eq
    constructor
    · have mem : .began .renewal call ∈ l.events := by simp [eq]
      rcases l.began_events mem with acquisition | ⟨pass, _⟩
      · exact acquisition
      · cases pass
    · refine l.acquired_before eq fun mem => ?_
      cases (l.began_opening mem).1
  foreground := by
    intro call mem acquire
    rcases l.began_events mem with acquisition | ⟨_, role⟩
    · exact acquisition
    · exact absurd acquire role
  foreground_once := by
    have release : Event.beginsAcquisition (.began .pass o.handback) = false := rfl
    simp [events, before, l.countP_opening, l.countP_work, l.countP_later, release]

end LeasedStory

theorem UnleasedStory.leaseDiscipline {o : Order} {events : List Event}
    (u : UnleasedStory o events) : LeaseDiscipline o events := by
  have began : ∀ {actor call}, .began actor call ∈ events → actor = .pass ∧
      (call.role = .opening ∨ call.role = .conclusion ∨ call = o.acquisition) := by
    intro actor call mem
    cases actor with
    | pass => exact ⟨rfl, u.within _ mem⟩
    | renewal => simpa [Event.Within] using u.within _ mem
  have touches : ∀ {actor call}, .began actor call ∈ events →
      call.role ≠ .release ∧ call.role ≠ .work := by
    intro actor call mem
    obtain ⟨_, role | role | rfl⟩ := began mem
    · simp [role]
    · simp [role]
    · simp [Call.role]
  constructor
  · intro before actor call later eq work
    have mem : .began actor call ∈ events := by simp [eq]
    exact absurd work (touches mem).2
  · intro held
    exact absurd held u.unheld
  · intro _ actor call mem
    exact touches mem
  · intro before actor call later eq role
    have mem : .began actor call ∈ events := by simp [eq]
    exact absurd role (touches mem).1
  · intro before call later eq
    have mem : .began .renewal call ∈ events := by simp [eq]
    cases (began mem).1
  · intro call mem acquire
    obtain ⟨_, role | role | acquisition⟩ := began mem
    · simp [acquire] at role
    · simp [acquire] at role
    · exact acquisition
  · exact u.once

/-- A story without leases, or one with leases from their acquisition to their return. -/
def LeaseStory (o : Order) (events : List Event) : Prop :=
  UnleasedStory o events ∨ ∃ l : LeasedStory o, l.events = events

namespace LeaseStory

variable {o : Order} {events : List Event}

theorem leaseDiscipline (story : LeaseStory o events) : LeaseDiscipline o events := by
  rcases story with unleased | ⟨leased, rfl⟩
  · exact unleased.leaseDiscipline
  · exact leased.leaseDiscipline

/-- What opens the run comes before. -/
theorem open_with {opening : List Event} (plays : Plays .opening opening)
    (settled : Settled opening) (story : LeaseStory o events) :
    LeaseStory o (opening ++ events) := by
  rcases story with unleased | ⟨l, rfl⟩
  · refine .inl ⟨?_, ?_, ?_⟩
    · intro e mem
      rcases List.mem_append.mp mem with mem | mem
      · exact (plays e mem).mono fun call role => .inl role
      · exact unleased.within e mem
    · intro mem
      rcases List.mem_append.mp mem with mem | mem
      · cases plays.role_of_call mem rfl
      · exact unleased.unheld mem
    · have none : opening.countP Event.beginsAcquisition = 0 :=
        countP_beginsAcquisition fun call mem => by simp [(plays.began mem).2]
      simpa [none] using unleased.once
  · refine .inr ⟨{ l with
      start := opening ++ l.start
      start_plays := fun e mem => (List.mem_append.mp mem).elim (plays e) (l.start_plays e)
      start_settled := settled_append settled l.start_settled }, ?_⟩
    simp [LeasedStory.events, LeasedStory.before, LeasedStory.opening, LeasedStory.later]

/-- What concludes the run comes after. -/
theorem close_with {tail : List Event} (plays : Plays .conclusion tail)
    (story : LeaseStory o events) : LeaseStory o (events ++ tail) := by
  rcases story with unleased | ⟨l, rfl⟩
  · refine .inl ⟨?_, ?_, ?_⟩
    · intro e mem
      rcases List.mem_append.mp mem with mem | mem
      · exact unleased.within e mem
      · exact (plays e mem).mono fun call role => .inr (.inl role)
    · intro mem
      rcases List.mem_append.mp mem with mem | mem
      · exact unleased.unheld mem
      · cases plays.role_of_call mem rfl
    · have none : tail.countP Event.beginsAcquisition = 0 :=
        countP_beginsAcquisition fun call mem => by simp [(plays.began mem).2]
      simpa [none] using unleased.once
  · refine .inr ⟨{ l with
      tail := l.tail ++ tail
      tail_plays := fun e mem => (List.mem_append.mp mem).elim (l.tail_plays e) (plays e) }, ?_⟩
    simp [LeasedStory.events, LeasedStory.before, LeasedStory.opening, LeasedStory.later]

end LeaseStory

theorem plays_of_forall_note {role : Role} {events : List Event}
    (notes : ∀ e ∈ events, ∃ n, e = .note n) : Plays role events := by
  intro e mem
  obtain ⟨n, rfl⟩ := notes e mem
  trivial

theorem UnleasedStory.of_plays {o : Order} {events : List Event} (plays : Plays .opening events) :
    UnleasedStory o events where
  within := fun e mem => (plays e mem).mono fun call role => .inl role
  unheld := fun mem => by cases plays.role_of_call mem rfl
  once := by
    rw [countP_beginsAcquisition fun call mem => by simp [(plays.began mem).2]]
    exact Nat.zero_le 1

theorem Stage.Background.uneventful {s later : Stage} {events : List Event}
    (background : s.Background events later) (alone : s.renewing = none) :
    Uneventful events := by
  intro e mem
  rw [← alone]
  exact (background.admitted e mem).within _

namespace Order

open Script

variable {s later : Stage} {events : List Event}

theorem tellHandback_tells {o : Order} {exit e : Exit Unit}
    {answer : Except Failure o.handback.Answer}
    (h : (o.tellHandback exit answer).Tells s events (.exit e) later) :
    Plays .conclusion events ∧ later = s := by
  cases answer with
  | ok _ =>
    obtain ⟨rest, rfl, told⟩ := h.note_inv
    obtain ⟨rfl, _, rfl⟩ := told.done_inv
    exact ⟨plays_of_forall_note (by simp), rfl⟩
  | error _ =>
    obtain ⟨rest, rfl, told⟩ := h.note_inv
    obtain ⟨rfl, _, rfl⟩ := told.done_inv
    exact ⟨plays_of_forall_note (by simp), rfl⟩

/-- Whatever the work came to, the loop is stopped and then the leases are given back. -/
theorem giveBack_tells {o : Order} {exit e : Exit Unit}
    (h : (o.giveBack exit).Tells s events (.exit e) later) :
    ∃ mid closing noise reply tail, s.Background closing mid ∧ Uneventful noise ∧
      Plays .conclusion tail ∧ later.renewing = none ∧ events = closing ++
        .began .pass o.handback :: noise ++ .ended .pass o.handback reply :: tail := by
  cases h with
  | @stopRenewal _ _ closing mid _ _ _ background h =>
    rcases h.bind_inv with ⟨answer, handing, after, tail, released, told, rfl⟩ | ⟨r, h, stops⟩
    · obtain ⟨plays, rfl⟩ := tellHandback_tells told
      rcases released.carryThrough_inv rfl with
        ⟨noise, reply, handed, _, rfl, _⟩ | ⟨_, _, _, _, _, hung⟩
      · exact ⟨mid, closing, noise, reply, tail, background, handed.uneventful rfl, plays,
          handed.renewing, by simp⟩
      · cases hung
    · rcases h.carryThrough_inv rfl with
        ⟨noise, reply, handed, _, rfl, _⟩ | ⟨_, _, _, _, _, rfl⟩
      · exact ⟨mid, closing, noise, reply, [], background, handed.uneventful rfl,
          plays_of_forall_note (by simp), handed.renewing, by simp⟩
      · cases stops

/-- The stories of a body under leases, from their acquisition to their return. -/
theorem attempt_giveBack_tells {o : Order} {body : Script Unit} {e : Exit Unit}
    (work : MachineWork body) (renewing : s.renewing = some o.acquisition)
    (h : (body.attempt >>= o.giveBack).Tells s events (.exit e) later) :
    ∃ done noise reply tail, (∀ e ∈ done, e.Within (·.role = .work) (some o.acquisition)) ∧
      Settled done ∧ Uneventful noise ∧ Plays .conclusion tail ∧ later.renewing = none ∧
      events = done ++ .began .pass o.handback :: noise ++
        .ended .pass o.handback reply :: tail := by
  rcases h.bind_inv with ⟨exit, doing, mid, rest, worked, giving, rfl⟩ | ⟨r, h, stops⟩
  · obtain ⟨after, closing, noise, reply, tail, closed, quiet, plays, alone, rfl⟩ :=
      giveBack_tells giving
    obtain ⟨settled, same⟩ := worked.settled (uses_attempt work)
    have within := worked.within (uses_attempt work)
    rw [renewing] at within same
    refine ⟨doing ++ closing, noise, reply, tail, ?_, ?_, quiet, plays, alone, by simp⟩
    · intro e mem
      rcases List.mem_append.mp mem with mem | mem
      · exact within e mem
      · rw [← same]
        exact (closed.admitted e mem).within _
    · exact settled_append settled (settled_of_notMem closed.began_notMem)
  · rcases h.attempt_inv with ⟨exit, _, rfl⟩ | ⟨_, rfl⟩
    · cases stops
    · cases stops

/-- The stories of an acquisition that fails, panics or is cancelled. -/
theorem acquisition_stops {o : Order} {r : RunEnd Unit} {e : Exit Unit}
    (alone : s.renewing = none)
    (h : (request .leaseAcquisition o.acquisition).Tells s events r later)
    (stops : r.StopsAs (.exit e : RunEnd Unit)) :
    UnleasedStory o events ∧ later.renewing = none := by
  rcases h.request_inv with ⟨_, rfl, _, rfl⟩ |
    ⟨_, noise, reply, waited, _, rfl, rfl⟩ | ⟨_, _, _, _, _, _, rfl⟩
  · exact ⟨.of_plays (plays_of_forall_note (by simp)), alone⟩
  · have failed : reply ≠ .ok () := by
      rintro rfl
      cases stops
    have told : Uneventful (aftermath reply) := by
      cases reply <;> simp [aftermath, Uneventful, Event.Within]
    have quiet := waited.uneventful alone
    refine ⟨⟨?_, ?_, ?_⟩, waited.renewing.trans alone⟩
    · intro e mem
      simp only [List.cons_append, List.mem_cons, List.mem_append] at mem
      rcases mem with rfl | mem | rfl | mem
      · exact .inr (.inr rfl)
      · exact (quiet e mem).mono fun call none => none.elim
      · exact .inr (.inr rfl)
      · exact (told e mem).mono fun call none => none.elim
    · intro mem
      simp only [List.cons_append, List.mem_cons, List.mem_append] at mem
      rcases mem with mem | mem | mem | mem
      · cases mem
      · cases quiet.call?_eq_none mem
      · cases mem
        exact failed rfl
      · cases told.call?_eq_none mem
    · have waiting : noise.countP Event.beginsAcquisition = 0 :=
        countP_beginsAcquisition fun call mem => absurd mem (quiet.began_notMem .pass call)
      have telling : (aftermath reply).countP Event.beginsAcquisition = 0 :=
        countP_beginsAcquisition fun call mem => absurd mem (told.began_notMem .pass call)
      have began : Event.beginsAcquisition (.began .pass o.acquisition) = true := rfl
      have ended : Event.beginsAcquisition (.ended .pass o.acquisition reply) = false := rfl
      simp [waiting, telling, began, ended]
  · cases stops

/-- Work under leases is a story without leases or with leases. -/
theorem withLeases_tells {o : Order} {body : Script Unit} {e : Exit Unit}
    (work : MachineWork body) (alone : s.renewing = none)
    (h : (o.withLeases body).Tells s events (.exit e) later) :
    LeaseStory o events ∧ later.renewing = none := by
  rw [withLeases_eq] at h
  rcases h.bind_inv with ⟨⟨⟩, acquiring, held, rest, acquired, onward, rfl⟩ | ⟨r, h, stops⟩
  · -- The leases are held from here on.
    obtain ⟨waiting, waited, rfl⟩ : ∃ noise, s.Background noise held ∧
        acquiring = .began .pass o.acquisition :: noise ++ [o.acquired] := by
      rcases acquired.request_inv with ⟨_, _, stopped, _⟩ |
        ⟨_, noise, reply, waited, _, rfl, ended⟩ | ⟨_, _, _, _, _, _, stopped⟩
      · cases stopped
      · cases reply with
        | ok answer => exact ⟨noise, waited, rfl⟩
        | failed failure => cases ended
        | panicked text => cases ended
        | cancelled => cases ended
      · cases stopped
    obtain ⟨rest, rfl, renewed⟩ := onward.note_inv
    cases renewed with
    | @startRenewal _ _ _ _ _ logs rest _ _ logged doing =>
      obtain ⟨done, noise, reply, tail, within, settled, quiet, plays, none, rfl⟩ :=
        attempt_giveBack_tells work rfl doing
      refine ⟨.inr ⟨{
        start := []
        waiting := waiting
        work := .note o.heldNote :: logs ++ done
        closing := noise
        reply := reply
        tail := tail
        start_plays := by simp [Plays]
        start_settled := settled_nil
        waiting_uneventful := waited.uneventful alone
        work_within := ?_
        work_settled := ?_
        closing_uneventful := quiet
        tail_plays := plays }, ?_⟩, none⟩
      · intro e mem
        simp only [List.cons_append, List.mem_cons, List.mem_append] at mem
        rcases mem with rfl | mem | mem
        · trivial
        · obtain ⟨record, rfl⟩ := logged e mem
          trivial
        · exact within e mem
      · have quietly : Settled logs := settled_of_notMem fun call mem => by
          obtain ⟨record, eq⟩ := logged _ mem
          cases eq
        exact settled_append (settled_append (settled_note _) quietly) settled
      · simp [LeasedStory.events, LeasedStory.before, LeasedStory.opening, LeasedStory.later]
  · -- They are not.
    obtain ⟨unleased, none⟩ := acquisition_stops alone h stops
    exact ⟨.inl unleased, none⟩

/-- A part that opens the run leaves the rest of the story as it is. -/
theorem opening_tells {α β : Type} {o : Order} {first : Script α} {next : α → Script β}
    {e : Exit β} (uses : first.Uses (·.role = .opening)) (alone : s.renewing = none)
    (h : (first >>= next).Tells s events (.exit e) later)
    (onward : ∀ a mid rest, mid.renewing = none → (next a).Tells mid rest (.exit e) later →
      LeaseStory o rest ∧ later.renewing = none) :
    LeaseStory o events ∧ later.renewing = none := by
  rcases h.bind_inv with ⟨a, opening, mid, rest, opened, told, rfl⟩ | ⟨r, opened, stops⟩
  · obtain ⟨settled, same⟩ := opened.settled uses
    have plays := opened.within uses
    rw [alone] at plays same
    obtain ⟨story, none⟩ := onward a mid rest same told
    exact ⟨story.open_with plays settled, none⟩
  · have plays := opened.within uses
    rw [alone] at plays
    refine ⟨.inl (.of_plays plays), ?_⟩
    cases stops with
    | error => exact (opened.settled uses).2.trans alone
    | panic => exact (opened.settled uses).2.trans alone

theorem pass_tells {o : Order} {e : Exit Unit} (alone : s.renewing = none)
    (h : o.pass.Tells s events (.exit e) later) :
    LeaseStory o events ∧ later.renewing = none := by
  obtain ⟨opening, body, eq, uses, work⟩ := o.pass_eq_withLeases
  rw [eq] at h
  have opens : opening.Uses (·.role = .opening) :=
    uses.mono fun call command => by simp [command, Call.role]
  exact opening_tells opens alone h fun _ mid rest none => withLeases_tells work none

theorem script_tells {o : Order} {e : Exit Unit} (alone : s.renewing = none)
    (h : o.script.Tells s events (.exit e) later) : LeaseStory o events := by
  rw [script_eq] at h
  refine (opening_tells o.announce_uses alone h ?_).1
  intro _ mid rest none h
  rcases h.bind_inv with ⟨exit, passing, after, tail, attempted, concluded, rfl⟩ | ⟨r, h, stops⟩
  · rcases attempted.attempt_inv with ⟨exit', passed, ended⟩ | ⟨_, hung⟩
    · obtain ⟨story, none⟩ := pass_tells none passed
      have plays := concluded.within (o.conclude_uses exit)
      rw [none] at plays
      exact ⟨story.close_with plays, (concluded.settled (o.conclude_uses exit)).2.trans none⟩
    · cases hung
  · rcases h.attempt_inv with ⟨exit, _, rfl⟩ | ⟨_, rfl⟩
    · cases stops
    · cases stops

end Order

namespace Rehearsal

/-- A deployment to a fleet of one whose group needs no change. -/
def loneOrder : Order where
  settings := {}
  deployment := deployment [loneMachine] []
  resolver := ⟨fun _ base => .ok (base.getD {}), ["app"], "ord"⟩

end Rehearsal

end Rollout
