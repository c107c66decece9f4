import Rollout.Proofs.FailStop
import Rollout.Proofs.Reading

/-!
# How a rollout ends

The work of a pass comes to an end early because of shutdown, in a panic or with an error. What
brought it to an end is what the rollout ends with, unless one of the calls panics that are carried
through after it. These are made in every rollout that is not cut off: the leases are given back if
they were acquired, and the final state of the release is written if it was marked as running and
nothing panicked before.
-/

namespace Rollout

open Script

/-- How the work stops with an event, if it does: because of shutdown, or in a panic. -/
def Event.stop? : Event → Option Stop
  | .ended .pass _ .cancelled => some (.error .cancelled)
  | .ended .pass _ (.panicked text) => some (.panic text)
  | .note n => if n = cancelNote then some (.error .cancelled) else none
  | _ => none

def stops (events : List Event) : List Stop := events.filterMap Event.stop?

@[simp] theorem stops_append (before later : List Event) :
    stops (before ++ later) = stops before ++ stops later :=
  List.filterMap_append

theorem mem_stops_of_mem {events : List Event} {e : Event} {stop : Stop} (mem : e ∈ events)
    (stopped : e.stop? = some stop) : stop ∈ stops events :=
  List.mem_filterMap.mpr ⟨e, mem, stopped⟩

theorem panic_mem_stops {events : List Event} {text : String} :
    .panic text ∈ stops events ↔ ∃ call, .ended .pass call (.panicked text) ∈ events := by
  constructor
  · intro mem
    obtain ⟨e, among, stopped⟩ := List.mem_filterMap.mp mem
    unfold Event.stop? at stopped
    split at stopped
    · cases stopped
    · cases stopped
      exact ⟨_, among⟩
    · split at stopped <;> cases stopped
    · cases stopped
  · rintro ⟨call, mem⟩
    exact mem_stops_of_mem mem rfl

/-- The work stops because of shutdown or in a panic. -/
theorem eq_of_mem_stops {events : List Event} {stop : Stop} (mem : stop ∈ stops events) :
    stop = .error .cancelled ∨ ∃ text, stop = .panic text := by
  obtain ⟨e, _, stopped⟩ := List.mem_filterMap.mp mem
  unfold Event.stop? at stopped
  split at stopped
  · cases stopped
    exact .inl rfl
  · cases stopped
    exact .inr ⟨_, rfl⟩
  · split at stopped
    · cases stopped
      exact .inl rfl
    · cases stopped
  · cases stopped

theorem stops_transcript (events : List Event) : stops (transcript events) = stops events := by
  refine filterMap_transcript (fun e stop stopped => ?_) events
  unfold Event.stop? at stopped
  split at stopped
  · rfl
  · rfl
  · rename_i n
    split at stopped
    · rename_i cancels
      simp [Event.isScripted, Note.isNotable, cancels]
    · cases stopped
  · cases stopped

@[simp] theorem stops_exchange (call : Call) (answer : call.Answer) :
    stops (exchange call answer) = [] := rfl

theorem stops_leftBehindNote (e : DeployError) : stops [.note (leftBehindNote e)] = [] := by
  have other : leftBehindNote e ≠ cancelNote := by rintro ⟨⟩
  simp [stops, Event.stop?, other]

section Stop

variable {o : Order} {calm : Prop} {x : List Event} {stop stop' : Stop} {r : RunEnd Unit}

theorem Breaks.stops_eq {call : Call} {blame : Failure → DeployError}
    (breaks : Breaks calm blame call x stop) : ∀ stop' ∈ stops x, stop' = stop := by
  cases breaks <;> simp [stops, Event.stop?]

theorem Procedure.Done.stops_eq {α : Type} {p : Procedure α} {a : α} (whole : p.Done x a) :
    stops x = [] := by
  induction whole with
  | finish => rfl
  | call _ ih => rw [stops_append, ih, stops_exchange, List.append_nil]

theorem Procedure.Stops.stops_eq {α : Type} {p : Procedure α} (stopped : p.Stops calm x stop) :
    ∀ stop' ∈ stops x, stop' = stop := by
  induction stopped with
  | here breaks => exact breaks.stops_eq
  | later _ ih => simpa using ih

theorem Past.stops_eq {task : Task} (past : Past o calm task x) : stops x = [] := by
  cases past with
  | done whole => exact whole.stops_eq
  | @leftBehind _ x e _ other stopped =>
    rw [stops_append, stops_leftBehindNote, List.append_nil]
    refine List.eq_nil_iff_forall_not_mem.mpr fun stop mem => ?_
    obtain rfl := stopped.stops_eq stop mem
    rcases eq_of_mem_stops mem with eq | ⟨text, eq⟩
    · cases eq
      exact other rfl
    · cases eq

/-- Work that something brings to an end ends with it. -/
theorem Work.stops_eq {finish : Exit Unit} {tasks : List Task}
    (work : Work o calm finish tasks x r) : ∀ stop ∈ stops x, r = stop.toEnd := by
  induction work with
  | finished => simp [stops]
  | past past _ ih =>
    intro stop mem
    rw [stops_append, past.stops_eq] at mem
    exact ih stop mem
  | stopped stopped _ =>
    intro stop mem
    rw [stopped.stops_eq stop mem]

theorem stops_foreword (o : Order) : stops o.foreword = [] :=
  o.filterMap_foreword fun line => by
    have other : Note.progress line ≠ cancelNote := by rintro ⟨⟩
    simp [Event.stop?, other]

/-- A run ends with what brought its work to an end, unless it is cut off or a call panics that is
carried through. -/
def EndsWith (x : List Event) (r : RunEnd Unit) (stop : Stop) : Prop :=
  r = .hung ∨ r = stop.toEnd ∨ ∃ call text, call.cancellable = false ∧
    .ended .pass call (.panicked text) ∈ x ∧ r = .exit (.panic text)

theorem EndsWith.mono {y : List Event} (sub : x ⊆ y) (ends : EndsWith x r stop) :
    EndsWith y r stop := by
  rcases ends with hung | same | ⟨call, text, carried, mem, rfl⟩
  · exact .inl hung
  · exact .inr (.inl same)
  · exact .inr (.inr ⟨call, text, carried, sub mem, rfl⟩)

/-- A call that is carried through hands on how the work ended, unless it panics. -/
theorem EndsWith.past {call : Call} {reply : Reply call.Answer} {exit : Exit Unit}
    (carried : call.cancellable = false) (mem : .ended .pass call reply ∈ x)
    (ends : .exit exit = (stop.toEnd : RunEnd Unit)) :
    EndsWith x (.exit (exit.past reply)) stop := by
  cases reply with
  | panicked text => exact .inr (.inr ⟨call, text, carried, mem, rfl⟩)
  | _ => exact .inr (.inl ends)

theorem Order.HandsBack.endsWith {r₀ : RunEnd Unit} {z : List Event} (handed : o.HandsBack r₀ z r)
    (ends : r₀ = stop.toEnd) : EndsWith z r stop := by
  cases handed with
  | hung => exact .inl rfl
  | cutOff => exact .inl rfl
  | unanswered => exact .inl rfl
  | answered _ => exact .past rfl (by simp) ends

theorem Order.HandsBack.stops_eq {r₀ : RunEnd Unit} {z : List Event}
    (handed : o.HandsBack r₀ z r) : ∀ stop ∈ stops z, r = stop.toEnd := by
  cases handed with
  | @answered _ reply notCancelled =>
    cases reply with
    | cancelled => exact absurd rfl notCancelled
    | panicked text => simp [stops, Event.stop?, Exit.past, Stop.toEnd]
    | _ => simp [stops, Event.stop?]
  | _ => simp [stops, Event.stop?]

theorem Order.Passage.endsWith (passage : o.Passage calm x r) :
    ∀ stop ∈ stops x, EndsWith x r stop := by
  cases passage with
  | barred stopped =>
    intro stop mem
    rw [stopped.stops_eq stop mem]
    exact .inr (.inl rfl)
  | @admitted x y z r₀ _ whole work handed =>
    intro stop mem
    simp only [stops_append, whole.stops_eq, stops_foreword, List.nil_append,
      List.mem_append] at mem
    rcases mem with mem | mem
    · exact (handed.endsWith (work.stops_eq stop mem)).mono fun e among => by simp [among]
    · exact .inr (.inl (handed.stops_eq stop mem))

theorem Order.Concludes.endsWith {r₀ : RunEnd Unit} {y : List Event}
    (concluded : o.Concludes r₀ y r) (ends : r₀ = stop.toEnd) : EndsWith y r stop := by
  cases concluded with
  | hung => exact .inl rfl
  | panicked => exact .inr (.inl ends)
  | succeeded _ => simp at ends
  | failed _ => exact .past rfl (by simp) ends
  | completing => exact .inl rfl
  | failing => exact .inl rfl

/-- The final state is written whatever else happens, unless that panics. -/
theorem Order.Concludes.stops_panic {r₀ : RunEnd Unit} {y : List Event}
    (concluded : o.Concludes r₀ y r) :
    ∀ stop ∈ stops y, ∃ text, stop = .panic text ∧ r = .exit (.panic text) := by
  cases concluded with
  | @succeeded _ reply notCancelled =>
    cases reply with
    | cancelled => exact absurd rfl notCancelled
    | panicked text => simp [stops, Event.stop?, settle]
    | _ => simp [stops, Event.stop?]
  | @failed _ reply notCancelled =>
    cases reply with
    | cancelled => exact absurd rfl notCancelled
    | panicked text => simp [stops, Event.stop?, Exit.past]
    | _ => simp [stops, Event.stop?]
  | _ => simp [stops, Event.stop?]

/-- What brings the work to an end is what the rollout ends with. -/
theorem Order.Course.endsWith (course : o.Course calm x r) :
    ∀ stop ∈ stops x, EndsWith x r stop := by
  cases course with
  | unannounced breaks =>
    intro stop mem
    rw [breaks.stops_eq stop mem]
    exact .inr (.inl rfl)
  | @announced x y r₀ _ passage concluded =>
    intro stop mem
    simp only [stops_append, stops_exchange, List.nil_append, List.mem_append] at mem
    rcases mem with mem | mem
    · rcases passage.endsWith stop mem with rfl | ends | ⟨call, text, carried, mem, rfl⟩
      · cases concluded
        exact .inl rfl
      · exact (concluded.endsWith ends).mono fun e among => by simp [among]
      · cases concluded
        exact .inr (.inr ⟨call, text, carried, by simp [mem], rfl⟩)
    · obtain ⟨text, rfl, rfl⟩ := concluded.stops_panic stop mem
      exact .inr (.inl rfl)

end Stop

/-- Nothing panicked but at most the writing of the final state. -/
def Unbroken (x : List Event) : Prop :=
  ∀ call text, .ended .pass call (.panicked text) ∈ x → call.role = .conclusion

/-- The pass has no call left to make in this transcript: it was admitted, its plan could be built,
and every task is done or was left behind. -/
def Order.CarriedOut (o : Order) (x : List Event) : Prop :=
  o.finish = .ok () ∧ ∃ segments rest, List.Forall₂ (Past o False) o.tasks segments ∧
    x = exchange o.markRunning () ++ (o.admitting ++ (o.foreword ++ (segments.flatten ++ rest)))

/-- The calls of a rollout with this transcript: those that shutdown interrupts, and then those that
are carried through. -/
structure Closing (o : Order) (x : List Event) (r : RunEnd Unit)
    (work returned marked : List Call) : Prop where
  whole : begun x = work ++ (returned ++ marked)
  cancellable : ∀ call ∈ work, call.cancellable = true
  /-- Leases are given back only if they were acquired, -/
  returned_held : returned = [] ∨ (returned = [o.handback] ∧ o.acquired ∈ x)
  /-- and then always. -/
  returned_due : r ≠ .hung → o.acquired ∈ x → returned ≠ []
  /-- The final state of the release is written only if it was marked as running and nothing
  panicked. It is marked as complete if the pass has no call left, and else as failed. -/
  marked_announced : marked = [] ∨
    ((marked = [o.markFailed] ∧ ¬ o.CarriedOut x ∨ marked = [o.markComplete] ∧ o.CarriedOut x) ∧
      o.announced ∈ x ∧ Unbroken x)
  /-- And then always. -/
  marked_due : r ≠ .hung → o.announced ∈ x → Unbroken x → marked ≠ []

section Closing

variable {o : Order} {calm : Prop} {x : List Event} {r : RunEnd Unit}

theorem Call.cancellable_of_role {call : Call} (notRelease : call.role ≠ .release)
    (notConclusion : call.role ≠ .conclusion) : call.cancellable = true := by
  cases call with
  | setStatus release status =>
    cases status with
    | running => rfl
    | complete => exact absurd rfl notConclusion
    | failed => exact absurd rfl notConclusion
  | release machines => exact absurd rfl notRelease
  | _ => rfl

/-- A call that breaks off has not succeeded, and nor has any other. -/
theorem Breaks.ok_notMem {c call : Call} {blame : Failure → DeployError} {stop : Stop}
    {answer : call.Answer} (breaks : Breaks calm blame c x stop) :
    .ended .pass call (.ok answer) ∉ x := by
  cases breaks with
  | refused => simp
  | unanswered => simp
  | abandoned =>
    intro mem
    rcases List.mem_cons.mp mem with eq | mem
    · cases eq
    · rcases List.mem_pair.mp mem with eq | eq
      · cases eq
      · cases eq
  | failed failure =>
    intro mem
    rcases List.mem_pair.mp mem with eq | eq
    · cases eq
    · cases eq
  | panicked text =>
    intro mem
    rcases List.mem_pair.mp mem with eq | eq
    · cases eq
    · cases eq

namespace Order

/-- A pass that is not admitted holds no leases. -/
theorem acquired_notMem_of_stops {stop : Stop} (stopped : o.admission.Stops calm x stop) :
    o.acquired ∉ x := by
  obtain ⟨current, call, blame, y, next, breaks, rfl⟩ := stopped.breaks
  intro mem
  rcases List.mem_append.mp mem with mem | mem
  · exact acquired_notMem_of_next next mem
  · exact breaks.ok_notMem mem

theorem work_role (work : Work o calm o.finish o.tasks x r) :
    ∀ call ∈ begun x, call.role = .work := by
  intro call mem
  obtain ⟨u, v, eq⟩ := List.append_of_mem (mem_begun.mp mem)
  obtain ⟨task, blame, reaches⟩ := work.next eq
  obtain ⟨_, _, next⟩ := reaches
  exact next.uses (task.procedure_uses o)

/-- The calls that admit a pass are interrupted by shutdown, -/
theorem admission_cancellable {call : Call}
    (admits : call = .releaseCommand ∨ call = o.acquisition) : call.cancellable = true := by
  rcases admits with rfl | rfl
  · rfl
  · rfl

theorem barred_cancellable {stop : Stop} (stopped : o.admission.Stops calm x stop) :
    ∀ call ∈ begun x, call.cancellable = true :=
  fun call mem => admission_cancellable (stopped.uses o.admission_uses call mem)

theorem admitted_cancellable (whole : o.admission.Done x ()) :
    ∀ call ∈ begun x, call.cancellable = true :=
  fun call mem => admission_cancellable (whole.uses o.admission_uses call mem)

/-- and so are those of its work. -/
theorem work_cancellable (work : Work o calm o.finish o.tasks x r) :
    ∀ call ∈ begun x, call.cancellable = true := by
  intro call mem
  have role := work_role work call mem
  exact Call.cancellable_of_role (by simp [role]) (by simp [role])

/-- The calls of a pass. -/
theorem Passage.closing (passage : o.Passage calm x r) :
    ∃ work returned, begun x = work ++ returned ∧ (∀ call ∈ work, call.cancellable = true) ∧
      (returned = [] ∨ (returned = [o.handback] ∧ o.acquired ∈ x)) ∧
      (r ≠ .hung → o.acquired ∈ x → returned ≠ []) := by
  cases passage with
  | barred stopped =>
    exact ⟨begun x, [], (List.append_nil _).symm, barred_cancellable stopped, .inl rfl,
      fun _ held => absurd held (acquired_notMem_of_stops stopped)⟩
  | @admitted x y z r₀ _ whole work handed =>
    have held : o.acquired ∈ x := by
      rw [eq_admitting whole]
      exact o.acquired_mem_admitting
    have returned : begun z = [] ∧ r = .hung ∨ begun z = [o.handback] := by
      cases handed with
      | hung => exact .inl ⟨rfl, rfl⟩
      | cutOff => exact .inl ⟨rfl, rfl⟩
      | unanswered => exact .inr rfl
      | answered _ => exact .inr rfl
    refine ⟨begun x ++ begun y, begun z, by simp [begun_foreword], fun call mem => ?_, ?_,
      fun hung _ => ?_⟩
    · rcases List.mem_append.mp mem with mem | mem
      · exact admitted_cancellable whole call mem
      · exact work_cancellable work call mem
    · exact returned.imp And.left fun back => ⟨back, List.mem_append_left _ held⟩
    · rcases returned with ⟨_, cut⟩ | back
      · exact absurd cut hung
      · simp [back]

theorem finish_ne_panic (o : Order) (text : String) : o.finish ≠ .panic text := by
  rw [finish]
  cases o.plan <;> rintro ⟨⟩

/-- Work that ends in a panic has made a call that panicked. -/
theorem work_panicked {text : String}
    (work : Work o calm o.finish o.tasks x (.exit (.panic text))) :
    ∃ call, .ended .pass call (.panicked text) ∈ x ∧ call.role = .work := by
  rcases work.whole with ⟨_, _, _, ending⟩ |
    ⟨_, task, _, _, current, stop, _, _, rfl, stopped, ending, _⟩
  · exact absurd (RunEnd.exit.inj ending).symm (o.finish_ne_panic text)
  · obtain rfl : Stop.panic text = stop := Stop.toEnd_inj.mp ending
    obtain ⟨_, call, _, next, mem⟩ := stopped.panicked
    exact ⟨call, List.mem_append_right _ mem, next.uses (task.procedure_uses o)⟩

/-- A pass that ends in a panic has made a call that panicked. -/
theorem Passage.panicked {text : String} (passage : o.Passage calm x (.exit (.panic text))) :
    ∃ call, .ended .pass call (.panicked text) ∈ x ∧ call.role ≠ .conclusion := by
  generalize ending : RunEnd.exit (Exit.panic text) = r at passage
  cases passage with
  | @barred _ stop stopped =>
    obtain rfl : Stop.panic text = stop := Stop.toEnd_inj.mp ending
    obtain ⟨_, call, _, next, mem⟩ := stopped.panicked
    refine ⟨call, mem, ?_⟩
    rcases next.uses o.admission_uses with rfl | rfl
    · simp [Call.role]
    · simp [Call.role]
  | @admitted x y z r₀ _ whole work handed =>
    cases handed with
    | hung => cases ending
    | cutOff => cases ending
    | unanswered => cases ending
    | @answered exit reply _ =>
      cases reply with
      | panicked text' =>
        cases ending
        exact ⟨o.handback, by simp, by simp [Call.role]⟩
      | _ =>
        cases ending
        obtain ⟨call, mem, role⟩ := work_panicked work
        exact ⟨call, by simp [mem], by simp [role]⟩

/-- A pass that ends well has done its work. -/
theorem Passage.carriedOut {a : Unit} (passage : o.Passage False x (.exit (.ok a))) :
    o.finish = .ok () ∧ ∃ segments rest, List.Forall₂ (Past o False) o.tasks segments ∧
      x = o.admitting ++ (o.foreword ++ (segments.flatten ++ rest)) := by
  generalize ending : RunEnd.exit (Exit.ok a) = r at passage
  cases passage with
  | barred _ => simp at ending
  | @admitted x y z r₀ _ whole work handed =>
    obtain rfl : r₀ = .exit (.ok ()) := by
      cases handed with
      | hung => cases ending
      | cutOff => cases ending
      | unanswered => cases ending
      | @answered exit reply _ => cases reply <;> cases ending <;> rfl
    obtain rfl := eq_admitting whole
    rcases work.whole with ⟨segments, pasts, rfl, ended⟩ |
      ⟨_, _, _, _, _, stop, _, _, _, _, ended, _⟩
    · exact ⟨work.finish_of_ok, segments, z, pasts, rfl⟩
    · simp at ended

theorem admission_done (o : Order) : o.admission.Done o.admitting () := by
  have leases : (Procedure.call o.acquisition .leaseAcquisition .finish).Done
      (exchange o.acquisition ()) () := .call .finish
  rw [admission, admitting]
  cases o.runsCommand with
  | true => exact .call leases
  | false => exact leases

/-- A pass that ends with an error has something left to do. -/
theorem Passage.not_carriedOut {e : DeployError} {u v : List Event} {segments : List (List Event)}
    (passage : o.Passage calm x (.exit (.error e))) (finish : o.finish = .ok ())
    (pasts : List.Forall₂ (Past o False) o.tasks segments) :
    x ++ u ≠ o.admitting ++ (o.foreword ++ (segments.flatten ++ v)) := by
  generalize ending : RunEnd.exit (Exit.error e) = r at passage
  cases passage with
  | @barred _ stop stopped =>
    obtain rfl : Stop.error e = stop := Stop.toEnd_inj.mp ending
    exact stopped.not_done o.admission_done
  | @admitted x y z r₀ _ whole work handed =>
    subst ending
    obtain ⟨rfl, _⟩ := handed.of_error
    rw [finish] at work
    intro eq
    rw [eq_admitting whole] at eq
    simp only [List.append_assoc] at eq
    exact work.not_past pasts (List.append_cancel_left (List.append_cancel_left eq))

/-- Leases are acquired by the pass if at all. -/
theorem acquired_mem_announced {y : List Event} {r₀ : RunEnd Unit}
    (concluded : o.Concludes r₀ y r) :
    o.acquired ∈ exchange o.markRunning () ++ (x ++ y) ↔ o.acquired ∈ x := by
  constructor
  · intro mem
    rcases List.mem_append.mp mem with mem | mem
    · rcases List.mem_pair.mp mem with eq | eq
      · cases eq
      · cases eq
    · rcases List.mem_append.mp mem with mem | mem
      · exact mem
      · rcases concluded.call_eq mem with eq | eq
        · cases eq
        · cases eq
  · intro mem
    exact List.mem_append_right _ (List.mem_append_left y mem)

/-- If the pass does not end in a panic, at most the call panics that writes the final state. -/
theorem unbroken_announced {y : List Event} {r₀ : RunEnd Unit} (passage : o.Passage calm x r₀)
    (hung : r₀ ≠ .hung) (calmly : ∀ text, r₀ ≠ .exit (.panic text))
    (concluded : o.Concludes r₀ y r) : Unbroken (exchange o.markRunning () ++ (x ++ y)) := by
  intro call text mem
  rcases List.mem_append.mp mem with mem | mem
  · rcases List.mem_pair.mp mem with eq | eq
    · cases eq
    · cases eq
  · rcases List.mem_append.mp mem with mem | mem
    · rcases passage.endsWith (.panic text) (panic_mem_stops.mpr ⟨call, mem⟩) with
        cut | same | ⟨_, text', _, _, same⟩
      · exact absurd cut hung
      · exact absurd same (calmly text)
      · exact absurd same (calmly text')
    · rcases concluded.call_eq mem with rfl | rfl
      · rfl
      · rfl

/-- Which final state is written depends on how the pass ended. -/
theorem Concludes.marks {y : List Event} {r₀ : RunEnd Unit} (concluded : o.Concludes r₀ y r) :
    (begun y = [] ∧ (r = .hung ∨ ∃ text, r₀ = .exit (.panic text))) ∨
    (begun y = [o.markFailed] ∧ ∃ e, r₀ = .exit (.error e)) ∨
    (begun y = [o.markComplete] ∧ r₀ = .exit (.ok ())) := by
  cases concluded with
  | hung => exact .inl ⟨rfl, .inl rfl⟩
  | panicked => exact .inl ⟨rfl, .inr ⟨_, rfl⟩⟩
  | failed _ => exact .inr (.inl ⟨rfl, _, rfl⟩)
  | failing => exact .inr (.inl ⟨rfl, _, rfl⟩)
  | succeeded _ => exact .inr (.inr ⟨rfl, rfl⟩)
  | completing => exact .inr (.inr ⟨rfl, rfl⟩)

/-- The calls of a rollout. -/
theorem Course.closing (course : o.Course False x r) :
    ∃ work returned marked, Closing o x r work returned marked := by
  cases course with
  | unannounced breaks =>
    refine ⟨begun x, [], [], by simp, fun call mem => ?_, .inl rfl,
      fun _ held => absurd held breaks.ok_notMem, .inl rfl,
      fun _ marked => absurd marked breaks.ok_notMem⟩
    obtain rfl := breaks.begun_eq mem
    rfl
  | @announced x y r₀ _ passage concluded =>
    obtain ⟨work, returned, calls, cancellable, back, due⟩ := passage.closing
    have acquired := acquired_mem_announced (x := x) concluded
    have marked : o.announced ∈ exchange o.markRunning () ++ (x ++ y) :=
      List.mem_append_left _ (List.mem_cons_of_mem _ List.mem_cons_self)
    refine ⟨o.markRunning :: work, returned, begun y, ?_, ?_, ?_, ?_, ?_, ?_⟩
    · rw [begun_append, begun_append, calls, List.append_assoc]
      rfl
    · intro call mem
      rcases List.mem_cons.mp mem with rfl | mem
      · rfl
      · exact cancellable call mem
    · rwa [acquired]
    · intro hung held
      refine due ?_ (acquired.mp held)
      rintro rfl
      cases concluded
      exact hung rfl
    · rcases concluded.marks with ⟨none, _⟩ | ⟨failed, e, rfl⟩ | ⟨complete, rfl⟩
      · exact .inl none
      · have unbroken := unbroken_announced passage (by simp) (by simp) concluded
        refine .inr ⟨.inl ⟨failed, ?_⟩, marked, unbroken⟩
        rintro ⟨finish, segments, rest, pasts, eq⟩
        exact passage.not_carriedOut finish pasts (List.append_cancel_left eq)
      · have unbroken := unbroken_announced passage (by simp) (by simp) concluded
        obtain ⟨finish, segments, rest, pasts, rfl⟩ := passage.carriedOut
        refine .inr ⟨.inr ⟨complete, finish, segments, rest ++ y, pasts, ?_⟩, marked, unbroken⟩
        simp only [List.append_assoc]
    · intro hung _ unbroken
      rcases concluded.marks with ⟨_, cut | ⟨text, rfl⟩⟩ | ⟨failed, _⟩ | ⟨complete, _⟩
      · exact absurd cut hung
      · obtain ⟨call, mem, role⟩ := passage.panicked
        have among : .ended .pass call (.panicked text) ∈
            exchange o.markRunning () ++ (x ++ y) :=
          List.mem_append_right _ (List.mem_append_left _ mem)
        exact absurd (unbroken call text among) role
      · simp [failed]
      · simp [complete]

/-- A release is not marked as complete if its pass came to an end early. -/
theorem Course.complete_notMem (course : o.Course calm x r)
    (cancelled : .error .cancelled ∈ stops x) : o.markComplete ∉ begun x := by
  intro mem
  cases course with
  | unannounced breaks => cases breaks.begun_eq mem
  | @announced x y r₀ _ passage concluded =>
    have pass : r₀ = .exit (.ok ()) := by
      obtain ⟨work, returned, calls, cancellable, back, _⟩ := passage.closing
      rw [begun_append, begun_append, calls] at mem
      rcases List.mem_append.mp mem with mem | mem
      · cases List.mem_singleton.mp mem
      · rcases List.mem_append.mp mem with mem | mem
        · rcases List.mem_append.mp mem with mem | mem
          · cases cancellable _ mem
          · rcases back with rfl | ⟨rfl, _⟩
            · cases mem
            · cases List.mem_singleton.mp mem
        · rcases concluded.marks with ⟨none, _⟩ | ⟨failed, _⟩ | ⟨_, pass⟩
          · rw [none] at mem
            cases mem
          · rw [failed] at mem
            cases List.mem_singleton.mp mem
          · exact pass
    subst pass
    rw [stops_append, stops_append, stops_exchange, List.nil_append] at cancelled
    rcases List.mem_append.mp cancelled with early | late
    · rcases passage.endsWith _ early with eq | eq | ⟨_, _, _, _, eq⟩
      · cases eq
      · cases eq
      · cases eq
    · obtain ⟨text, eq, _⟩ := concluded.stops_panic _ late
      cases eq

end Order

end Closing

end Rollout
