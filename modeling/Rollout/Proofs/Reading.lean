import Rollout.Proofs.Tasks

/-!
# A transcript is read in one way

The replies in a transcript tell how far a procedure has come: where two transcripts of it begin the
same list of events, they are the same, and the procedure ends with them in the same way. So work
that stops with an error cannot be mistaken for work that is done.
-/

namespace Rollout

variable {α : Type} {calm calm' : Prop} {x s u v : List Event} {e e' : DeployError}

theorem exchange_append_inj {c : Call} {answer answer' : c.Answer}
    (eq : exchange c answer ++ u = exchange c answer' ++ v) : answer = answer' ∧ u = v := by
  cases eq
  exact ⟨rfl, rfl⟩

namespace Breaks

variable {blame : Failure → DeployError} {c : Call}

/-- A call that breaks off with an error has not succeeded. -/
theorem not_exchange {answer : c.Answer} (breaks : Breaks calm blame c x (.error e)) :
    x ++ u ≠ exchange c answer ++ v := by
  cases breaks with
  | refused => rintro ⟨⟩
  | abandoned => rintro ⟨⟩
  | failed failure => rintro ⟨⟩

theorem unique (breaks : Breaks calm blame c x (.error e))
    (breaks' : Breaks calm' blame c s (.error e')) (eq : x ++ u = s ++ v) : x = s ∧ e = e' := by
  cases breaks with
  | refused =>
    cases breaks' with
    | refused => exact ⟨rfl, rfl⟩
    | abandoned => cases eq
    | failed failure => cases eq
  | abandoned =>
    cases breaks' with
    | refused => cases eq
    | abandoned => exact ⟨rfl, rfl⟩
    | failed failure => cases eq
  | failed failure =>
    cases breaks' with
    | refused => cases eq
    | abandoned => cases eq
    | failed failure' =>
      cases eq
      exact ⟨rfl, rfl⟩

end Breaks

namespace Procedure

variable {p : Procedure α} {a b : α}

theorem Done.unique (whole : p.Done x a) (whole' : p.Done s b) (eq : x ++ u = s ++ v) : x = s := by
  induction whole generalizing s with
  | finish =>
    cases whole'
    rfl
  | call _ ih =>
    cases whole' with
    | call whole' =>
      rw [List.append_assoc, List.append_assoc] at eq
      obtain ⟨rfl, tail⟩ := exchange_append_inj eq
      rw [ih whole' tail]

/-- A procedure that stops with an error is not done. -/
theorem Stops.not_done (stops : p.Stops calm x (.error e)) (whole : p.Done s a) :
    x ++ u ≠ s ++ v := by
  generalize ending : Stop.error e = stop at stops
  induction stops generalizing s with
  | here breaks =>
    subst ending
    cases whole with
    | call whole =>
      rw [List.append_assoc]
      exact breaks.not_exchange
  | later _ ih =>
    cases whole with
    | call whole =>
      intro eq
      rw [List.append_assoc, List.append_assoc] at eq
      obtain ⟨rfl, tail⟩ := exchange_append_inj eq
      exact ih whole ending tail

theorem Stops.unique (stops : p.Stops calm x (.error e)) (stops' : p.Stops calm' s (.error e'))
    (eq : x ++ u = s ++ v) : x = s ∧ e = e' := by
  generalize ending : Stop.error e = stop at stops
  induction stops generalizing s with
  | here breaks =>
    subst ending
    cases stops' with
    | here breaks' => exact breaks.unique breaks' eq
    | later _ =>
      rw [List.append_assoc] at eq
      exact absurd eq breaks.not_exchange
  | later _ ih =>
    rw [List.append_assoc] at eq
    cases stops' with
    | here breaks' => exact absurd eq.symm breaks'.not_exchange
    | later stops' =>
      rw [List.append_assoc] at eq
      obtain ⟨rfl, tail⟩ := exchange_append_inj eq
      obtain ⟨same, ends⟩ := ih stops' tail ending
      exact ⟨by rw [same], ends⟩

end Procedure

variable {o : Order}

theorem Past.unique {task : Task} (past : Past o calm task x) (past' : Past o calm' task s)
    (eq : x ++ u = s ++ v) : x = s := by
  cases past with
  | done whole =>
    cases past' with
    | done whole' => exact whole.unique whole' eq
    | leftBehind _ _ stops' =>
      rw [List.append_assoc] at eq
      exact absurd eq.symm (stops'.not_done whole)
  | leftBehind _ _ stops =>
    rw [List.append_assoc] at eq
    cases past' with
    | done whole' => exact absurd eq (stops.not_done whole')
    | leftBehind _ _ stops' =>
      rw [List.append_assoc] at eq
      obtain ⟨rfl, rfl⟩ := stops.unique stops' eq
      rfl

/-- Work that stops with an error has not got past all of its tasks. -/
theorem Work.not_past {tasks : List Task} {segments : List (List Event)}
    (work : Work o calm (.ok ()) tasks x (.exit (.error e)))
    (pasts : List.Forall₂ (Past o calm') tasks segments) : x ++ u ≠ segments.flatten ++ v := by
  generalize ending : RunEnd.exit (Exit.error e) = r at work
  induction work generalizing segments with
  | finished => cases ending
  | past isPast _ ih =>
    cases pasts with
    | cons isPast' pasts =>
      intro eq
      rw [List.flatten_cons, List.append_assoc, List.append_assoc] at eq
      obtain rfl := isPast.unique isPast' eq
      exact ih pasts ending (List.append_cancel_left eq)
  | @stopped task _ _ stop stops fatal =>
    obtain rfl : Stop.error e = stop := Stop.toEnd_inj.mp ending
    cases pasts with
    | cons isPast pasts =>
      rw [List.flatten_cons, List.append_assoc]
      cases isPast with
      | done whole => exact stops.not_done whole
      | leftBehind policy other stops' =>
        -- Where entries are left behind the work stops at one only if it is cancelled.
        intro eq
        rw [List.append_assoc] at eq
        obtain ⟨_, rfl⟩ := stops.unique stops' eq
        exact other (fatal _ _ rfl rfl policy)

end Rollout
