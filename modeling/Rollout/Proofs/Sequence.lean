import Rollout.Proofs.Frame

/-!
# Runs of scripts in a row

A run of two scripts in a row is a run of the first and, if that ends well, a run of the second
from where the first has got to. A rollout that has marked its release as running is a run of its
pass in this sense, and then of what concludes it.
-/

namespace Rollout

variable {σ α β : Type}

/-- Goes on from where a run has got to, if it has ended well. -/
def World.follow (next : α → World σ → World σ × RunEnd β) :
    World σ × RunEnd α → World σ × RunEnd β
  | (w, .exit (.ok a)) => next a w
  | (w, .exit (.error e)) => (w, .exit (.error e))
  | (w, .exit (.panic text)) => (w, .exit (.panic text))
  | (w, .hung) => (w, .hung)

/-- Either the first part ends well and the second goes on from there, or what follows is where the
first has stopped. -/
theorem World.follow_cases (next : α → World σ → World σ × RunEnd β)
    (out : World σ × RunEnd α) :
    (∃ a, out.2 = .exit (.ok a) ∧ follow next out = next a out.1) ∨
      ((follow next out).1 = out.1 ∧ out.2.StopsAs (follow next out).2) := by
  obtain ⟨w, ⟨a | e | text⟩ | _⟩ := out
  · exact .inl ⟨a, rfl, rfl⟩
  · exact .inr ⟨rfl, .error e⟩
  · exact .inr ⟨rfl, .panic text⟩
  · exact .inr ⟨rfl, .hung⟩

def RunEnd.caught : RunEnd α → RunEnd (Exit α)
  | .exit e => .exit (.ok e)
  | .hung => .hung

/-- An attempt stops only as it hangs. -/
theorem RunEnd.StopsAs.of_caught {r : RunEnd α} {r' : RunEnd β} (stops : r.caught.StopsAs r') :
    r' = .hung := by
  cases r with
  | exit e => cases stops
  | hung =>
    cases stops
    rfl

namespace Script

variable {c : Collaborators σ} {horizon : Horizon}

theorem run_bind (first : Script α) (next : α → Script β) (w : World σ) :
    (first >>= next).run c horizon w =
      World.follow (fun a w => (next a).run c horizon w) (first.run c horizon w) := by
  change (first.bind next).run c horizon w = _
  induction first generalizing w with
  | done exit => cases exit <;> rfl
  | note n first ih => exact ih _
  | checkpoint first ih => exact ih _ w
  | startRenewal machines ttl interval first ih => exact ih _
  | stopRenewal first ih =>
    simp only [bind, run]
    split
    · rfl
    · exact ih _
  | call made first ih =>
    simp only [bind, run]
    cases w.perform c horizon made with
    | mk after reply =>
      cases reply with
      | some reply => exact ih reply after
      | none => rfl

theorem run_attempt (script : Script α) (w : World σ) :
    script.attempt.run c horizon w =
      ((script.run c horizon w).1, (script.run c horizon w).2.caught) := by
  induction script generalizing w with
  | done exit => rfl
  | note n script ih => exact ih _
  | checkpoint script ih => exact ih _ w
  | startRenewal machines ttl interval script ih => exact ih _
  | stopRenewal script ih =>
    simp only [attempt, run]
    split
    · rfl
    · exact ih _
  | call made script ih =>
    simp only [attempt, run]
    cases w.perform c horizon made with
    | mk after reply =>
      cases reply with
      | some reply => exact ih reply after
      | none => rfl

end Script

/-- The pass as a rollout makes it: from where the release is marked as running. -/
def Order.passRun (o : Order) (c : Collaborators σ) (horizon : Horizon) (w : World σ) :
    World σ × RunEnd Unit :=
  o.pass.run c horizon (o.announce.run c horizon w).1

/-- What becomes of a rollout after a pass that has got so far. -/
def Order.concluded (o : Order) (c : Collaborators σ) (horizon : Horizon) :
    World σ × RunEnd Unit → World σ × RunEnd Unit
  | (w, .exit exit) => (o.conclude exit).run c horizon w
  | (w, .hung) => (w, .hung)

/-- Once the release is marked as running the pass is made and concluded. -/
theorem Order.run_of_marked {o : Order} {c : Collaborators σ} {horizon : Horizon} {w : World σ}
    (marked : (o.announce.run c horizon w).2 = .exit (.ok ())) :
    o.run c horizon w = o.concluded c horizon (o.passRun c horizon w) := by
  have announced : o.announce.run c horizon w =
      ((o.announce.run c horizon w).1, .exit (.ok ())) := by rw [← marked]
  rw [run, script_eq, Script.run_bind, announced, World.follow, Script.run_bind,
    Script.run_attempt, passRun]
  cases o.pass.run c horizon (o.announce.run c horizon w).1 with
  | mk after ending => cases ending <;> rfl

end Rollout
