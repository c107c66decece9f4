import Rollout.Proofs.Telling

/-!
# The calls that a script may make

`Script.Uses` bounds the calls of a script without running it. All events of its stories keep
within these calls, and in a story that ends every call has had its reply.
-/

namespace Rollout

variable {α β : Type}

/-- The script makes no other calls than these, whatever is replied, and leaves the renewal of
leases alone. -/
def Script.Uses (allowed : Call → Prop) : Script α → Prop
  | .done _ => True
  | .note _ next => next.Uses allowed
  | .checkpoint next => ∀ raised, (next raised).Uses allowed
  | .call made next => allowed made ∧ ∀ reply, (next reply).Uses allowed
  | .startRenewal .. => False
  | .stopRenewal _ => False

/-- An event around or within a script that makes no other calls than these while a call is
made again and again in the background. -/
def Event.Within (allowed : Call → Prop) (renewing : Option Call) : Event → Prop
  | .began .pass call => allowed call
  | .ended .pass call _ => allowed call
  | .began .renewal call => renewing = some call
  | .ended .renewal call _ => renewing = some call
  | .note _ => True
  | .renewalLog _ => True
  | .signal _ => True

theorem Event.Within.mono {p q : Call → Prop} {renewing : Option Call} {e : Event}
    (implies : ∀ call, p call → q call) (within : e.Within p renewing) :
    e.Within q renewing := by
  rcases e with ⟨actor, call⟩ | ⟨actor, call, reply⟩ | n | record | change
  · cases actor with
    | pass => exact implies call within
    | renewal => exact within
  · cases actor with
    | pass => exact implies call within
    | renewal => exact within
  · trivial
  · trivial
  · trivial

theorem Stage.Admits.within {s : Stage} {e : Event} (allowed : Call → Prop)
    (admitted : s.Admits e) : e.Within allowed s.renewing := by
  rcases e with ⟨actor, call⟩ | ⟨actor, call, reply⟩ | n | record | change
  · cases actor with
    | pass => exact False.elim admitted
    | renewal => exact admitted
  · cases actor with
    | pass => exact False.elim admitted
    | renewal => exact admitted
  · exact False.elim admitted
  · trivial
  · trivial

/-- An event of two lists in a row stands in the second or in the first. -/
theorem split_append {first second before later : List α} {e : α}
    (eq : first ++ second = before ++ e :: later) :
    (∃ mid, before = first ++ mid ∧ second = mid ++ e :: later) ∨
    ∃ mid, first = before ++ e :: mid ∧ later = mid ++ second := by
  rcases List.append_eq_append_iff.mp eq with ⟨mid, grown, tail⟩ | ⟨mid, grown, tail⟩
  · exact .inl ⟨mid, grown, tail⟩
  · cases mid with
    | nil => exact .inl ⟨[], by simpa using grown.symm, by simpa using tail.symm⟩
    | cons head mid =>
      obtain ⟨rfl, rfl⟩ := List.cons.inj tail
      exact .inr ⟨mid, grown, rfl⟩

/-- An event that the first list does not hold stands in the second. -/
theorem split_later {first second before later : List α} {e : α}
    (eq : first ++ second = before ++ e :: later) (notMem : e ∉ first) :
    ∃ mid, before = first ++ mid ∧ second = mid ++ e :: later := by
  rcases split_append eq with found | ⟨mid, rfl, _⟩
  · exact found
  · simp at notMem

def Settled (events : List Event) : Prop :=
  ∀ before call later, events = before ++ .began .pass call :: later →
    ∃ reply, .ended .pass call reply ∈ later

theorem settled_nil : Settled [] := by
  intro before call later eq
  simp at eq

theorem settled_append {first second : List Event} (settled : Settled first)
    (settled' : Settled second) : Settled (first ++ second) := by
  intro before call later eq
  rcases split_append eq with ⟨mid, _, tail⟩ | ⟨mid, head, rfl⟩
  · exact settled' mid call later tail
  · obtain ⟨reply, mem⟩ := settled before call mid head
    exact ⟨reply, List.mem_append_left second mem⟩

theorem settled_of_notMem {events : List Event} (none : ∀ call, .began .pass call ∉ events) :
    Settled events := by
  intro before call later eq
  exact absurd (by simp [eq]) (none call)

theorem settled_note (n : Note) : Settled [.note n] := settled_of_notMem (by simp)

theorem Stage.Background.began_notMem {s later : Stage} {events : List Event}
    (background : s.Background events later) (call : Call) : .began .pass call ∉ events :=
  fun mem => background.admitted _ mem

/-- A call with its reply is settled. -/
theorem settled_exchange {noise : List Event} {call : Call} {reply : Reply call.Answer}
    (quiet : ∀ call, .began .pass call ∉ noise) :
    Settled (.began .pass call :: noise ++ [.ended .pass call reply]) := by
  intro before made rest eq
  cases before with
  | nil =>
    obtain ⟨rfl, rfl⟩ : call = made ∧ noise ++ [.ended .pass call reply] = rest := by
      simpa using eq
    exact ⟨reply, by simp⟩
  | cons e before =>
    have mem : Event.began .pass made ∈ noise ++ [.ended .pass call reply] := by
      have eq' : noise ++ [.ended .pass call reply] = before ++ .began .pass made :: rest := by
        simpa using (List.cons.inj eq).2
      simp [eq']
    rcases List.mem_append.mp mem with mem | mem
    · exact absurd mem (quiet made)
    · simp at mem

namespace Script

variable {allowed : Call → Prop}

namespace Tells

variable {s later : Stage} {events : List Event}

/-- The events of a story lie within the calls that its script uses. -/
theorem within {script : Script α} {r : RunEnd α} (uses : script.Uses allowed)
    (h : script.Tells s events r later) : ∀ e ∈ events, e.Within allowed s.renewing := by
  induction h with
  | done => simp
  | note tail ih => simpa [Event.Within] using ih uses
  | checkpoint tail ih => exact ih (uses _)
  | refused may tail ih => exact ih (uses.2 _)
  | answered may background mayReply tail ih =>
    have rest := ih (uses.2 _)
    rw [background.renewing] at rest
    intro e mem
    simp only [List.cons_append, List.mem_cons, List.mem_append] at mem
    rcases mem with rfl | mem | rfl | mem
    · exact uses.1
    · exact (background.admitted e mem).within allowed
    · exact uses.1
    · exact rest e mem
  | unanswered may background =>
    intro e mem
    rcases List.mem_cons.mp mem with rfl | mem
    · exact uses.1
    · exact (background.admitted e mem).within allowed
  | startRenewal logs tail ih => exact False.elim uses
  | stopRenewal background tail ih => exact False.elim uses
  | cutOff background => exact False.elim uses

/-- A script that is seen to end has had a reply to every call, and the loop is as before. -/
theorem settled {script : Script α} {exit : Exit α} (uses : script.Uses allowed)
    (h : script.Tells s events (.exit exit) later) :
    Settled events ∧ later.renewing = s.renewing := by
  generalize ending : RunEnd.exit exit = r at h
  induction h with
  | done => exact ⟨settled_nil, rfl⟩
  | note tail ih =>
    obtain ⟨settled, same⟩ := ih uses ending
    exact ⟨settled_append (settled_note _) settled, same⟩
  | checkpoint tail ih => exact ih (uses _) ending
  | refused may tail ih => exact ih (uses.2 _) ending
  | answered may background mayReply tail ih =>
    obtain ⟨settled, same⟩ := ih (uses.2 _) ending
    refine ⟨?_, same.trans background.renewing⟩
    simpa using settled_append (settled_exchange background.began_notMem) settled
  | unanswered may background => cases ending
  | startRenewal logs tail ih => exact False.elim uses
  | stopRenewal background tail ih => exact False.elim uses
  | cutOff background => exact False.elim uses

end Tells

theorem Uses.mono {p q : Call → Prop} {script : Script α} (implies : ∀ call, p call → q call)
    (uses : script.Uses p) : script.Uses q := by
  induction script with
  | done exit => trivial
  | note n next ih => exact ih uses
  | checkpoint next ih => exact fun raised => ih raised (uses raised)
  | call made next ih => exact ⟨implies made uses.1, fun reply => ih reply (uses.2 reply)⟩
  | startRenewal machines ttl interval next ih => exact uses
  | stopRenewal next ih => exact uses

theorem uses_bind {first : Script α} {next : α → Script β} (uses : first.Uses allowed)
    (rest : ∀ a, (next a).Uses allowed) : (first >>= next).Uses allowed := by
  change (first.bind next).Uses allowed
  induction first with
  | done exit =>
    cases exit with
    | ok a => exact rest a
    | error e => trivial
    | panic text => trivial
  | note n first ih => exact ih uses
  | checkpoint first ih => exact fun raised => ih raised (uses raised)
  | call made first ih => exact ⟨uses.1, fun reply => ih reply (uses.2 reply)⟩
  | startRenewal machines ttl interval first ih => exact uses
  | stopRenewal first ih => exact uses

theorem uses_attempt {script : Script α} (uses : script.Uses allowed) :
    script.attempt.Uses allowed := by
  induction script with
  | done exit => trivial
  | note n next ih => exact ih uses
  | checkpoint next ih => exact fun raised => ih raised (uses raised)
  | call made next ih => exact ⟨uses.1, fun reply => ih reply (uses.2 reply)⟩
  | startRenewal machines ttl interval next ih => exact uses
  | stopRenewal next ih => exact uses

theorem uses_request {blame : Failure → DeployError} {call : Call} (permitted : allowed call) :
    (request blame call).Uses allowed := by
  refine ⟨permitted, fun reply => ?_⟩
  cases reply <;> trivial

theorem uses_progressLines (lines : List String) : (progressLines lines).Uses allowed := by
  induction lines with
  | nil => trivial
  | cons line rest ih => exact ih

end Script

end Rollout
