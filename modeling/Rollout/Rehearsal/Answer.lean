import Rollout.Call

/-!
# Answers in a rehearsal

A rehearsal plays the collaborators of a rollout without touching a fleet. Its control plane
numbers the machines that it launches, and a call is known by a name and a target.
-/

namespace Rollout

def newMachineId (n : Nat) : MachineId where
  text := "new_" ++ toString n
  valid := by
    have stem : "new_".toList.all isIdChar = true := by decide
    refine ⟨by simp, fun c mem => ?_⟩
    rw [String.toList_append, List.mem_append] at mem
    rcases mem with mem | mem
    · exact List.all_eq_true.1 stem c mem
    · rw [Nat.toString_eq_repr, Nat.repr_eq_ofList_toDigits, String.toList_ofList] at mem
      have digit : c.isDigit = true :=
        Nat.isDigit_of_mem_toDigits (by decide) (by decide) mem
      simp [isIdChar, Char.isAlphanum, digit]

/-- The `n`-th machine launched in a rehearsal. -/
def newMachine (n : Nat) (input : LaunchInput) : Machine where
  id := newMachineId n
  region := input.region
  state := .created
  config := input.config

namespace Call

def name : Call → String
  | .setStatus .. => "set_status"
  | .releaseCommand => "release_command"
  | .acquire .. => "acquire"
  | .release _ => "release"
  | .launch _ => "launch"
  | .update .. => "update"
  | .destroy .. => "destroy"
  | .waitForState .. => "wait_for_state"
  | .waitForHealthchecks .. => "wait_for_healthchecks"

/-- What a call is about: a status, the group of a new machine or the name of a machine. -/
def target : Call → String
  | .setStatus _ status => status.word
  | .launch input => input.config.processGroup
  | .update m _ => m.id.text
  | .destroy m _ => m.id.text
  | .waitForState m .. => m.id.text
  | .waitForHealthchecks m _ => m.id.text
  | .releaseCommand => ""
  | .acquire .. => ""
  | .release _ => ""

def isLaunch : Call → Bool
  | .launch _ => true
  | _ => false

/-- The answer to a call that succeeds; a launch answers with the `n`-th new machine. -/
def answer (n : Nat) : (c : Call) → c.Answer
  | .launch input => newMachine n input
  | .setStatus .. => ()
  | .releaseCommand => ()
  | .acquire .. => ()
  | .release _ => ()
  | .update .. => ()
  | .destroy .. => ()
  | .waitForState .. => ()
  | .waitForHealthchecks .. => ()

end Call

end Rollout
