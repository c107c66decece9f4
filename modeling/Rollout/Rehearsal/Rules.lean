import Rollout.Rehearsal.Answer

/-!
# Rehearsals by rules

The collaborators of a rehearsal can follow a list of rules. A rule is for the calls of one
name and, if it says so, one target; it counts those calls and fires at each of them or at one
of them only. The first rule that fires at a call decides what the call does, and rules after
it do not see the call. A call that no rule fires at succeeds.
-/

namespace Rollout.Rehearsal

inductive Action
  | sleep (ms : Nat)
  | fail (failure : Failure)
  | panic (text : String)
  | hang
  | signal (change : SignalChange)
  deriving Repr

structure Rule where
  callName : String
  target : Option String := none
  /-- The one matching call to fire at. -/
  nth : Option Nat := none
  actions : List Action
  deriving Repr

/-- A rule and the number of calls that it has matched. -/
structure CountedRule where
  rule : Rule
  count : Nat := 0
  deriving Repr

namespace Rule

def covers (r : Rule) (call : Call) : Bool :=
  r.callName == call.name && (r.target.isNone || r.target == some call.target)

def firesAt (r : Rule) (n : Nat) : Bool := r.nth.isNone || r.nth == some n

end Rule

/-- Finds the rule that fires at a call. The rules that cover the call, up to that one, count
it. -/
def choose (call : Call) : List CountedRule → List CountedRule × List Action
  | [] => ([], [])
  | r :: rest =>
    if r.rule.covers call then
      let counted : CountedRule := { r with count := r.count + 1 }
      if r.rule.firesAt counted.count then (counted :: rest, r.rule.actions)
      else
        let (later, actions) := choose call rest
        (counted :: later, actions)
    else
      let (later, actions) := choose call rest
      (r :: later, actions)

/-- Whether a call with these actions comes to its answer. -/
def succeeds : List Action → Bool
  | [] => true
  | .sleep _ :: rest | .signal _ :: rest => succeeds rest
  | .fail _ :: _ | .panic _ :: _ | .hang :: _ => false

/-- The actions one after another, then the answer. No sleep is longer than the longest wait. -/
def reaction {α : Type} (answer : α) : List Action → Reaction α
  | [] => .succeed answer
  | .sleep ms :: rest => .sleep (min ms longestWait) (reaction answer rest)
  | .signal change :: rest => .signal change (reaction answer rest)
  | .fail failure :: _ => .fail failure
  | .panic text :: _ => .panic text
  | .hang :: _ => .hang

/-- The rules with their counts, and how many machines have been launched. -/
structure Progress where
  rules : List CountedRule
  launched : Nat := 0
  deriving Repr

def byRules : Collaborators Progress where
  react p _ call :=
    let (rules, actions) := choose call p.rules
    let launched :=
      if call.isLaunch && succeeds actions then p.launched + 1 else p.launched
    ({ rules, launched }, reaction (call.answer launched) actions)

def ofRules (rules : List Rule) : Progress := { rules := rules.map ({ rule := · }) }

end Rollout.Rehearsal
