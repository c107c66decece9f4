import Rollout.Proofs.FailStop
import Rollout.Rehearsal.Rules

/-!
# The hint about the payment method

A group may fail to get its first machine because the account has reached its limit. The failure
then asks for a payment method in one of its texts, however deep, and the texts are searched after
they were joined into one line. The words that are searched for hold no colon, so no two texts
that are joined by a colon and a blank make them up between them.
-/

namespace Rollout

theorem containsList_iff {needle text : List Char} :
    containsList needle text = true ↔ needle <:+: text := by
  induction text with
  | nil => rw [containsList, List.isEmpty_iff, List.infix_nil]
  | cons c rest ih =>
    rw [containsList, Bool.or_eq_true, ih, List.isPrefixOf_iff_prefix, List.infix_cons_iff]

theorem containsText_iff {needle text : String} :
    containsText needle text = true ↔ needle.toList <:+: text.toList := containsList_iff

section Separated

variable {α : Type} {a s : α} {needle sep left right : List α} {texts : List (List α)}

/-- What does not begin with a part of a separator begins after it. -/
theorem infix_of_infix_append (apart : a ∉ sep) (within : a :: needle <:+: sep ++ right) :
    a :: needle <:+: right := by
  induction sep with
  | nil => exact within
  | cons b sep ih =>
    simp only [List.mem_cons, not_or] at apart
    rcases List.infix_cons_iff.mp within with here | later
    · exact absurd (List.cons_prefix_cons.mp here).1 apart.1
    · exact ih apart.2 later

/-- What begins with no part of a separator, and does not hold the start of it, does not reach
across it. -/
theorem infix_separated_iff (apart : a ∉ s :: sep) (absent : s ∉ a :: needle) :
    a :: needle <:+: left ++ (s :: sep) ++ right ↔
      a :: needle <:+: left ∨ a :: needle <:+: right := by
  constructor
  · intro within
    rw [List.append_assoc] at within
    rcases List.infix_append_iff.mp within with before | after | ⟨first, second, eq, ends, starts⟩
    · exact .inl before
    · exact .inr (infix_of_infix_append apart after)
    · cases second with
      | nil =>
        rw [List.append_nil] at eq
        exact .inl (eq ▸ ends.isInfix)
      | cons b second =>
        obtain ⟨rfl, _⟩ := List.cons_prefix_cons.mp starts
        exact absurd (eq ▸ List.mem_append_right first List.mem_cons_self) absent
  · rintro (before | after)
    · exact before.trans ((List.prefix_append _ _).trans (List.prefix_append _ _)).isInfix
    · exact after.trans (List.suffix_append _ _).isInfix

/-- So it occurs within the joined texts exactly if it occurs within one of them. -/
theorem infix_intercalate_iff (apart : a ∉ s :: sep) (absent : s ∉ a :: needle) :
    a :: needle <:+: List.intercalate (s :: sep) texts ↔ ∃ text ∈ texts, a :: needle <:+: text := by
  induction texts with
  | nil => simp
  | cons first texts ih =>
    cases texts with
    | nil => simp
    | cons second texts =>
      rw [List.intercalate_cons_cons, infix_separated_iff apart absent, ih]
      simp only [List.exists_mem_cons_iff]

end Separated

/-- One of the texts of a failure holds these words. -/
def Failure.Mentions (failure : Failure) (words : String) : Prop :=
  ∃ text ∈ failure.chain, words.toList <:+: text.toList

theorem contains_full_iff {failure : Failure} :
    containsText paymentMethodText failure.full = true ↔ failure.Mentions paymentMethodText := by
  have words : paymentMethodText.toList = 'p' :: "lease add a payment method".toList := rfl
  have joint : ": ".toList = ':' :: [' '] := rfl
  rw [containsText_iff, Failure.full, String.toList_intercalate, words, joint,
    infix_intercalate_iff (by decide) (by decide), Failure.Mentions, words]
  simp only [List.mem_map, exists_exists_and_eq_and]

namespace Order

variable {o : Order} {failure : Failure}

/-- There is one hint only, -/
theorem eq_of_createHint {text : String} (given : o.createHint failure = some text) :
    text = releaseCommandHint := by
  rw [createHint] at given
  split at given
  · exact (Option.some.inj given).symm
  · cases given

/-- and it is given where the release command ran on a machine and the failure asks for a payment
method. -/
theorem createHint_isSome : (o.createHint failure).isSome = true ↔
    o.releaseCommand.usedMachine = true ∧ failure.Mentions paymentMethodText := by
  rw [createHint, ← contains_full_iff, ← Bool.and_eq_true]
  split <;> simp [*]

/-- Only a launch for a group without a machine is blamed like that. -/
theorem blame_eq_create {before : List Event} {call : Call} {group : String} {hint : Option String}
    {cause : Failure} (blamed : o.blame before call failure = some (.create group hint cause)) :
    ∃ input, call = .launch input ∧ o.nextGroup before = some group ∧
      hint = o.createHint failure ∧ cause = failure := by
  cases call with
  | launch input =>
    rw [blame] at blamed
    cases next : o.nextGroup before with
    | some group' =>
      rw [next] at blamed
      cases blamed
      exact ⟨input, rfl, rfl, rfl, rfl⟩
    | none => simp [next] at blamed
  | setStatus release status => cases status <;> cases blamed
  | _ => cases blamed

/-- The message without a hint ends in the group's closing quote. -/
theorem getLast?_message_create_none (group : String) (cause : Failure) :
    (DeployError.create group none cause).message.toList.getLast? = some '\'' := by
  have quoted : (DeployError.create group none cause).message =
      "error creating a new machine in group '" ++ group ++ "'" := String.append_empty
  rw [quoted, String.toList_append, List.getLast?_append]
  rfl

/-- The message ends in a line with the hint exactly if there is one. -/
theorem suffix_message_create_iff {group : String} {hint : Option String} {cause : Failure}
    (words : ∀ text, hint = some text → text = releaseCommandHint) :
    ("\n" ++ releaseCommandHint).toList <:+ (DeployError.create group hint cause).message.toList ↔
      hint.isSome = true := by
  cases hint with
  | none =>
    refine ⟨?_, fun given => by cases given⟩
    rintro ⟨before, ends⟩
    have stop : ("\n" ++ releaseCommandHint).toList.getLast? = some '.' := by decide +kernel
    have quote := getLast?_message_create_none group cause
    rw [← ends, List.getLast?_append, stop] at quote
    exact absurd (Option.some.inj quote) (by decide)
  | some text =>
    refine ⟨fun _ => rfl, fun _ => ?_⟩
    rw [← words text rfl]
    exact ⟨_, String.toList_append.symm⟩

/-- What is said about a group whose first machine could not be launched. -/
structure HintsRightly (o : Order) (events : List Event) (group : String) (hint : Option String)
    (cause : Failure) : Prop where
  /-- It is the launch of a machine for this group that failed so. -/
  launch : ∃ before input later,
    events = before ++ .ended .pass (.launch input) (.failed cause) :: later ∧
      o.nextGroup before = some group
  /-- There is a hint if the release command ran on a machine and a text of the failure asks for a
  payment method, and only then. -/
  given : hint.isSome = true ↔
    o.releaseCommand.usedMachine = true ∧ cause.Mentions paymentMethodText
  words : ∀ text, hint = some text → text = releaseCommandHint
  /-- The message ends in a line with the hint if there is one, and only then. -/
  shown : ("\n" ++ releaseCommandHint).toList <:+
    (DeployError.create group hint cause).message.toList ↔ hint.isSome = true

/-- Every error about a group without a machine gives the hint exactly when it applies. -/
theorem run_hintsRightly {σ : Type} (o : Order) (c : Collaborators σ) (horizon : Horizon)
    (signal : Signal) (schedule : List (Nat × SignalChange)) (memory : σ) (group : String)
    (hint : Option String) (cause : Failure)
    (fails : (o.run c horizon (.start signal schedule memory)).2 =
      .exit (.error (.create group hint cause))) :
    o.HintsRightly (o.run c horizon (.start signal schedule memory)).1.events group hint cause := by
  have told := o.run_tells c horizon signal schedule memory
  obtain ⟨before, call, failure, later, eq, _, blamed, _⟩ :=
    (script_failStop rfl told).blamed _ fails rfl
  obtain ⟨input, rfl, next, rfl, rfl⟩ := blame_eq_create blamed
  have words : ∀ text, o.createHint cause = some text → text = releaseCommandHint :=
    fun _ => eq_of_createHint
  exact ⟨⟨before, input, later, eq, next⟩, createHint_isSome, words,
    suffix_message_create_iff words⟩

end Order

namespace Rehearsal

/-- A rollout whose release command ran on a machine of its own. -/
def frugalOrder : Order := { mixedOrder with releaseCommand := { usedMachine := true } }

/-- A failure that asks for a payment method further down, and not where it seems to first. -/
def limitFailure : Failure :=
  ⟨"launch failed", ["please add a", "payment method: please add a payment method: now", "402"]⟩

def frugalRun : World Progress × RunEnd Unit :=
  frugalOrder.run byRules ⟨60000, false⟩
    (.start {} [] (ofRules [{ callName := "launch", actions := [.fail limitFailure] }]))

theorem frugalRun_hintsRightly :
    frugalRun.2 = .exit (.error (.create "web" (some releaseCommandHint) limitFailure)) ∧
      frugalOrder.HintsRightly frugalRun.1.events "web" (some releaseCommandHint)
        limitFailure := by
  have fails : frugalRun.2 =
      .exit (.error (.create "web" (some releaseCommandHint) limitFailure)) := rfl
  exact ⟨fails, Order.run_hintsRightly frugalOrder byRules ⟨60000, false⟩ {} []
    (ofRules [{ callName := "launch", actions := [.fail limitFailure] }]) "web"
    (some releaseCommandHint) limitFailure fails⟩

example : frugalOrder.createHint ⟨"please add a", ["payment method"]⟩ = none := by decide +kernel

end Rehearsal

end Rollout
