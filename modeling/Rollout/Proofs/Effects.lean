import Mathlib.Data.Set.Finite.List
import Mathlib.Data.Set.Finite.Basic
import Rollout.Proofs.Convergence
import Rollout.Proofs.PlanAgreement

/-!
# What calls do to a fleet

A launch adds a machine, an update reconfigures one and a destruction takes one away. The calls
of a plan can be carried out one after the other, and whichever way that is done the fleet is
one that the plan leaves behind.
-/

namespace Rollout

/-- What a successful call does to the fleet. A new machine has an identifier that no live
machine has, and neither its state nor that of an updated machine is known. -/
inductive Call.Changes : Call → List Machine → List Machine → Prop
  | launch {input : LaunchInput} {fleet : List Machine} {m : Machine} :
    m.id ∉ fleet.map Machine.id → m.region = input.region → m.config = input.config →
      Changes (.launch input) fleet (fleet ++ [m])
  | update {m live updated : Machine} {input : LaunchInput} {before after : List Machine} :
    live.id = m.id → updated.id = m.id → updated.region = input.region →
      updated.config = input.config →
        Changes (.update m input) (before ++ live :: after) (before ++ updated :: after)
  | destroy {m live : Machine} {force : Bool} {before after : List Machine} :
    live.id = m.id → Changes (.destroy m force) (before ++ live :: after) (before ++ after)

/-- What calls do to the fleet that succeed in order. -/
inductive Carried : List Call → List Machine → List Machine → Prop
  | done {fleet : List Machine} : Carried [] fleet fleet
  | call {call : Call} {calls : List Call} {fleet next last : List Machine} :
    call.Changes fleet next → Carried calls next last → Carried (call :: calls) fleet last

def Distinct (fleet : List Machine) : Prop := (fleet.map Machine.id).Nodup

theorem Distinct.of_perm {fleet other : List Machine} (distinct : Distinct fleet)
    (perm : fleet.Perm other) : Distinct other :=
  (perm.map Machine.id).nodup_iff.mp distinct

theorem Distinct.tail {m : Machine} {fleet : List Machine} (distinct : Distinct (m :: fleet)) :
    Distinct fleet := (List.nodup_cons.mp distinct).2

theorem Distinct.congr {fleet other : List Machine} (distinct : Distinct fleet)
    (same : other.map Machine.id = fleet.map Machine.id) : Distinct other := by
  rw [Distinct, same]
  exact distinct

variable {fleet next last others : List Machine} {m : Machine}

/-- The machine of an identifier is the one that is in the fleet. -/
theorem Distinct.eq_of_split {live : Machine} {before after : List Machine}
    (distinct : Distinct (before ++ live :: after)) (mem : m ∈ before ++ live :: after)
    (same : live.id = m.id) : live = m :=
  List.inj_on_of_nodup_map distinct (by simp) mem same

theorem carried_append {first later : List Call} :
    Carried (first ++ later) fleet last ↔
      ∃ next, Carried first fleet next ∧ Carried later next last := by
  constructor
  · intro carried
    induction first generalizing fleet with
    | nil => exact ⟨fleet, .done, carried⟩
    | cons call first ih =>
      obtain _ | ⟨change, rest⟩ := carried
      obtain ⟨next, before, after⟩ := ih rest
      exact ⟨next, .call change before, after⟩
  · rintro ⟨next, before, after⟩
    induction before with
    | done => exact after
    | call change _ ih => exact .call change (ih after)

namespace Call.Changes

theorem perm_of_destroy {force : Bool} (change : Changes (.destroy m force) fleet next)
    (distinct : Distinct fleet) (mem : m ∈ fleet) : fleet.Perm (m :: next) := by
  cases change with
  | destroy same =>
    obtain rfl := distinct.eq_of_split mem same
    exact List.perm_middle

theorem exists_of_launch {input : LaunchInput} (change : Changes (.launch input) fleet next)
    (distinct : Distinct fleet) : Distinct next ∧
      ∃ m, next.Perm (m :: fleet) ∧ m.region = input.region ∧ m.config = input.config := by
  cases change with
  | launch fresh region config =>
    rename_i m
    have perm : (fleet ++ [m]).Perm (m :: fleet) := List.perm_append_singleton m fleet
    have grown : Distinct (m :: fleet) := List.nodup_cons.mpr ⟨fresh, distinct⟩
    exact ⟨grown.of_perm perm.symm, m, perm, region, config⟩

theorem exists_of_update {input : LaunchInput} (change : Changes (.update m input) fleet next)
    (distinct : Distinct fleet) (perm : fleet.Perm (m :: others)) :
    ∃ updated, next.Perm (updated :: others) ∧ updated.id = m.id ∧
      updated.region = input.region ∧ updated.config = input.config := by
  cases change with
  | update same id region config =>
    rename_i live updated before after
    have mem : m ∈ before ++ live :: after := perm.mem_iff.mpr List.mem_cons_self
    obtain rfl := distinct.eq_of_split mem same
    have rest : (before ++ after).Perm others :=
      (List.perm_middle.symm.trans perm).cons_inv
    exact ⟨updated, List.perm_middle.trans (rest.cons updated), id, region, config⟩

theorem exists_destroy (force : Bool) (mem : m ∈ fleet) :
    ∃ next, Changes (.destroy m force) fleet next := by
  obtain ⟨before, after, rfl⟩ := List.append_of_mem mem
  exact ⟨before ++ after, .destroy rfl⟩

theorem exists_update (input : LaunchInput) (mem : m ∈ fleet) :
    ∃ next, Changes (.update m input) fleet next := by
  obtain ⟨before, after, rfl⟩ := List.append_of_mem mem
  let updated : Machine := { m with region := input.region, config := input.config }
  exact ⟨before ++ updated :: after, .update rfl rfl rfl rfl⟩

/-- Names of any length are identifiers, so there is always one left. -/
theorem infinite_machineId : Infinite MachineId := by
  let named (n : Nat) : MachineId :=
    ⟨String.ofList (List.replicate (n + 1) 'm'), idGrammar_of_all (by simp) (by simp [isIdChar])⟩
  refine Infinite.of_injective named fun a b same => ?_
  have lengths : (named a).text.toList.length = (named b).text.toList.length := by rw [same]
  simpa [named] using lengths

theorem exists_launch (input : LaunchInput) (fleet : List Machine) :
    ∃ next, Changes (.launch input) fleet next := by
  have := infinite_machineId
  obtain ⟨id, fresh⟩ := (List.finite_toSet (fleet.map Machine.id)).exists_notMem
  exact ⟨_, .launch (m := ⟨id, input.region, .created, input.config⟩) fresh rfl rfl⟩

end Call.Changes

/-- An update that was planned for a machine, in its region. -/
structure PlannedUpdate.IsFor (update : PlannedUpdate) (m : Machine) : Prop where
  machine : update.plan.machineId = m.id
  region : update.plan.input.region = m.region

/-- The machines of a list are destroyed and the others stay. -/
theorem perm_of_destroys {machines : List Machine}
    (carried : Carried (machines.map (.destroy · true)) fleet last)
    (distinct : Distinct fleet) (perm : fleet.Perm (machines ++ others)) :
    Distinct last ∧ last.Perm others := by
  induction machines generalizing fleet with
  | nil =>
    cases carried
    exact ⟨distinct, perm⟩
  | cons m machines ih =>
    obtain _ | ⟨change, rest⟩ := carried
    rename_i next
    have mem : m ∈ fleet := perm.mem_iff.mpr (by simp)
    have gone : fleet.Perm (m :: next) := change.perm_of_destroy distinct mem
    have left : Distinct next := (distinct.of_perm gone).tail
    exact ih rest left (gone.symm.trans perm).cons_inv

/-- What is launched is added to the fleet. -/
theorem perm_of_launches {launches : List PlannedLaunch}
    (carried : Carried (launches.map (.launch ·.input)) fleet last) (distinct : Distinct fleet) :
    Distinct last ∧ ∃ created, last.Perm (created ++ fleet) ∧
      List.Forall₂ PlannedLaunch.Leaves launches created := by
  induction launches generalizing fleet with
  | nil =>
    cases carried
    exact ⟨distinct, [], .refl _, .nil⟩
  | cons launch launches ih =>
    obtain _ | ⟨change, rest⟩ := carried
    obtain ⟨grown, m, perm, region, config⟩ := change.exists_of_launch distinct
    obtain ⟨apart, created, later, leaves⟩ := ih rest grown
    refine ⟨apart, m :: created, ?_, .cons ⟨region, config⟩ leaves⟩
    exact later.trans ((perm.append_left created).trans List.perm_middle)

/-- What is planned for a machine puts another one in its place. -/
theorem perm_of_update {update : PlannedUpdate} (planned : update.IsFor m)
    (carried : Carried (update.plan.calls m) fleet last) (distinct : Distinct fleet)
    (perm : fleet.Perm (m :: others)) : Distinct last ∧
      ∃ m', last.Perm (m' :: others) ∧ update.Makes m m' := by
  have machine : update.plan.machineId = m.id := planned.machine
  have region : update.plan.input.region = m.region := planned.region
  cases act : update.plan with
  | update id input =>
    rw [act] at carried region
    obtain _ | ⟨change, rest⟩ := carried
    cases rest
    obtain ⟨m', placed, same, region', config⟩ := change.exists_of_update distinct perm
    have apart : Distinct (m' :: others) :=
      (distinct.of_perm perm).congr (by simp [same])
    refine ⟨apart.of_perm placed.symm, m', placed, machine, region'.trans region, ?_, ?_⟩
    · rw [act]
      exact config
    · intro _
      exact same
  | replace id input =>
    rw [act] at carried region
    obtain _ | ⟨destroyed, rest⟩ := carried
    obtain _ | ⟨launched, rest⟩ := rest
    cases rest
    rename_i left
    have gone : fleet.Perm (m :: left) :=
      destroyed.perm_of_destroy distinct (perm.mem_iff.mpr List.mem_cons_self)
    have apart : Distinct left := (distinct.of_perm gone).tail
    obtain ⟨grown, m', placed, region', config⟩ := launched.exists_of_launch apart
    have rest : left.Perm others := (gone.symm.trans perm).cons_inv
    refine ⟨grown, m', placed.trans (rest.cons m'), machine, region'.trans region, ?_, ?_⟩
    · rw [act]
      exact config
    · intro kept
      rw [act] at kept
      cases kept

theorem exists_carried_update (update : PlannedUpdate) (mem : m ∈ fleet) :
    ∃ last, Carried (update.plan.calls m) fleet last := by
  cases update.plan with
  | update id input =>
    obtain ⟨next, change⟩ := Call.Changes.exists_update input mem
    exact ⟨next, .call change .done⟩
  | replace id input =>
    obtain ⟨left, destroyed⟩ := Call.Changes.exists_destroy true mem
    obtain ⟨next, launched⟩ := Call.Changes.exists_launch input left
    exact ⟨next, .call destroyed (.call launched .done)⟩

def updateCallsOf (machines : List Machine) (updates : List PlannedUpdate) : List Call :=
  (List.zipWith (fun m update => (⟨m, update.plan⟩ : Entry)) machines updates).flatMap
    fun entry => entry.plan.calls entry.machine

theorem updateCallsOf_cons (machines : List Machine) (update : PlannedUpdate)
    (updates : List PlannedUpdate) : updateCallsOf (m :: machines) (update :: updates) =
      update.plan.calls m ++ updateCallsOf machines updates := rfl

/-- Every machine of a list gives way to what its update makes of it. -/
theorem perm_of_updates {machines : List Machine} {updates : List PlannedUpdate}
    (planned : List.Forall₂ (fun m update => update.IsFor m) machines updates)
    (carried : Carried (updateCallsOf machines updates) fleet last) (distinct : Distinct fleet)
    (perm : fleet.Perm (machines ++ others)) :
    ∃ kept, last.Perm (kept ++ others) ∧
      List.Forall₂ (fun m m' => ∃ update ∈ updates, update.Makes m m') machines kept := by
  induction planned generalizing fleet others with
  | nil =>
    cases carried
    exact ⟨[], perm, .nil⟩
  | @cons m update machines updates first _ ih =>
    rw [updateCallsOf_cons, carried_append] at carried
    obtain ⟨next, before, later⟩ := carried
    obtain ⟨apart, m', placed, makes⟩ := perm_of_update first before distinct perm
    obtain ⟨kept, rest, made⟩ := ih later apart (placed.trans List.perm_middle.symm)
    refine ⟨m' :: kept, rest.trans List.perm_middle, .cons ?_ (made.imp ?_)⟩
    · exact ⟨update, List.mem_cons_self, makes⟩
    · rintro m m' ⟨update, mem, makes⟩
      exact ⟨update, List.mem_cons_of_mem _ mem, makes⟩

theorem exists_carried_updates {machines : List Machine} {updates : List PlannedUpdate}
    (planned : List.Forall₂ (fun m update => update.IsFor m) machines updates)
    (distinct : Distinct fleet) (perm : fleet.Perm (machines ++ others)) :
    ∃ last, Carried (updateCallsOf machines updates) fleet last := by
  induction planned generalizing fleet others with
  | nil => exact ⟨fleet, .done⟩
  | @cons m update machines updates first _ ih =>
    have mem : m ∈ fleet := perm.mem_iff.mpr (by simp)
    obtain ⟨next, before⟩ := exists_carried_update update mem
    obtain ⟨apart, m', placed, _⟩ := perm_of_update first before distinct perm
    obtain ⟨last, later⟩ := ih apart (placed.trans List.perm_middle.symm)
    exact ⟨last, carried_append.mpr ⟨next, before, later⟩⟩

theorem exists_carried_destroys {machines : List Machine}
    (perm : fleet.Perm (machines ++ others)) (distinct : Distinct fleet) :
    ∃ last, Carried (machines.map (.destroy · true)) fleet last := by
  induction machines generalizing fleet with
  | nil => exact ⟨fleet, .done⟩
  | cons m machines ih =>
    have mem : m ∈ fleet := perm.mem_iff.mpr (by simp)
    obtain ⟨next, change⟩ := Call.Changes.exists_destroy true mem
    have gone : fleet.Perm (m :: next) := change.perm_of_destroy distinct mem
    have left : Distinct next := (distinct.of_perm gone).tail
    obtain ⟨last, rest⟩ := ih (gone.symm.trans perm).cons_inv left
    exact ⟨last, .call change rest⟩

theorem exists_carried_launches (launches : List PlannedLaunch) (fleet : List Machine) :
    ∃ last, Carried (launches.map (.launch ·.input)) fleet last := by
  induction launches generalizing fleet with
  | nil => exact ⟨fleet, .done⟩
  | cons launch launches ih =>
    obtain ⟨next, change⟩ := Call.Changes.exists_launch launch.input fleet
    obtain ⟨last, rest⟩ := ih next
    exact ⟨last, .call change rest⟩

namespace Plan

variable {d : Deployment} {resolver : Resolver} {plan : Plan}

theorem calls_eq (plan : Plan) (machines : List Machine) : plan.calls machines =
    plan.diff.machinesToRemove.map (.destroy · true) ++ (plan.launches.map (.launch ·.input) ++
      updateCallsOf (plan.diff.remaining machines) plan.updates) := by
  rw [calls, openingCalls, List.append_assoc]
  rfl

/-- The machines that go and those that stay are the whole fleet. -/
theorem perm_remainingOf (d : Deployment) (resolver : Resolver) (distinct : Distinct d.machines) :
    d.machines.Perm
      ((diffOf d resolver).machinesToRemove ++ remainingOf d resolver) := by
  rw [remainingOf]
  rw [diffOf, GroupDiff.remaining_compute _ distinct, GroupDiff.machinesToRemove_compute]
  have parts := List.filter_append_perm (fun m : Machine => m.processGroup ∈ resolver.processNames)
    d.machines
  simp only [← decide_not] at parts
  exact parts.symm.trans List.perm_append_comm

/-- The updates of a plan are for the machines that stay. -/
theorem isFor_forall₂ (planned : deploy d resolver = .ok plan) :
    List.Forall₂ (fun m update => update.IsFor m) (remainingOf d resolver) plan.updates := by
  refine (planUpdate_forall₂ planned).imp fun m update ok => ?_
  obtain ⟨_, built⟩ := planUpdate_eq_ok ok
  exact ⟨LaunchBuilder.machineId_of_forUpdate built, LaunchBuilder.region_of_forUpdate built⟩

section

variable (planned : deploy d resolver = .ok plan) (distinct : Distinct d.machines)

include planned distinct

/-- Whichever way the calls of a plan are carried out, they leave a fleet that the plan leaves. -/
theorem leaves_of_carried (carried : Carried (plan.calls d.machines) d.machines last) :
    plan.Leaves (d.survivors resolver) last := by
  rw [calls_eq, diff_of_deploy planned, carried_append] at carried
  obtain ⟨left, destroyed, carried⟩ := carried
  obtain ⟨staffed, launched, carried⟩ := carried_append.mp carried
  have whole := perm_remainingOf d resolver distinct
  obtain ⟨apart, stay⟩ := perm_of_destroys destroyed distinct whole
  obtain ⟨grown, created, added, creates⟩ := perm_of_launches launched apart
  obtain ⟨kept, placed, keeps⟩ := perm_of_updates (isFor_forall₂ planned) carried grown
    (added.trans ((stay.append_left created).trans List.perm_append_comm))
  rw [← remainingOf_eq_survivors d resolver distinct]
  exact ⟨kept, created, placed, keeps, creates⟩

/-- The calls of a plan can be carried out. -/
theorem exists_carried : ∃ last, Carried (plan.calls d.machines) d.machines last := by
  have whole := perm_remainingOf d resolver distinct
  obtain ⟨left, destroyed⟩ := exists_carried_destroys whole distinct
  obtain ⟨apart, stay⟩ := perm_of_destroys destroyed distinct whole
  obtain ⟨staffed, launched⟩ := exists_carried_launches plan.launches left
  obtain ⟨grown, created, added, _⟩ := perm_of_launches launched apart
  obtain ⟨last, changed⟩ := exists_carried_updates (isFor_forall₂ planned) grown
    (added.trans ((stay.append_left created).trans List.perm_append_comm))
  refine ⟨last, ?_⟩
  rw [calls_eq, diff_of_deploy planned, carried_append]
  exact ⟨left, destroyed, carried_append.mpr ⟨staffed, launched, changed⟩⟩

end

end Plan

end Rollout
