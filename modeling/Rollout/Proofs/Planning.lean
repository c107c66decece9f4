import Mathlib.Data.List.Forall2
import Rollout.Plan

/-!
# The parts of a plan

A plan succeeds when every one of its launches and updates can be built, and fails with the
error of the first one that cannot, launches before updates.
-/

namespace Rollout

section Steps

variable {ε α β : Type}

theorem bind_eq_ok_iff {first : Except ε α} {next : α → Except ε β} {b : β} :
    (first >>= next) = .ok b ↔ ∃ a, first = .ok a ∧ next a = .ok b := by
  cases first with
  | error e => simp [bind, Except.bind]
  | ok a => simp [bind, Except.bind]

theorem bind_eq_error_iff {first : Except ε α} {next : α → Except ε β} {e : ε} :
    (first >>= next) = .error e ↔
      first = .error e ∨ ∃ a, first = .ok a ∧ next a = .error e := by
  cases first with
  | error e => simp [bind, Except.bind]
  | ok a => simp [bind, Except.bind]

variable {f : α → Except ε β}

theorem mapM_cons_eq_ok {x : α} {xs : List α} {ys : List β} :
    (x :: xs).mapM f = .ok ys ↔ ∃ y rest, f x = .ok y ∧ xs.mapM f = .ok rest ∧ ys = y :: rest := by
  simp [List.mapM_cons, bind_eq_ok_iff, pure, Except.pure, eq_comm (a := ys)]

theorem mapM_cons_eq_error {x : α} {xs : List α} {e : ε} :
    (x :: xs).mapM f = .error e ↔ f x = .error e ∨ ∃ y, f x = .ok y ∧ xs.mapM f = .error e := by
  simp [List.mapM_cons, bind_eq_error_iff, pure, Except.pure]

theorem mapM_eq_ok_iff {xs : List α} {ys : List β} :
    xs.mapM f = .ok ys ↔ List.Forall₂ (fun x y => f x = .ok y) xs ys := by
  induction xs generalizing ys with
  | nil =>
    rw [List.mapM_nil, List.forall₂_nil_left_iff]
    constructor
    · rintro ⟨⟩
      rfl
    · rintro rfl
      rfl
  | cons x xs ih =>
    rw [mapM_cons_eq_ok, List.forall₂_cons_left_iff]
    simp only [ih]

/-- The first step that fails decides the error. -/
theorem mapM_eq_error_iff {xs : List α} {e : ε} : xs.mapM f = .error e ↔
    ∃ before x after, xs = before ++ x :: after ∧ (∀ y ∈ before, ∃ b, f y = .ok b) ∧
      f x = .error e := by
  induction xs with
  | nil =>
    refine ⟨fun failed => (by cases failed), ?_⟩
    rintro ⟨before, x, after, eq, _⟩
    simp at eq
  | cons x xs ih =>
    rw [mapM_cons_eq_error, ih]
    constructor
    · rintro (first | ⟨b, first, before, y, after, rfl, fine, failed⟩)
      · exact ⟨[], x, xs, rfl, by simp, first⟩
      · exact ⟨x :: before, y, after, rfl, List.forall_mem_cons.mpr ⟨⟨b, first⟩, fine⟩, failed⟩
    · rintro ⟨before, y, after, eq, fine, failed⟩
      cases before with
      | nil =>
        obtain ⟨rfl, rfl⟩ := List.cons.inj eq
        exact .inl failed
      | cons z before =>
        obtain ⟨rfl, rfl⟩ := List.cons.inj eq
        obtain ⟨⟨b, first⟩, fine⟩ := List.forall_mem_cons.mp fine
        exact .inr ⟨b, first, before, y, after, rfl, fine, failed⟩

theorem exists_of_mem_left {R : α → β → Prop} {xs : List α} {ys : List β}
    (related : List.Forall₂ R xs ys) {x : α} (mem : x ∈ xs) : ∃ y ∈ ys, R x y := by
  induction related with
  | nil => cases mem
  | cons first _ ih =>
    rcases List.mem_cons.mp mem with rfl | mem
    · exact ⟨_, List.mem_cons_self, first⟩
    · obtain ⟨y, found, holds⟩ := ih mem
      exact ⟨y, List.mem_cons_of_mem _ found, holds⟩

theorem exists_of_mem_right {R : α → β → Prop} {xs : List α} {ys : List β}
    (related : List.Forall₂ R xs ys) {y : β} (mem : y ∈ ys) : ∃ x ∈ xs, R x y := by
  obtain ⟨x, found, holds⟩ := exists_of_mem_left related.flip mem
  exact ⟨x, found, holds⟩

/-- Lists whose items correspond in something are equal in it. -/
theorem map_eq_map_of_forall₂ {γ : Type} {left : α → γ} {right : β → γ} {xs : List α}
    {ys : List β} (same : List.Forall₂ (fun x y => left x = right y) xs ys) :
    xs.map left = ys.map right := by
  rw [← List.forall₂_eq_eq_eq, List.forall₂_map_left_iff, List.forall₂_map_right_iff]
  exact same

theorem forall₂_filterMap {γ δ : Type} {R : γ → δ → Prop} {need : α → Option γ}
    {result : β → Option δ} {xs : List α} {ys : List β}
    (related : List.Forall₂ (fun x y => Option.Rel R (need x) (result y)) xs ys) :
    List.Forall₂ R (xs.filterMap need) (ys.filterMap result) := by
  induction related with
  | nil => exact .nil
  | @cons x y _ _ first _ ih =>
    rw [List.filterMap_cons, List.filterMap_cons]
    generalize need x = n, result y = r at first ⊢
    cases first with
    | none => exact ih
    | some holds => exact .cons holds ih

/-- Where a step fails exactly for an unmet need, the first unmet need is the error. -/
theorem find?_of_mapM_eq_error {γ : Type} {need : α → Option γ} {unmet : γ → Bool}
    {error : γ → ε} {xs : List α} {e : ε}
    (fails : ∀ x ∈ xs, ∀ e, f x = .error e → ∃ n, need x = some n ∧ unmet n = true ∧ e = error n)
    (meets : ∀ x ∈ xs, ∀ y, f x = .ok y → ∀ n ∈ need x, unmet n = false)
    (failed : xs.mapM f = .error e) :
    ∃ n, (xs.filterMap need).find? unmet = some n ∧ e = error n := by
  induction xs with
  | nil => cases failed
  | cons x xs ih =>
    rw [List.filterMap_cons]
    rcases mapM_cons_eq_error.mp failed with first | ⟨y, first, later⟩
    · obtain ⟨n, needed, missing, rfl⟩ := fails x List.mem_cons_self e first
      rw [needed]
      exact ⟨n, List.find?_cons_of_pos missing, rfl⟩
    · obtain ⟨n, found, rfl⟩ := ih
        (fun x mem => fails x (List.mem_cons_of_mem _ mem))
        (fun x mem => meets x (List.mem_cons_of_mem _ mem)) later
      refine ⟨n, ?_, rfl⟩
      cases needed : need x with
      | none => exact found
      | some met =>
        have fine : ¬ unmet met = true := by
          rw [meets x List.mem_cons_self y first met needed]
          exact Bool.false_ne_true
        rw [← found]
        exact List.find?_cons_of_neg fine

end Steps

namespace LaunchBuilder

variable {b : LaunchBuilder}

theorem forLaunch_eq (group : String) (guest : Option Guest) : b.forLaunch group guest =
    if group = "" then .error .emptyProcessGroup
    else b.derive group none >>= fun config =>
      config.mount.mapM (b.bindVolume config.processGroup) >>= fun mount =>
        .ok (b.ctx.input b.resolver.primaryRegion
          { config with guest := if guest.isSome then guest else config.guest, mount }) := rfl

/-- The planned update of a machine whose desired configuration and mount are known. -/
def planned (b : LaunchBuilder) (m : Machine) (config : Config) (outcome : MountOutcome) :
    BuiltPlan :=
  let input := b.ctx.input m.region { config with mount := outcome.mount }
  ⟨if outcome.replace then .replace m.id input else .update m.id input, outcome.warning.toList⟩

theorem forUpdate_eq (m : Machine) : b.forUpdate m =
    (b.derive m.processGroup (some m.config) >>= fun config =>
      b.reconcileMount m.id config.processGroup m.config.mount config.mount >>= fun outcome =>
        .ok (b.planned m config outcome)) := rfl

theorem forUpdate_eq_ok_iff {m : Machine} {built : BuiltPlan} :
    b.forUpdate m = .ok built ↔ ∃ config outcome,
      b.derive m.processGroup (some m.config) = .ok config ∧
      b.reconcileMount m.id config.processGroup m.config.mount config.mount = .ok outcome ∧
      built = b.planned m config outcome := by
  simp [forUpdate_eq, bind_eq_ok_iff, eq_comm (a := built)]

section

variable {m : Machine} {built : BuiltPlan} (eq : b.forUpdate m = .ok built)

include eq

/-- What is planned for a machine is planned for that machine, in its region. -/
theorem machineId_of_forUpdate : built.plan.machineId = m.id := by
  obtain ⟨config, outcome, _, _, rfl⟩ := forUpdate_eq_ok_iff.mp eq
  rw [planned]
  cases outcome.replace with
  | false => rfl
  | true => rfl

theorem region_of_forUpdate : built.plan.input.region = m.region := by
  obtain ⟨config, outcome, _, _, rfl⟩ := forUpdate_eq_ok_iff.mp eq
  rw [planned]
  cases outcome.replace with
  | false => rfl
  | true => rfl

end

end LaunchBuilder

namespace Plan

variable {d : Deployment} {resolver : Resolver} {plan : Plan}

def diffOf (d : Deployment) (resolver : Resolver) : GroupDiff :=
  GroupDiff.compute d.machines resolver.processNames

def remainingOf (d : Deployment) (resolver : Resolver) : List Machine :=
  (diffOf d resolver).remaining d.machines

theorem deploy_eq : deploy d resolver =
    ((diffOf d resolver).groupsNeedingMachines.mapM (planLaunch d resolver) >>= fun launches =>
      (remainingOf d resolver).mapM (planUpdate d resolver) >>= fun updates =>
        .ok ⟨diffOf d resolver, launches, updates⟩) := rfl

theorem deploy_eq_ok_iff : deploy d resolver = .ok plan ↔ ∃ launches updates,
    (diffOf d resolver).groupsNeedingMachines.mapM (planLaunch d resolver) = .ok launches ∧
    (remainingOf d resolver).mapM (planUpdate d resolver) = .ok updates ∧
    plan = ⟨diffOf d resolver, launches, updates⟩ := by
  simp [deploy_eq, bind_eq_ok_iff, eq_comm (a := plan)]

theorem deploy_eq_error_iff {e : DeployError} : deploy d resolver = .error e ↔
    (diffOf d resolver).groupsNeedingMachines.mapM (planLaunch d resolver) = .error e ∨
    ∃ launches,
      (diffOf d resolver).groupsNeedingMachines.mapM (planLaunch d resolver) = .ok launches ∧
      (remainingOf d resolver).mapM (planUpdate d resolver) = .error e := by
  simp [deploy_eq, bind_eq_error_iff]

theorem planLaunch_eq_ok {group : String} {launch : PlannedLaunch}
    (planned : planLaunch d resolver group = .ok launch) :
    launch.group = group ∧
      (d.builder resolver).forLaunch group d.guest = .ok launch.input := by
  rw [planLaunch] at planned
  split at planned
  · rename_i input eq
    cases planned
    exact ⟨rfl, eq⟩
  · cases planned

theorem planLaunch_eq_error {group : String} {e : DeployError}
    (failed : planLaunch d resolver group = .error e) : ∃ cause,
      (d.builder resolver).forLaunch group d.guest = .error cause ∧
        e = .buildLaunch group cause := by
  rw [planLaunch] at failed
  split at failed
  · cases failed
  · rename_i cause eq
    cases failed
    exact ⟨cause, eq, rfl⟩

theorem planUpdate_eq_ok {m : Machine} {update : PlannedUpdate}
    (planned : planUpdate d resolver m = .ok update) :
    update.group = m.processGroup ∧
      (d.builder resolver).forUpdate m = .ok ⟨update.plan, update.warnings⟩ := by
  rw [planUpdate] at planned
  split at planned
  · rename_i built eq
    cases planned
    exact ⟨rfl, eq⟩
  · cases planned

theorem planUpdate_eq_error {m : Machine} {e : DeployError}
    (failed : planUpdate d resolver m = .error e) : ∃ cause,
      (d.builder resolver).forUpdate m = .error cause ∧ e = .buildPlan m.id cause := by
  rw [planUpdate] at failed
  split at failed
  · cases failed
  · rename_i cause eq
    cases failed
    exact ⟨cause, eq, rfl⟩

/-- What is planned for a machine is planned for that machine. -/
theorem machineId_of_planUpdate {m : Machine} {update : PlannedUpdate}
    (planned : planUpdate d resolver m = .ok update) : update.plan.machineId = m.id :=
  LaunchBuilder.machineId_of_forUpdate (planUpdate_eq_ok planned).2

section

variable (planned : deploy d resolver = .ok plan)

include planned

theorem diff_of_deploy : plan.diff = diffOf d resolver := by
  obtain ⟨launches, updates, _, _, rfl⟩ := deploy_eq_ok_iff.mp planned
  rfl

/-- The launches of a plan are those of the groups that need a machine, in order. -/
theorem planLaunch_forall₂ : List.Forall₂
    (fun group launch => planLaunch d resolver group = .ok launch)
    (diffOf d resolver).groupsNeedingMachines plan.launches := by
  obtain ⟨launches, updates, launched, _, rfl⟩ := deploy_eq_ok_iff.mp planned
  exact mapM_eq_ok_iff.mp launched

/-- The updates of a plan are those of the machines that stay, in order. -/
theorem planUpdate_forall₂ : List.Forall₂
    (fun m update => planUpdate d resolver m = .ok update)
    (remainingOf d resolver) plan.updates := by
  obtain ⟨launches, updates, _, updated, rfl⟩ := deploy_eq_ok_iff.mp planned
  exact mapM_eq_ok_iff.mp updated

theorem machineIds_of_deploy : (plan.diff.remaining d.machines).map Machine.id =
    plan.updates.map (·.plan.machineId) := by
  rw [diff_of_deploy planned]
  refine map_eq_map_of_forall₂ ((planUpdate_forall₂ planned).imp fun _ _ ok => ?_)
  exact (machineId_of_planUpdate ok).symm

end

end Plan

end Rollout
