import Mathlib.Data.List.Basic

/-! # Packages and the keys that identify them

The records shared by the planner and the executor, with the comparison
functions each of them uses.  Strings of the source are byte strings that are
only compared and concatenated here.
-/

namespace ReqPack.Core

inductive ActionType where
  | unknown
  | install
  | ensure
  | remove
  | update
  | search
  | list
  | info
  | outdated
  | snapshot
  | pack
  | serve
  | remote
  | sbom
  | audit
  | host
deriving Repr, DecidableEq, Inhabited

structure Package where
  action : ActionType := .unknown
  system : String := ""
  name : String := ""
  version : String := ""
  sourcePath : String := ""
  localTarget : Bool := false
  flags : List String := []
  directRequest : Bool := false
deriving Repr, DecidableEq, Inhabited

/-- `planner_same_package`: the identity of a vertex of the package graph. -/
def plannerSamePackage (left right : Package) : Bool :=
  left.action == right.action && left.system == right.system && left.name == right.name &&
    left.version == right.version && left.localTarget == right.localTarget &&
    left.sourcePath == right.sourcePath

/-- `samePackage` of the scheduler compares the same six fields. -/
def samePackage (left right : Package) : Bool :=
  left.action == right.action && left.system == right.system && left.name == right.name &&
    left.version == right.version && left.sourcePath == right.sourcePath &&
    left.localTarget == right.localTarget

/-- `package_identity_key`: the key under which `createPlans` files a package.
Only three of the six identifying fields take part. -/
def packageIdentityKey (package : Package) : String :=
  package.system ++ "\n" ++ package.name ++ "\n" ++ package.version

def packageRequestSpec (package : Package) : String :=
  if package.version.isEmpty then package.name else package.name ++ "-" ++ package.version

def packageItemId (system : String) (package : Package) : String :=
  if package.version.isEmpty then system ++ ":" ++ package.name
  else system ++ ":" ++ package.name ++ "@" ++ package.version

def actionUsesDesiredStateFilter (action : ActionType) : Bool :=
  action == .install || action == .ensure || action == .remove || action == .update

def actionUsesMissingPackageFilter (action : ActionType) : Bool :=
  action == .install || action == .ensure || action == .remove || action == .update

def actionSupportsRecoveryReconciliation (action : ActionType) : Bool :=
  action == .install || action == .ensure || action == .remove || action == .update

def isInstallLikeAction (action : ActionType) : Bool :=
  action == .install || action == .ensure || action == .update

def isRemoveAction (action : ActionType) : Bool :=
  action == .remove

theorem plannerSamePackage_iff {left right : Package} :
    plannerSamePackage left right = true ↔
      left.action = right.action ∧ left.system = right.system ∧ left.name = right.name ∧
        left.version = right.version ∧ left.localTarget = right.localTarget ∧
        left.sourcePath = right.sourcePath := by
  simp only [plannerSamePackage, Bool.and_eq_true, beq_iff_eq, and_assoc]

theorem samePackage_eq_plannerSamePackage (left right : Package) :
    samePackage left right = plannerSamePackage left right := by
  simp only [samePackage, plannerSamePackage, Bool.and_assoc]
  rw [Bool.and_comm (left.sourcePath == right.sourcePath)]

@[simp] theorem plannerSamePackage_refl (package : Package) :
    plannerSamePackage package package = true := by
  simp [plannerSamePackage]

theorem plannerSamePackage_symm {left right : Package}
    (same : plannerSamePackage left right = true) : plannerSamePackage right left = true := by
  rw [plannerSamePackage_iff] at same ⊢
  obtain ⟨action, system, name, version, target, path⟩ := same
  exact ⟨action.symm, system.symm, name.symm, version.symm, target.symm, path.symm⟩

/-- Packages that are the same for the planner share the scheduler's key; the
converse fails, since the key leaves out the action and the local target. -/
theorem packageIdentityKey_congr {left right : Package}
    (same : plannerSamePackage left right = true) :
    packageIdentityKey left = packageIdentityKey right := by
  obtain ⟨_, system, name, version, _, _⟩ := plannerSamePackage_iff.1 same
  simp only [packageIdentityKey, system, name, version]

end ReqPack.Core
