import Mathlib.Data.List.Pairwise
import ReqPack.Core.Package
import ReqPack.Data.Matching

/-! # What a Lua plugin says is missing

`LuaBridge::getMissingPackages`: the answer of the plugin is read as a list of packages,
and every package takes over from a request what it leaves open.
-/

namespace ReqPack.PluginHost.LuaBridgeValueMapper

open ReqPack.Core

/-- A package as a plugin describes it.  Lua may store any number as its action; `none` is
a number that is no action. -/
structure AnsweredPackage where
  action : Option ActionType := some .unknown
  system : String := ""
  name : String := ""
  version : String := ""
  sourcePath : String := ""
  localTarget : Bool := false
  flags : List String := []
  directRequest : Bool := false
deriving Repr, DecidableEq

/-- The field `action` of a table. -/
inductive LuaAction where
  | absent
  | number (value : Int)
  | text (value : String)
  | other
deriving Repr, DecidableEq

/-- An entry of the answered list, in the order Lua visits them. -/
inductive LuaEntry where
  /-- a `Package` object -/
  | userdata (package : AnsweredPackage)
  | table (action : LuaAction) (system name version sourcePath : Option String)
      (localTarget : Option Bool) (flags : Option (List String))
  | other
deriving Repr, DecidableEq

/-- How the call of the plugin function ended. -/
inductive MissingAnswer where
  /-- no plugin table, no such function, an error, no result, or one that is no table -/
  | unusable
  | list (entries : List LuaEntry)
deriving Repr, DecidableEq

section Reading

variable (actionOfNumber : Int → Option ActionType)

def toLowerCopy (value : String) : String := String.ofList (value.toList.map Char.toLower)

/-- `action_from_lua_object`. -/
def actionFromLuaObject : LuaAction → Option ActionType
  | .absent => some .unknown
  | .number value => actionOfNumber value
  | .text value =>
      let action := toLowerCopy value
      if action == "install" then some .install
      else if action == "remove" then some .remove
      else if action == "update" then some .update
      else if action == "search" then some .search
      else if action == "list" then some .list
      else if action == "info" then some .info
      else some .unknown
  | .other => some .unknown

def packageFromEntry : LuaEntry → Option AnsweredPackage
  | .userdata package => some package
  | .table action system name version sourcePath localTarget flags =>
      some { action := actionFromLuaObject actionOfNumber action
             system := system.getD ""
             name := name.getD ""
             version := version.getD ""
             sourcePath := sourcePath.getD ""
             localTarget := localTarget.getD false
             flags := flags.getD [] }
  | .other => none

def packagesFromObject (entries : List LuaEntry) : List AnsweredPackage :=
  entries.filterMap (packageFromEntry actionOfNumber)

end Reading

section Inheriting

def packagesMatchExactWithoutAction (left : AnsweredPackage) (right : Package) : Bool :=
  left.system == right.system && left.name == right.name && left.version == right.version &&
    left.sourcePath == right.sourcePath && left.localTarget == right.localTarget

/-- An open field fits everything, but a name or a path has to be given. -/
def packagesMatchLooseWithoutAction (candidate : AnsweredPackage) (original : Package) : Bool :=
  if !candidate.system.isEmpty && candidate.system != original.system then false
  else if !candidate.name.isEmpty && candidate.name != original.name then false
  else if !candidate.version.isEmpty && candidate.version != original.version then false
  else if !candidate.sourcePath.isEmpty && candidate.sourcePath != original.sourcePath then false
  else if candidate.localTarget && !original.localTarget then false
  else !candidate.name.isEmpty || !candidate.sourcePath.isEmpty

def applyDefaults (target : AnsweredPackage) (source : Package) : AnsweredPackage where
  action := if target.action = some .unknown then some source.action else target.action
  system := if target.system.isEmpty then source.system else target.system
  name := if target.name.isEmpty then source.name else target.name
  version := if target.version.isEmpty then source.version else target.version
  sourcePath := if target.sourcePath.isEmpty then source.sourcePath else target.sourcePath
  flags := if target.flags.isEmpty then source.flags else target.flags
  localTarget := target.localTarget || source.localTarget
  directRequest := target.directRequest || source.directRequest

/-- `find_match_index`, first for all fields and then for the given ones. -/
def findMatch (unmatched : List Package) (package : AnsweredPackage) : Option Package :=
  match unmatched.find? (packagesMatchExactWithoutAction package) with
  | some source => some source
  | none => unmatched.find? (packagesMatchLooseWithoutAction package)

/-- `inheritMissingPackageFields`; a source that was matched is not matched again. -/
def inheritMissingPackageFields : List Package → List AnsweredPackage → List AnsweredPackage
  | _, [] => []
  | unmatched, package :: packages =>
      match findMatch unmatched package with
      | none => package :: inheritMissingPackageFields unmatched packages
      | some source =>
          applyDefaults package source :: inheritMissingPackageFields (unmatched.erase source) packages

end Inheriting

def AnsweredPackage.ofPackage (package : Package) : AnsweredPackage :=
  { package with action := some package.action }

/-- `LuaBridge::getMissingPackages`; an answer that is no list counts as everything. -/
def getMissingPackages (actionOfNumber : Int → Option ActionType) (packages : List Package) :
    MissingAnswer → List AnsweredPackage
  | .unusable => packages.map AnsweredPackage.ofPackage
  | .list entries => inheritMissingPackageFields packages (packagesFromObject actionOfNumber entries)

/-- The package itself, unless its action is none. -/
def AnsweredPackage.toPackage (package : AnsweredPackage) : Option Package :=
  package.action.map fun action =>
    { action := action, system := package.system, name := package.name, version := package.version
      sourcePath := package.sourcePath, localTarget := package.localTarget, flags := package.flags
      directRequest := package.directRequest }

section Matches

open ReqPack.Data

/-- The entry is the package in all six fields. -/
def AnsweredPackage.Is (entry : AnsweredPackage) (package : Package) : Prop :=
  entry.action = some package.action ∧ entry.system = package.system ∧ entry.name = package.name ∧
    entry.version = package.version ∧ entry.sourcePath = package.sourcePath ∧
    entry.localTarget = package.localTarget

/-- What the entry gives agrees with the package, and it gives a name or a path. -/
def AnsweredPackage.Names (entry : AnsweredPackage) (package : Package) : Prop :=
  (entry.system ≠ "" → entry.system = package.system) ∧ (entry.name ≠ "" → entry.name = package.name) ∧
    (entry.version ≠ "" → entry.version = package.version) ∧
    (entry.sourcePath ≠ "" → entry.sourcePath = package.sourcePath) ∧
    (entry.name ≠ "" ∨ entry.sourcePath ≠ "")

theorem exact_iff {entry : AnsweredPackage} {package : Package} :
    packagesMatchExactWithoutAction entry package = true ↔
      entry.system = package.system ∧ entry.name = package.name ∧ entry.version = package.version ∧
        entry.sourcePath = package.sourcePath ∧ entry.localTarget = package.localTarget := by
  simp only [packagesMatchExactWithoutAction, Bool.and_eq_true, beq_iff_eq, and_assoc]

theorem guarded_iff {refused : Prop} [Decidable refused] {rest : Bool} :
    (if refused then false else rest) = true ↔ ¬ refused ∧ rest = true := by
  by_cases holds : refused <;> simp [holds]

theorem loose_iff {entry : AnsweredPackage} {package : Package} :
    packagesMatchLooseWithoutAction entry package = true ↔
      entry.Names package ∧ (entry.localTarget = true → package.localTarget = true) := by
  have given : ∀ field : String, (!field.isEmpty) = true ↔ field ≠ "" := by
    intro field
    rw [Bool.not_eq_true', ← Bool.not_eq_true, String.isEmpty_iff]
  simp only [packagesMatchLooseWithoutAction, AnsweredPackage.Names, guarded_iff, Bool.and_eq_true, given,
    bne_iff_ne, Bool.or_eq_true, Bool.not_eq_true', not_and, not_not, Bool.not_eq_false]
  constructor
  · intro matched
    obtain ⟨system, name, version, path, target, offered⟩ := matched
    exact ⟨⟨system, name, version, path, offered⟩, target⟩
  · intro matched
    obtain ⟨⟨system, name, version, path, offered⟩, target⟩ := matched
    exact ⟨system, name, version, path, target, offered⟩

theorem findMatch_eq_some {unmatched : List Package} {entry : AnsweredPackage} {source : Package}
    (found : findMatch unmatched entry = some source) :
    source ∈ unmatched ∧ (packagesMatchExactWithoutAction entry source = true ∨
      packagesMatchLooseWithoutAction entry source = true) := by
  unfold findMatch at found
  split at found
  · rename_i first exact_
    cases found
    exact ⟨List.mem_of_find?_eq_some exact_, Or.inl (List.find?_some exact_)⟩
  · exact ⟨List.mem_of_find?_eq_some found, Or.inr (List.find?_some found)⟩

/-- An entry that takes over from a source becomes that source, but for an action of its own. -/
theorem applyDefaults_is_iff {unmatched : List Package} {entry : AnsweredPackage} {source package : Package}
    (found : findMatch unmatched entry = some source) :
    (applyDefaults entry source).Is package ↔
      (if entry.action = some .unknown then source.action = package.action
        else entry.action = some package.action) ∧
      source.system = package.system ∧ source.name = package.name ∧ source.version = package.version ∧
        source.sourcePath = package.sourcePath ∧ source.localTarget = package.localTarget := by
  have filled : ∀ {given taken : String}, (given ≠ "" → given = taken) →
      (if given.isEmpty then taken else given) = taken := by
    intro given taken agrees
    by_cases open_ : given = ""
    · rw [if_pos (String.isEmpty_iff.mpr open_)]
    · rw [if_neg (by rwa [String.isEmpty_iff]), agrees open_]
  have fields : (entry.system ≠ "" → entry.system = source.system) ∧
      (entry.name ≠ "" → entry.name = source.name) ∧ (entry.version ≠ "" → entry.version = source.version) ∧
      (entry.sourcePath ≠ "" → entry.sourcePath = source.sourcePath) ∧
      (entry.localTarget || source.localTarget) = source.localTarget := by
    rcases (findMatch_eq_some found).2 with equal | agrees
    · obtain ⟨system, name, version, path, target⟩ := exact_iff.1 equal
      exact ⟨fun _ => system, fun _ => name, fun _ => version, fun _ => path, by rw [target, Bool.or_self]⟩
    · obtain ⟨⟨system, name, version, path, _⟩, target⟩ := loose_iff.1 agrees
      refine ⟨system, name, version, path, ?_⟩
      cases given : entry.localTarget with
      | false => rfl
      | true => rw [target given, Bool.or_self]
  obtain ⟨system, name, version, path, target⟩ := fields
  simp only [AnsweredPackage.Is, applyDefaults, filled system, filled name, filled version, filled path, target]
  refine and_congr_left fun _ => ?_
  split
  · exact Option.some_inj
  · rfl

/-- Which request every answered package stands for. -/
def assignment (packages : List Package) (answered : List AnsweredPackage) : List (AnsweredPackage × Option Package) :=
  Matching.assign findMatch packages answered

def complete : AnsweredPackage × Option Package → AnsweredPackage
  | (entry, none) => entry
  | (entry, some source) => applyDefaults entry source

theorem inheritMissingPackageFields_eq (packages : List Package) (answered : List AnsweredPackage) :
    inheritMissingPackageFields packages answered = (assignment packages answered).map complete := by
  unfold assignment
  induction answered generalizing packages with
  | nil => rfl
  | cons entry answered ih =>
      unfold inheritMissingPackageFields Matching.assign
      cases found : findMatch packages entry with
      | none =>
          simp only [ih, List.map_cons]
          rfl
      | some source =>
          simp only [ih, List.map_cons]
          rfl

/-- The answered package that stands for the request says nothing of its action or names that
of the request, or the request is repeated field by field behind the one that does. -/
def Reported (packages : List Package) (answered : List AnsweredPackage) (package : Package) : Prop :=
  ∃ entry, ((entry, some package) ∈ assignment packages answered ∧
      (entry.action = some .unknown ∨ entry.action = some package.action)) ∨
    ((entry, none) ∈ assignment packages answered ∧ entry.Is package)

/-- Requests of one action that differ in some field. -/
structure Requests (action : ActionType) (packages : List Package) : Prop where
  uniform : ∀ package ∈ packages, package.action = action
  distinct : packages.Pairwise fun left right => samePackage left right = false

theorem Requests.eq_of_fields {action : ActionType} {packages : List Package} (requests : Requests action packages)
    {left right : Package} (leftListed : left ∈ packages) (rightListed : right ∈ packages)
    (system : left.system = right.system) (name : left.name = right.name) (version : left.version = right.version)
    (path : left.sourcePath = right.sourcePath) (target : left.localTarget = right.localTarget) : left = right := by
  have same : samePackage left right = true := by
    simp [samePackage, system, name, version, path, target, requests.uniform left leftListed,
      requests.uniform right rightListed]
  by_contra differ
  have apart : ∀ {first second : Package}, samePackage first second = false → samePackage second first = false := by
    intro first second unlike
    rw [Bool.eq_false_iff, samePackage_eq_plannerSamePackage] at unlike ⊢
    exact fun reversed => unlike (plannerSamePackage_symm reversed)
  have symmetric : Std.Symm fun first second : Package => samePackage first second = false := ⟨fun _ _ => apart⟩
  have unlike := requests.distinct.forall leftListed rightListed differ
  rw [same] at unlike
  cases unlike

/-- Among the packages the plugin is taken to have answered with, those reported are found
and no others. -/
theorem completed_is_iff {action : ActionType} {packages : List Package} (requests : Requests action packages)
    (answered : List AnsweredPackage) {package : Package} (listed : package ∈ packages) :
    (∃ entry ∈ inheritMissingPackageFields packages answered, entry.Is package) ↔
      Reported packages answered package := by
  rw [inheritMissingPackageFields_eq]
  have taken : ∀ {entry : AnsweredPackage} {source : Package},
      (entry, some source) ∈ assignment packages answered → ((applyDefaults entry source).Is package ↔
        source = package ∧ (entry.action = some .unknown ∨ entry.action = some package.action)) := by
    intro entry source member
    obtain ⟨part, within, found⟩ := Matching.chosen_of_mem_assign member
    have sourceListed := within.subset (findMatch_eq_some found).1
    rw [applyDefaults_is_iff found]
    constructor
    · intro is_
      obtain ⟨named, system, name, version, path, target⟩ := is_
      refine ⟨requests.eq_of_fields sourceListed listed system name version path target, ?_⟩
      split at named
      · rename_i unknown
        exact Or.inl unknown
      · exact Or.inr named
    · intro stands
      obtain ⟨rfl, named⟩ := stands
      refine ⟨?_, rfl, rfl, rfl, rfl, rfl⟩
      split
      · rfl
      · rename_i known
        exact named.resolve_left known
  constructor
  · intro found
    obtain ⟨entry, member, is_⟩ := found
    obtain ⟨⟨original, source⟩, assigned, rfl⟩ := List.mem_map.mp member
    cases source with
    | none => exact ⟨original, Or.inr ⟨assigned, is_⟩⟩
    | some source =>
        obtain ⟨rfl, named⟩ := (taken assigned).mp is_
        exact ⟨original, Or.inl ⟨assigned, named⟩⟩
  · intro reported
    obtain ⟨entry, ⟨assigned, named⟩ | ⟨assigned, is_⟩⟩ := reported
    · exact ⟨_, List.mem_map_of_mem assigned, (taken assigned).mpr ⟨rfl, named⟩⟩
    · exact ⟨_, List.mem_map_of_mem assigned, is_⟩

/-- The entry agrees with one of the packages alone. -/
def NamesOnly (packages : List Package) (entry : AnsweredPackage) (package : Package) : Prop :=
  entry.Names package ∧ ∀ other ∈ packages, entry.Names other → other = package

theorem names_of_exact {entry : AnsweredPackage} {package : Package}
    (equal : packagesMatchExactWithoutAction entry package = true)
    (offers : entry.name ≠ "" ∨ entry.sourcePath ≠ "") : entry.Names package := by
  obtain ⟨system, name, version, path, _⟩ := exact_iff.1 equal
  exact ⟨fun _ => system, fun _ => name, fun _ => version, fun _ => path, offers⟩

/-- Whatever came before, an entry takes the package it names alone if that is still there. -/
theorem findMatch_of_namesOnly {packages unmatched : List Package} {entry : AnsweredPackage} {package : Package}
    (alone : NamesOnly packages entry package) (remote : entry.localTarget = false)
    (within : unmatched.Sublist packages) (listed : package ∈ unmatched) :
    findMatch unmatched entry = some package := by
  have fits : packagesMatchLooseWithoutAction entry package = true :=
    loose_iff.2 ⟨alone.1, fun target => by simp [remote] at target⟩
  have offers := alone.1.2.2.2.2
  cases found : findMatch unmatched entry with
  | none =>
      unfold findMatch at found
      split at found
      · cases found
      · exact absurd fits (by simpa using List.find?_eq_none.mp found package listed)
  | some source =>
      obtain ⟨member, equal | agrees⟩ := findMatch_eq_some found
      · rw [alone.2 source (within.subset member) (names_of_exact equal offers)]
      · rw [alone.2 source (within.subset member) (loose_iff.1 agrees).1]

/-- Entries without a wrong action report every package that one of them names alone. -/
theorem reported_of_namesOnly {packages : List Package} {answered : List AnsweredPackage} {package : Package}
    (listed : package ∈ packages) {entry : AnsweredPackage} (member : entry ∈ answered)
    (alone : NamesOnly packages entry package) (remote : entry.localTarget = false)
    (plain : ∀ other ∈ answered, other.action = some .unknown ∨ other.action = some package.action) :
    Reported packages answered package := by
  obtain ⟨taker, taken⟩ := Matching.assign_covers listed member fun part within present =>
    findMatch_of_namesOnly alone remote within present
  have answers : taker ∈ answered := by
    rw [← Matching.map_fst_assign packages answered]
    exact List.mem_map_of_mem taken
  exact ⟨taker, Or.inl ⟨taken, plain taker answers⟩⟩

end Matches

end ReqPack.PluginHost.LuaBridgeValueMapper
