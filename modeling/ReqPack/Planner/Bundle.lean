import ReqPack.Data.Lists
import ReqPack.Planner.Dependencies

/-! # Plugin bundles

`plugin_bundle`: the manifest of a bundle names dependencies by specification,
packages of its own, and further manifests.  The first become its dependency
packages, the other two its project packages.
-/

namespace ReqPack.Planner

open ReqPack.Data ReqPack.Core

structure ManifestEntry where
  system : String
  name : String
  version : String := ""
  flags : List String := []
deriving Repr, DecidableEq

/-- `PluginBundleManifest`, without its format version. -/
structure PluginBundleManifest where
  dependencySpecs : List String := []
  nestedManifestPaths : List String := []
  inlinePackageEntries : List ManifestEntry := []
deriving Repr, DecidableEq

section Specs

def isBlank (letter : Char) : Bool := letter == ' ' || letter == '\t' || letter == '\r' || letter == '\n'

def trimCopy (value : String) : String :=
  String.ofList ((value.toList.dropWhile isBlank).reverse.dropWhile isBlank).reverse

def toLowerCopy (value : String) : String := String.ofList (value.toList.map Char.toLower)

/-- The text before and behind the first separator. -/
def splitFirst (separator : Char) (value : String) : Option (String × String) :=
  if separator ∈ value.toList then
    let front := value.toList.takeWhile (· != separator)
    some (String.ofList front, String.ofList (value.toList.drop (front.length + 1)))
  else none

/-- The text before and behind the last separator. -/
def splitLast (separator : Char) (value : String) : Option (String × String) :=
  if separator ∈ value.toList then
    let back := (value.toList.reverse.takeWhile (· != separator)).reverse
    some (String.ofList (value.toList.take (value.toList.length - back.length - 1)), String.ofList back)
  else none

/-- Name and version of the part of a specification behind its scope. -/
def nameAndVersion (packagePart : String) : String × String :=
  match splitLast '@' packagePart with
  | none => (packagePart, "")
  | some (name, version) =>
      if name.isEmpty || version.isEmpty then (packagePart, "") else (trimCopy name, trimCopy version)

/-- The dependency a specification stands for, if it gives it a name. -/
def dependencyFrom (system packagePart : String) : Option Package :=
  let named := nameAndVersion packagePart
  if named.1.isEmpty then none
  else some { action := .install, system := system, name := named.1, version := named.2 }

/-- `parse_dependency_spec`: `system:name@version`, where system and version may be missing. -/
def parseDependencySpec (spec : String) : Option Package :=
  let trimmed := trimCopy spec
  if trimmed.isEmpty then none
  else
    match splitFirst ':' trimmed with
    | none => dependencyFrom "" trimmed
    | some (scope, packagePart) =>
        if scope.isEmpty || packagePart.isEmpty then none
        else dependencyFrom (toLowerCopy (trimCopy scope)) (trimCopy packagePart)

def manifestEntryToPackage (entry : ManifestEntry) : Package :=
  { action := .install, system := entry.system, name := entry.name, version := entry.version,
    flags := entry.flags }

/-- `plugin_bundle_dependency_packages`: one bad specification leaves none. -/
def pluginBundleDependencyPackages (manifest : PluginBundleManifest) : List Package :=
  (manifest.dependencySpecs.mapM parseDependencySpec).getD []

/-- `plugin_bundle_project_packages`; nested manifests that cannot be read are passed over. -/
def pluginBundleProjectPackages (tryLoadPackages : String → Option (List ManifestEntry))
    (manifest : PluginBundleManifest) : List Package :=
  manifest.inlinePackageEntries.map manifestEntryToPackage ++
    manifest.nestedManifestPaths.flatMap fun path =>
      ((tryLoadPackages path).getD []).map manifestEntryToPackage

theorem parseDependencySpec_action {spec : String} {package : Package}
    (parsed : parseDependencySpec spec = some package) : package.action = .install := by
  have named : ∀ {system packagePart}, dependencyFrom system packagePart = some package →
      package.action = .install := by
    intro system packagePart found
    simp only [dependencyFrom] at found
    split at found
    · cases found
    · cases found
      rfl
  simp only [parseDependencySpec] at parsed
  split at parsed
  · cases parsed
  · split at parsed
    · exact named parsed
    · split at parsed
      · cases parsed
      · exact named parsed

theorem dependencyPackages_action (manifest : PluginBundleManifest) {package : Package}
    (member : package ∈ pluginBundleDependencyPackages manifest) : package.action = .install := by
  rw [pluginBundleDependencyPackages] at member
  cases all : manifest.dependencySpecs.mapM parseDependencySpec with
  | none => simp [all] at member
  | some packages =>
      rw [all] at member
      obtain ⟨spec, _, parsed⟩ := exists_of_mem_mapM all member
      exact parseDependencySpec_action parsed

theorem projectPackages_action (tryLoadPackages : String → Option (List ManifestEntry))
    (manifest : PluginBundleManifest) {package : Package}
    (member : package ∈ pluginBundleProjectPackages tryLoadPackages manifest) : package.action = .install := by
  rcases List.mem_append.mp member with inline | nested
  · obtain ⟨entry, _, rfl⟩ := List.mem_map.mp inline
    rfl
  · obtain ⟨path, _, loaded⟩ := List.mem_flatMap.mp nested
    obtain ⟨entry, _, rfl⟩ := List.mem_map.mp loaded
    rfl

end Specs

section Files

/-- The bundles on disk: the manifest found for each system, and what can be read from
the further manifests it names. -/
structure BundleFiles where
  manifests : List (String × PluginBundleManifest)
  tryLoadPackages : String → String → Option (List ManifestEntry)
  /-- no bundle is looked for without a name -/
  named : ∀ entry ∈ manifests, entry.1 ≠ ""

def BundleFiles.bundleOf (files : BundleFiles) (system : String) (manifest : PluginBundleManifest) :
    PluginBundle :=
  { dependencyPackages := pluginBundleDependencyPackages manifest
    projectPackages := pluginBundleProjectPackages (files.tryLoadPackages system) manifest }

def BundleFiles.bundles (files : BundleFiles) : List (String × PluginBundle) :=
  files.manifests.map fun entry => (entry.1, files.bundleOf entry.1 entry.2)

variable {files : BundleFiles} {env : PlannerEnv} {system : String} {bundle : PluginBundle}

/-- A bundle that is found has a manifest and a system with a name. -/
theorem BundleFiles.of_findInstalled (reads : env.bundles = files.bundles)
    (found : env.findInstalled system = some bundle) :
    system ≠ "" ∧ ∃ manifest, (system, manifest) ∈ files.manifests ∧
      bundle = files.bundleOf system manifest := by
  simp only [PlannerEnv.findInstalled, Option.map_eq_some_iff] at found
  obtain ⟨entry, listed, rfl⟩ := found
  have same : entry.1 = system := by simpa using List.find?_some listed
  have member := List.mem_of_find?_eq_some listed
  rw [reads, BundleFiles.bundles, List.mem_map] at member
  obtain ⟨⟨owner, manifest⟩, known, rfl⟩ := member
  simp only at same
  subst same
  exact ⟨files.named _ known, manifest, known, rfl⟩

/-- Whatever a bundle asks for is to be installed. -/
theorem BundleFiles.package_action (reads : env.bundles = files.bundles)
    (found : env.findInstalled system = some bundle) {package : Package}
    (member : package ∈ bundle.dependencyPackages ++ bundle.projectPackages) : package.action = .install := by
  obtain ⟨_, manifest, _, rfl⟩ := BundleFiles.of_findInstalled reads found
  rcases List.mem_append.mp member with declared | project
  · exact dependencyPackages_action manifest declared
  · exact projectPackages_action _ manifest project

end Files

end ReqPack.Planner
