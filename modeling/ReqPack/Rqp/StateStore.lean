import ReqPack.Rqp.Metadata

/-! # Installed RQP packages

`RqpStateStore`: one directory for each package that is installed, and a search by name and
version that is generous about both.  `rq_repository_resolve_package` picks the newest
package of the repositories that fits the host.
-/

namespace ReqPack.Rqp

open ReqPack.Data
open ReqPack.Data.Ascii

/-! ## Versions -/

/-- The fields of the metadata that tell one package from another; they are read back as
they were written. -/
structure RqPackageId where
  name : Bytes
  version : Bytes
  release : Int
  revision : Int
deriving DecidableEq, Repr

def RqMetadata.packageId (metadata : RqMetadata) : RqPackageId where
  name := metadata.name
  version := metadata.version
  release := metadata.release
  revision := metadata.revision

/-- `version_compare_values`: any comparison of versions. -/
structure VersionOrder where
  compareValues : Bytes → Bytes → Int
  flip : ∀ left right, 0 < compareValues left right ↔ compareValues right left < 0
  trans : ∀ first second third, 0 ≤ compareValues first second → 0 ≤ compareValues second third →
    0 ≤ compareValues first third

section Versions

variable (order : VersionOrder)

/-- `installedVersionString`. -/
def installedVersionString (package : RqPackageId) : Bytes :=
  package.version ++ bytes "-" ++ intText package.release ++ bytes "+r" ++ intText package.revision

/-- `rq_package_identity`. -/
def rqPackageIdentity (package : RqPackageId) : Bytes :=
  package.name ++ bytes "@" ++ installedVersionString package

/-- `compareInstalledVersions`. -/
def compareInstalledVersions (left right : RqPackageId) : Int :=
  let versionComparison := order.compareValues left.version right.version
  if versionComparison ≠ 0 then versionComparison
  else if left.release ≠ right.release then (if left.release < right.release then -1 else 1)
  else if left.revision ≠ right.revision then (if left.revision < right.revision then -1 else 1)
  else 0

/-- The same version or a newer one. -/
def AtLeast (left right : RqPackageId) : Prop := 0 ≤ compareInstalledVersions order left right

end Versions

/-! ## The store -/

structure RqStateSource where
  source : Bytes
  path : Bytes
  repository : Bytes
  requestName : Bytes
deriving DecidableEq, Repr

structure RqpInstalledPackage where
  metadata : RqPackageId
  source : RqStateSource
deriving DecidableEq, Repr

namespace RqpInstalledPackage

def identity (installed : RqpInstalledPackage) : Bytes := rqPackageIdentity installed.metadata

end RqpInstalledPackage

/-- The directory of a package below the state root: its name, and its identity in it. -/
def stateDir (package : RqPackageId) : Bytes × Bytes := (package.name, rqPackageIdentity package)

/-- The packages whose state can be loaded, each in a directory of its own. -/
structure RqpState where
  installed : List RqpInstalledPackage := []
  apart : (installed.map fun package => stateDir package.metadata).Nodup := by simp

/-- A single part of a path. -/
def isDirectoryName (name : Bytes) : Bool :=
  !name.isEmpty && !name.contains slash && name ≠ bytes "." && name ≠ bytes ".."

namespace RqpState

/-- The state without the package in a directory. -/
def without (state : RqpState) (directory : Bytes × Bytes) : RqpState where
  installed := state.installed.filter fun package => stateDir package.metadata ≠ directory
  apart := (List.Sublist.map _ List.filter_sublist).nodup state.apart

/-- The state with a package written into its directory.  It is listed if the directory lies
two levels below the root. -/
def write (state : RqpState) (package : RqpInstalledPackage) : RqpState :=
  if isDirectoryName package.metadata.name && isDirectoryName package.identity then
    { installed := package :: (state.without (stateDir package.metadata)).installed
      apart := by
        rw [List.map_cons, List.nodup_cons]
        refine ⟨?_, (state.without (stateDir package.metadata)).apart⟩
        simp [without] }
  else state

end RqpState

section Finding

def iequals (left right : Bytes) : Bool := toLowerCopy left == toLowerCopy right

/-- The bytes before and behind the last one of a kind. -/
def splitAtLast (separator : UInt8) (value : Bytes) : Option (Bytes × Bytes) :=
  if value.contains separator then
    some (((value.reverse.dropWhile (· != separator)).drop 1).reverse, value.rtakeWhile (· != separator))
  else none

def atSign : UInt8 := 64

def installedNameMatches (installed : RqpInstalledPackage) (name : Bytes) : Bool :=
  iequals installed.metadata.name name ||
    (!installed.source.requestName.isEmpty && iequals installed.source.requestName name) ||
    match splitAtLast atSign installed.source.path with
    | some (front, _) => if front.isEmpty then iequals installed.source.path name else iequals front name
    | none => iequals installed.source.path name

def installedVersionMatches (installed : RqpInstalledPackage) (version : Bytes) : Bool :=
  version.isEmpty || installed.metadata.version == version || installed.identity == version ||
    installedVersionString installed.metadata == version ||
    iequals (installedVersionString installed.metadata) version ||
    match splitAtLast atSign installed.source.path with
    | none => false
    | some (_, sourceVersion) =>
        !sourceVersion.isEmpty &&
          (iequals sourceVersion version || version.isPrefixOf installed.metadata.version ||
            version.isPrefixOf installed.identity)

/-- The order of `listInstalled`. -/
def listedBefore (left right : RqpInstalledPackage) : Bool :=
  left.metadata.name < right.metadata.name ||
    (left.metadata.name == right.metadata.name && left.identity ≤ right.identity)

def listInstalled (state : RqpState) : List RqpInstalledPackage :=
  state.installed.insertionSort fun left right => listedBefore left right = true

def findInstalled (state : RqpState) (name version : Bytes) : List RqpInstalledPackage :=
  (listInstalled state).filter fun candidate =>
    installedNameMatches candidate name && installedVersionMatches candidate version

theorem mem_findInstalled {state : RqpState} {name version : Bytes} {package : RqpInstalledPackage} :
    package ∈ findInstalled state name version ↔
      package ∈ state.installed ∧ installedNameMatches package name = true ∧
        installedVersionMatches package version = true := by
  simp [findInstalled, listInstalled, List.mem_insertionSort]

end Finding

/-! ## Repositories -/

structure RqRepositoryPackage where
  repository : Bytes
  name : Bytes
  version : Bytes
  release : Int
  revision : Int
  architecture : Bytes
  systems : List Bytes
  url : Bytes
  packageSha256 : Bytes
deriving DecidableEq, Repr

structure RqRepositoryIndex where
  packages : List RqRepositoryPackage
deriving DecidableEq, Repr

def RqRepositoryPackage.packageId (package : RqRepositoryPackage) : RqPackageId where
  name := package.name
  version := package.version
  release := package.release
  revision := package.revision

/-- What packages and versions are compared with. -/
structure RqpHost where
  order : VersionOrder
  hostArchitecture : Bytes
  /-- `rq_system_matches` for the systems of the host -/
  systemMatches : List Bytes → Bool
  sha256Hex : Bytes → Bytes
  /-- `loadRepositoryIndexes` -/
  indexes : List RqRepositoryIndex

section Repositories

variable (host : RqpHost)

def rqArchitectureMatches (packageArchitecture hostArchitecture : Bytes) : Bool :=
  packageArchitecture == bytes "noarch" || packageArchitecture == hostArchitecture

def isBetterCandidate (candidate currentBest : RqRepositoryPackage) : Bool :=
  let versionComparison := host.order.compareValues candidate.version currentBest.version
  if versionComparison ≠ 0 then decide (0 < versionComparison)
  else if candidate.release ≠ currentBest.release then decide (currentBest.release < candidate.release)
  else if candidate.revision ≠ currentBest.revision then decide (currentBest.revision < candidate.revision)
  else false

def fitsRequest (name version : Bytes) (package : RqRepositoryPackage) : Bool :=
  package.name == name && (version.isEmpty || package.version == version) &&
    rqArchitectureMatches package.architecture host.hostArchitecture && host.systemMatches package.systems

/-- `resolve_package_impl`. -/
def resolvePackage (name version : Bytes) : Option RqRepositoryPackage :=
  (host.indexes.flatMap RqRepositoryIndex.packages).foldl
    (fun best package =>
      if !fitsRequest host name version package then best
      else
        match best with
        | none => some package
        | some currentBest => if isBetterCandidate host package currentBest then some package else best)
    none

/-- `repositoryCandidateIsNewer`. -/
def repositoryCandidateIsNewer (installed : RqpInstalledPackage) (candidate : RqRepositoryPackage) : Bool :=
  let versionComparison := host.order.compareValues candidate.version installed.metadata.version
  if versionComparison ≠ 0 then decide (0 < versionComparison)
  else if candidate.release ≠ installed.metadata.release then
    decide (installed.metadata.release < candidate.release)
  else decide (installed.metadata.revision < candidate.revision)

end Repositories

/-! ## What is known about versions and states -/

section VersionFacts

variable {order : VersionOrder}

theorem VersionOrder.refl (order : VersionOrder) (version : Bytes) : order.compareValues version version = 0 := by
  have same := order.flip version version
  omega

theorem atLeast_iff {left right : RqPackageId} :
    AtLeast order left right ↔
      0 < order.compareValues left.version right.version ∨
        (order.compareValues left.version right.version = 0 ∧
          (right.release < left.release ∨
            (left.release = right.release ∧ right.revision ≤ left.revision))) := by
  simp only [AtLeast, compareInstalledVersions]
  split
  · omega
  · split
    · split <;> omega
    · split
      · split <;> omega
      · omega

theorem atLeast_refl (package : RqPackageId) : AtLeast order package package := by
  rw [atLeast_iff]
  exact Or.inr ⟨order.refl package.version, Or.inr ⟨rfl, le_refl _⟩⟩

theorem atLeast_trans {first second third : RqPackageId} (newer : AtLeast order first second)
    (older : AtLeast order second third) : AtLeast order first third := by
  have forth := order.trans first.version second.version third.version
  have back := order.trans third.version first.version second.version
  have around := order.trans second.version third.version first.version
  have firstFlip := order.flip first.version second.version
  have firstBack := order.flip second.version first.version
  have secondFlip := order.flip second.version third.version
  have secondBack := order.flip third.version second.version
  have thirdFlip := order.flip first.version third.version
  have thirdBack := order.flip third.version first.version
  rw [atLeast_iff] at newer older ⊢
  omega

/-- A newer candidate is a newer version. -/
theorem atLeast_of_newer {host : RqpHost} {installed : RqpInstalledPackage} {candidate : RqRepositoryPackage}
    (newer : repositoryCandidateIsNewer host installed candidate = true) :
    AtLeast host.order candidate.packageId installed.metadata := by
  simp only [repositoryCandidateIsNewer] at newer
  simp only [atLeast_iff, RqRepositoryPackage.packageId]
  split at newer
  · exact Or.inl (by simpa using newer)
  · rename_i level
    split at newer
    · simp only [decide_eq_true_eq] at newer
      omega
    · simp only [decide_eq_true_eq] at newer
      omega

/-- The candidate itself is not out of date. -/
theorem candidate_not_newer {host : RqpHost} {installed : RqpInstalledPackage} {candidate : RqRepositoryPackage}
    (same : installed.metadata = candidate.packageId) :
    repositoryCandidateIsNewer host installed candidate = false := by
  simp [repositoryCandidateIsNewer, same, RqRepositoryPackage.packageId, host.order.refl]

/-- What is resolved has the name that was asked for. -/
theorem resolvePackage_name {host : RqpHost} {name version : Bytes} {candidate : RqRepositoryPackage}
    (resolved : resolvePackage host name version = some candidate) : candidate.name = name := by
  have kept : ∀ (packages : List RqRepositoryPackage) (best : Option RqRepositoryPackage),
      (∀ package, best = some package → package.name = name) →
      ∀ candidate, packages.foldl (fun best package =>
        if !fitsRequest host name version package then best
        else
          match best with
          | none => some package
          | some currentBest => if isBetterCandidate host package currentBest then some package else best)
        best = some candidate → candidate.name = name := by
    intro packages
    induction packages with
    | nil =>
        intro best named candidate found
        exact named candidate found
    | cons package packages ih =>
        intro best named
        rw [List.foldl_cons]
        apply ih
        intro chosen next
        split at next
        · exact named chosen next
        · rename_i fits
          have own : package.name = name := by
            simp only [fitsRequest, Bool.not_eq_true', Bool.not_eq_false, Bool.and_eq_true, beq_iff_eq] at fits
            exact fits.1.1.1
          split at next
          · cases next
            exact own
          · rename_i currentBest
            split at next
            · cases next
              exact own
            · exact named chosen next
  exact kept _ none (by simp) candidate resolved

end VersionFacts

section StateFacts

variable {state : RqpState}

@[simp] theorem mem_without {directory : Bytes × Bytes} {package : RqpInstalledPackage} :
    package ∈ (state.without directory).installed ↔
      package ∈ state.installed ∧ stateDir package.metadata ≠ directory := by
  simp [RqpState.without]

theorem mem_write_of_apart {written package : RqpInstalledPackage} (member : package ∈ state.installed)
    (other : stateDir package.metadata ≠ stateDir written.metadata) : package ∈ (state.write written).installed := by
  simp only [RqpState.write]
  split
  · exact List.mem_cons_of_mem _ (mem_without.2 ⟨member, other⟩)
  · exact member

end StateFacts

end ReqPack.Rqp
