import Mathlib.Data.List.MinMax
import Mathlib.Order.Antisymmetrization
import ReqPack.Rqp.StateStore
import ReqPack.Rqp.SystemAliases

/-! # The best package of the repositories

`rq_repository_resolve_package` folds over all indexes and keeps the better candidate.  The
packages are ranked by version, release and revision; what it returns is an `argmax` of that
rank, so the order of the indexes only chooses among packages of one rank.
-/

namespace ReqPack.Rqp

open ReqPack.Data
open ReqPack.Data.Ascii
open scoped ReqPack.Data.Octets

/-! ## Ranks -/

/-- Packages, compared by version, release and revision. -/
def Ranked (_ : VersionOrder) : Type := RqPackageId

section Ranks

variable {order : VersionOrder}

def rank (order : VersionOrder) (package : RqPackageId) : Ranked order := package

instance : Preorder (Ranked order) where
  le left right := AtLeast order right left
  le_refl package := @atLeast_refl order package
  le_trans _ _ _ lower upper := atLeast_trans upper lower

theorem rank_le_iff {left right : RqPackageId} : rank order left ≤ rank order right ↔ AtLeast order right left :=
  Iff.rfl

theorem rank_le_total (left right : RqPackageId) :
    rank order left ≤ rank order right ∨ rank order right ≤ rank order left := by
  have flipped := order.flip left.version right.version
  have backwards := order.flip right.version left.version
  rw [rank_le_iff, rank_le_iff, atLeast_iff, atLeast_iff]
  omega

theorem rank_lt_iff {left right : RqPackageId} :
    rank order left < rank order right ↔
      0 < order.compareValues right.version left.version ∨
        (order.compareValues right.version left.version = 0 ∧
          (left.release < right.release ∨ (left.release = right.release ∧ left.revision < right.revision))) := by
  have flipped := order.flip left.version right.version
  have backwards := order.flip right.version left.version
  rw [lt_iff_le_not_ge, rank_le_iff, rank_le_iff, atLeast_iff, atLeast_iff]
  omega

instance : DecidableLT (Ranked order) := fun left right =>
  decidable_of_iff (0 ≤ compareInstalledVersions order right left ∧ ¬ 0 ≤ compareInstalledVersions order left right)
    (@lt_iff_le_not_ge (Ranked order) _ left right).symm

end Ranks

/-! ## The resolver -/

/-- The host of one search; it reads no digest. -/
def searchedHost (order : VersionOrder) (indexes : List RqRepositoryIndex) (hostArchitecture : Bytes)
    (hostSystems : List Bytes) (configured : SystemAliases) : RqpHost where
  order := order
  hostArchitecture := hostArchitecture
  systemMatches systems := rqSystemMatches systems hostSystems (rqMergedSystemAliases configured)
  sha256Hex content := content
  indexes := indexes

/-- `rq_repository_resolve_package`, with the aliases of the configuration. -/
def rqRepositoryResolvePackage (order : VersionOrder) (indexes : List RqRepositoryIndex)
    (name version hostArchitecture : Bytes) (hostSystems : List Bytes) (configured : SystemAliases) :
    Option RqRepositoryPackage :=
  resolvePackage (searchedHost order indexes hostArchitecture hostSystems configured) name version

/-- The package passes the filters on name, version, architecture and system. -/
structure Passes (name version hostArchitecture : Bytes) (hostSystems : List Bytes) (configured : SystemAliases)
    (package : RqRepositoryPackage) : Prop where
  named : package.name = name
  versioned : version ≠ [] → package.version = version
  built : package.architecture = bytes "noarch" ∨ package.architecture = hostArchitecture
  system : rqSystemMatches package.systems hostSystems (rqMergedSystemAliases configured) = true

/-- Some index lists the package. -/
def Offered (indexes : List RqRepositoryIndex) (package : RqRepositoryPackage) : Prop :=
  ∃ index ∈ indexes, package ∈ index.packages

/-- The same indexes, themselves and the packages in them in another order. -/
def Reordered (indexes other : List RqRepositoryIndex) : Prop :=
  ∃ shuffled, indexes.Perm shuffled ∧
    List.Forall₂ (fun left right => left.packages.Perm right.packages) shuffled other

section Best

variable {order : VersionOrder} {indexes : List RqRepositoryIndex} {name version hostArchitecture : Bytes}
  {hostSystems : List Bytes} {configured : SystemAliases} {package : RqRepositoryPackage}

theorem isBetterCandidate_iff {host : RqpHost} {candidate currentBest : RqRepositoryPackage} :
    isBetterCandidate host candidate currentBest = true ↔
      rank host.order currentBest.packageId < rank host.order candidate.packageId := by
  simp only [rank_lt_iff, isBetterCandidate, RqRepositoryPackage.packageId]
  split
  · rw [decide_eq_true_eq]
    omega
  · split
    · rw [decide_eq_true_eq]
      omega
    · split
      · rw [decide_eq_true_eq]
        omega
      · simp only [Bool.false_eq_true, false_iff]
        omega

/-- The fold of the source is an `argmax`. -/
theorem resolvePackage_eq_argmax (host : RqpHost) (name version : Bytes) :
    resolvePackage host name version =
      ((host.indexes.flatMap RqRepositoryIndex.packages).filter (fitsRequest host name version)).argmax
        fun package => rank host.order package.packageId := by
  rw [resolvePackage, List.argmax, List.foldl_filter]
  congr 1
  funext best package
  by_cases fits : fitsRequest host name version package = true
  · rw [fits, Bool.not_true, if_neg Bool.false_ne_true, if_pos rfl]
    cases best with
    | none => rfl
    | some currentBest => simp only [List.argAux, isBetterCandidate_iff]
  · rw [Bool.not_eq_true] at fits
    rw [fits, Bool.not_false, if_pos rfl, if_neg Bool.false_ne_true]

theorem fitsRequest_iff :
    fitsRequest (searchedHost order indexes hostArchitecture hostSystems configured) name version package = true ↔
      Passes name version hostArchitecture hostSystems configured package := by
  simp only [fitsRequest, searchedHost, rqArchitectureMatches, Bool.and_eq_true, Bool.or_eq_true, beq_iff_eq,
    List.isEmpty_iff]
  apply Iff.intro
  · intro fits
    exact ⟨fits.1.1.1, fun present => fits.1.1.2.resolve_left present, fits.1.2, fits.2⟩
  · intro passes
    refine ⟨⟨⟨passes.named, ?_⟩, passes.built⟩, passes.system⟩
    by_cases absent : version = []
    · exact Or.inl absent
    · exact Or.inr (passes.versioned absent)

theorem mem_flatMap_packages : package ∈ indexes.flatMap RqRepositoryIndex.packages ↔ Offered indexes package :=
  List.mem_flatMap

theorem resolve_eq_argmax :
    rqRepositoryResolvePackage order indexes name version hostArchitecture hostSystems configured =
      ((indexes.flatMap RqRepositoryIndex.packages).filter
        (fitsRequest (searchedHost order indexes hostArchitecture hostSystems configured) name version)).argmax
        fun package => rank order package.packageId :=
  resolvePackage_eq_argmax _ name version

theorem resolve_eq_none_iff :
    rqRepositoryResolvePackage order indexes name version hostArchitecture hostSystems configured = none ↔
      ∀ package, Offered indexes package → ¬ Passes name version hostArchitecture hostSystems configured package := by
  rw [resolve_eq_argmax, List.argmax_eq_none, List.filter_eq_nil_iff]
  simp only [mem_flatMap_packages, fitsRequest_iff]

/-- What is returned was offered, passes, and is not exceeded. -/
theorem resolve_eq_some
    (resolved : rqRepositoryResolvePackage order indexes name version hostArchitecture hostSystems configured =
      some package) :
    Offered indexes package ∧ Passes name version hostArchitecture hostSystems configured package ∧
      ∀ other, Offered indexes other → Passes name version hostArchitecture hostSystems configured other →
        ¬ rank order package.packageId < rank order other.packageId := by
  rw [resolve_eq_argmax] at resolved
  have chosen := List.argmax_mem (Option.mem_def.2 resolved)
  rw [List.mem_filter, mem_flatMap_packages, fitsRequest_iff] at chosen
  refine ⟨chosen.1, chosen.2, ?_⟩
  intro other offered passes
  refine @List.not_lt_of_mem_argmax _ _ _ _ (fun package => rank order package.packageId) _ other package ?_ resolved
  exact List.mem_filter.2 ⟨mem_flatMap_packages.2 offered, fitsRequest_iff.2 passes⟩

theorem Reordered.offered_iff {other : List RqRepositoryIndex} (reordered : Reordered indexes other)
    (package : RqRepositoryPackage) : Offered indexes package ↔ Offered other package := by
  obtain ⟨shuffled, indexesPerm, packagesPerm⟩ := reordered
  have shuffledOffers : Offered indexes package ↔ Offered shuffled package := by
    simp only [Offered, indexesPerm.mem_iff]
  rw [shuffledOffers]
  clear indexesPerm shuffledOffers
  induction packagesPerm with
  | nil => rfl
  | cons headPerm _ ih =>
      simp only [Offered, List.mem_cons, exists_eq_or_imp, headPerm.mem_iff]
      exact or_congr Iff.rfl ih

/-- Indexes that offer the same packages resolve to packages of the same rank. -/
theorem resolve_rel_of_same_offers {other : List RqRepositoryIndex}
    (same : ∀ package, Offered indexes package ↔ Offered other package) :
    Option.Rel
      (fun left right => AntisymmRel (· ≤ ·) (rank order left.packageId) (rank order right.packageId))
      (rqRepositoryResolvePackage order indexes name version hostArchitecture hostSystems configured)
      (rqRepositoryResolvePackage order other name version hostArchitecture hostSystems configured) := by
  have empty : rqRepositoryResolvePackage order indexes name version hostArchitecture hostSystems configured = none ↔
      rqRepositoryResolvePackage order other name version hostArchitecture hostSystems configured = none := by
    rw [resolve_eq_none_iff, resolve_eq_none_iff]
    simp only [same]
  cases first : rqRepositoryResolvePackage order indexes name version hostArchitecture hostSystems configured with
  | none =>
      rw [empty.1 first]
      exact Option.Rel.none
  | some left =>
      cases second : rqRepositoryResolvePackage order other name version hostArchitecture hostSystems configured with
      | none => rw [empty.2 second] at first; contradiction
      | some right =>
          obtain ⟨leftOffered, leftPasses, leftBest⟩ := resolve_eq_some first
          obtain ⟨rightOffered, rightPasses, rightBest⟩ := resolve_eq_some second
          have notAbove := leftBest right ((same right).2 rightOffered) rightPasses
          have notBelow := rightBest left ((same left).1 leftOffered) leftPasses
          have comparable := @rank_le_total order left.packageId right.packageId
          rw [lt_iff_le_not_ge] at notAbove notBelow
          exact Option.Rel.some ⟨by tauto, by tauto⟩

end Best

/-- The resolver finds something exactly if a package passes, what it finds is not exceeded,
and another order of the same packages finds a package of the same rank. -/
theorem resolver_returns_best (order : VersionOrder) (indexes : List RqRepositoryIndex)
    (name version hostArchitecture : Bytes) (hostSystems : List Bytes) (configured : SystemAliases) :
    (rqRepositoryResolvePackage order indexes name version hostArchitecture hostSystems configured = none ↔
      ¬ ∃ package, Offered indexes package ∧ Passes name version hostArchitecture hostSystems configured package) ∧
    (∀ package,
      rqRepositoryResolvePackage order indexes name version hostArchitecture hostSystems configured = some package →
        (Offered indexes package ∧ Passes name version hostArchitecture hostSystems configured package) ∧
          ∀ other, Offered indexes other → Passes name version hostArchitecture hostSystems configured other →
            ¬ rank order package.packageId < rank order other.packageId) ∧
    ∀ other, Reordered indexes other →
      Option.Rel
        (fun left right => AntisymmRel (· ≤ ·) (rank order left.packageId) (rank order right.packageId))
        (rqRepositoryResolvePackage order indexes name version hostArchitecture hostSystems configured)
        (rqRepositoryResolvePackage order other name version hostArchitecture hostSystems configured) := by
  refine ⟨?_, ?_, ?_⟩
  · rw [resolve_eq_none_iff]
    simp only [not_exists, not_and]
  · intro package resolved
    obtain ⟨offered, passes, best⟩ := resolve_eq_some resolved
    exact ⟨⟨offered, passes⟩, best⟩
  · intro other reordered
    exact resolve_rel_of_same_offers reordered.offered_iff

end ReqPack.Rqp
