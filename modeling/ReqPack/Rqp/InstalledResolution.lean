import ReqPack.Data.Ordering
import ReqPack.Rqp.Update

/-! # Resolving what is installed

`RqpPlugin::resolvePackage` answers with an installed match and asks the repositories only if
there is none.  It sorts the matches with `compareInstalledVersions`, whose three values are
read as a yes for every two entries that differ, and takes the last one.
-/

namespace ReqPack.Rqp

open ReqPack.Data
open ReqPack.Data.Ascii

section Resolving

variable (host : RqpHost) (sort : List RqpInstalledPackage → List RqpInstalledPackage)

/-- What `std::sort` takes the comparator for. -/
def comparesUnequal (left right : RqpInstalledPackage) : Bool :=
  compareInstalledVersions host.order left.metadata right.metadata != 0

/-- The entries for a request; a version nothing fits is dropped. -/
def installedMatches (state : RqpState) (request : UpdateRequest) : List RqpInstalledPackage :=
  let found := findInstalled state request.name request.version
  if found.isEmpty && !request.version.isEmpty then findInstalled state request.name [] else found

/-- `RqpPlugin::resolvePackage`. -/
def resolveRequest (state : RqpState) (request : UpdateRequest) : Option UpdateRequest :=
  match (sort (installedMatches state request)).getLast? with
  | some last => some { request with version := installedVersionString last.metadata }
  | none =>
      (resolvePackage host request.name request.version).map fun candidate =>
        { request with version := installedVersionString candidate.packageId }

/-- No other entry of the list is newer. -/
def IsNewest (entries : List RqpInstalledPackage) (entry : RqpInstalledPackage) : Prop :=
  entry ∈ entries ∧ ∀ other ∈ entries, ¬ 0 < compareInstalledVersions host.order other.metadata entry.metadata

/-- The request gets the version of a newest match. -/
def ResolvesToNewest (state : RqpState) (request : UpdateRequest) : Prop :=
  ∃ newest, IsNewest host (installedMatches state request) newest ∧
    resolveRequest host sort state request = some { request with version := installedVersionString newest.metadata }

end Resolving

section Newest

variable {host : RqpHost} {sort : List RqpInstalledPackage → List RqpInstalledPackage} {state : RqpState}
  {request : UpdateRequest}

theorem compareInstalledVersions_flip (order : VersionOrder) (left right : RqPackageId) :
    0 < compareInstalledVersions order left right ↔ compareInstalledVersions order right left < 0 := by
  have forth := @atLeast_iff order right left
  have flipped := order.flip left.version right.version
  have backwards := order.flip right.version left.version
  rw [AtLeast] at forth
  simp only [compareInstalledVersions] at forth ⊢
  split
  · omega
  · split
    · split <;> omega
    · split
      · split <;> omega
      · omega

theorem comparesUnequal_symmetric (left right : RqpInstalledPackage) :
    comparesUnequal host left right = comparesUnequal host right left := by
  have forth := compareInstalledVersions_flip host.order left.metadata right.metadata
  have back := compareInstalledVersions_flip host.order right.metadata left.metadata
  rw [comparesUnequal, comparesUnequal, Bool.eq_iff_iff, bne_iff_ne, bne_iff_ne]
  omega

/-- With matches, the version is that of the entry the sort leaves at the end. -/
theorem resolveRequest_of_matches (perm : (sort (installedMatches state request)).Perm (installedMatches state request))
    (found : installedMatches state request ≠ []) :
    ∃ last ∈ installedMatches state request, (sort (installedMatches state request)).getLast? = some last ∧
      resolveRequest host sort state request =
        some { request with version := installedVersionString last.metadata } := by
  have present : sort (installedMatches state request) ≠ [] := by
    intro empty
    rw [empty] at perm
    exact found perm.nil_eq.symm
  refine ⟨(sort (installedMatches state request)).getLast present, ?_, List.getLast?_eq_some_getLast present, ?_⟩
  · exact perm.mem_iff.1 (List.getLast_mem present)
  · rw [resolveRequest, List.getLast?_eq_some_getLast present]

end Newest

/-- Whatever `std::sort` leaves, an installed package is resolved to a newest match exactly if
every match reads like a newest one. -/
theorem resolveRequest_newest_iff (host : RqpHost) (state : RqpState) (request : UpdateRequest)
    (found : installedMatches state request ≠ []) :
    (∀ sort : List RqpInstalledPackage → List RqpInstalledPackage,
        (∀ values, SortsTo (comparesUnequal host) values (sort values)) →
          ResolvesToNewest host sort state request) ↔
      ∀ entry ∈ installedMatches state request, ∃ newest, IsNewest host (installedMatches state request) newest ∧
        installedVersionString newest.metadata = installedVersionString entry.metadata := by
  apply Iff.intro
  · intro resolves entry member
    have sorts : ∀ values, SortsTo (comparesUnequal host) values (movedLast (installedMatches state request) entry values) :=
      fun values => (sortsTo_iff_of_symmetric comparesUnequal_symmetric).2 (movedLast_perm member values)
    obtain ⟨newest, isNewest, resolved⟩ := resolves _ sorts
    obtain ⟨last, -, atEnd, own⟩ := resolveRequest_of_matches (sorts _).perm found
    rw [movedLast_self, List.getLast?_concat, Option.some.injEq] at atEnd
    rw [own, Option.some.injEq, UpdateRequest.mk.injEq] at resolved
    refine ⟨newest, isNewest, ?_⟩
    rw [atEnd]
    exact resolved.2.symm
  · intro alike sort sorts
    obtain ⟨last, member, -, own⟩ := resolveRequest_of_matches (sorts _).perm found
    obtain ⟨newest, isNewest, same⟩ := alike last member
    refine ⟨newest, isNewest, ?_⟩
    rw [own, same]

/-- A single match is its newest. -/
theorem resolveRequest_newest_single :
    (∀ sort : List RqpInstalledPackage → List RqpInstalledPackage,
        (∀ values, SortsTo (comparesUnequal demoHost) values (sort values)) →
          ResolvesToNewest demoHost sort demoState demoRequest) ∧
      installedMatches demoState demoRequest = [demoInstalled "1.0.0"] := by
  have single : installedMatches demoState demoRequest = [demoInstalled "1.0.0"] := by decide +kernel
  have present : installedMatches demoState demoRequest ≠ [] := by
    rw [single]
    exact List.cons_ne_nil _ _
  refine ⟨(resolveRequest_newest_iff demoHost demoState demoRequest present).2 ?_, single⟩
  intro entry member
  refine ⟨entry, ⟨member, ?_⟩, rfl⟩
  rw [single, List.mem_singleton] at member
  subst member
  rw [single]
  intro other same
  rw [List.mem_singleton] at same
  subst same
  decide +kernel

def twoInstalled : RqpState where
  installed := [demoInstalled "1.1.0", demoInstalled "1.0.0"]
  apart := by decide +kernel

/-- An insertion sort leaves the older one of two versions at the end. -/
theorem older_version_is_resolved :
    ¬ ∀ (host : RqpHost) (sort : List RqpInstalledPackage → List RqpInstalledPackage) (state : RqpState)
        (request : UpdateRequest), (∀ values, SortsTo (comparesUnequal host) values (sort values)) →
      installedMatches state request ≠ [] → ResolvesToNewest host sort state request := by
  intro all
  have sorts : ∀ values, SortsTo (comparesUnequal demoHost) values (stableSort (comparesUnequal demoHost) values) :=
    fun values => (sortsTo_iff_of_symmetric comparesUnequal_symmetric).2 (stableSort_perm _ values)
  obtain ⟨newest, isNewest, resolved⟩ := all demoHost _ twoInstalled demoRequest sorts (by decide +kernel)
  have older : resolveRequest demoHost (stableSort (comparesUnequal demoHost)) twoInstalled demoRequest =
      some { demoRequest with version := bytes "1.0.0-1+r0" } := by
    decide +kernel
  have newer : ∀ entry ∈ installedMatches twoInstalled demoRequest,
      installedVersionString entry.metadata = bytes "1.0.0-1+r0" →
        0 < compareInstalledVersions demoHost.order (demoInstalled "1.1.0").metadata entry.metadata := by
    have entries : installedMatches twoInstalled demoRequest = [demoInstalled "1.0.0", demoInstalled "1.1.0"] := by
      decide +kernel
    rw [entries, List.forall_mem_cons, List.forall_mem_singleton]
    decide +kernel
  rw [older, Option.some.injEq, UpdateRequest.mk.injEq] at resolved
  exact isNewest.2 (demoInstalled "1.1.0") (by decide +kernel) (newer newest isNewest.1 resolved.2.symm)

end ReqPack.Rqp
