import ReqPack.Registry.Names

/-! # Requests for registry packages

`rewrite_registry_package_requests` sends what the registry lists as a package to the
system that installs it.  Requests are cut into one request for each package.
-/

namespace ReqPack.Workflow

open ReqPack.Core ReqPack.Planner ReqPack.Registry

section Rewriting

-- The records of the database; one that is not ready has none.
variable (getRecord : String → Option RegistryRecord)

/-- `internal_rqp_repository_flag`. -/
def internalRqpRepositoryFlag (repositoryUrl : String) : String :=
  "__reqpack-internal-rqp-repository=" ++ repositoryUrl

/-- The name a specifier is looked up by: what stands before its last `@`. -/
def registryLookupName (packageSpecifier : String) : String :=
  match splitLast '@' packageSpecifier with
  | none => packageSpecifier
  | some (name, _) => if name.isEmpty then packageSpecifier else name

/-- The record of a specifier, if it is a package entry. -/
def packageEntry (packageSpecifier : String) : Option RegistryRecord :=
  (getRecord (registryLookupName packageSpecifier)).filter isPackageEntry

/-- The flags of a request for a package of a repository. -/
def withRepositoryFlag (record : RegistryRecord) (flags : List String) : List String :=
  if record.source.isEmpty || flags.contains (internalRqpRepositoryFlag record.source) then flags
  else flags ++ [internalRqpRepositoryFlag record.source]

/-- `apply_registry_package_rewrite`. -/
def applyRegistryPackageRewrite (request : Request) (packageSpecifier : String) : Request :=
  if request.system.isEmpty || request.usesLocalTarget || packageSpecifier.isEmpty then request
  else
    match packageEntry getRecord packageSpecifier with
    | none => request
    | some record =>
        { request with
          system := recordTargetSystem record
          packages := [packageSpecifier]
          flags := withRepositoryFlag record request.flags }

/-- The body of the loop of `rewrite_registry_package_requests`. -/
def rewriteRequest (request : Request) : List Request :=
  if request.system.isEmpty || request.usesLocalTarget then [request]
  else
    match request.packages with
    | [] => [applyRegistryPackageRewrite getRecord request request.system]
    | [packageSpecifier] => [applyRegistryPackageRewrite getRecord request packageSpecifier]
    | packages => packages.map fun packageSpecifier =>
        applyRegistryPackageRewrite getRecord { request with packages := [packageSpecifier] } packageSpecifier

def rewriteRegistryPackageRequests (requests : List Request) : List Request :=
  requests.flatMap (rewriteRequest getRecord)

/-! ## What is asked for -/

/-- One package of a request. -/
structure PackagePair where
  action : ActionType
  specifier : String
  system : String
  localPath : String
  usesLocalTarget : Bool
  flags : List String
deriving Repr, DecidableEq

def Request.pair (request : Request) (specifier : String) : PackagePair where
  action := request.action
  specifier := specifier
  system := request.system
  localPath := request.localPath
  usesLocalTarget := request.usesLocalTarget
  flags := request.flags

def Request.pairs (request : Request) : List PackagePair := request.packages.map (Request.pair request)

/-- A request without packages whose system is a package entry asks for that package. -/
def asksForItself (request : Request) : Bool :=
  request.packages.isEmpty && !request.system.isEmpty && !request.usesLocalTarget &&
    (packageEntry getRecord request.system).isSome

/-- The pairs a request asks for; the flag tells that the package was named by the system. -/
def requestedPairs (request : Request) : List (Bool × PackagePair) :=
  if asksForItself getRecord request then [(true, Request.pair request request.system)]
  else (Request.pairs request).map fun pair => (false, pair)

/-- Everything but the system is kept, and flags are only added for repositories. -/
def PackagePair.Keeps (before after : PackagePair) : Prop :=
  after.action = before.action ∧ after.specifier = before.specifier ∧ after.localPath = before.localPath ∧
    after.usesLocalTarget = before.usesLocalTarget ∧
    ∃ added, after.flags = before.flags ++ added ∧ ∀ flag ∈ added, ∃ url, flag = internalRqpRepositoryFlag url

/-- The system changes only for a request to `rqp` or for a system that is a package itself. -/
def StaysWhereAsked (before : Bool × PackagePair) (after : PackagePair) : Prop :=
  after.system ≠ before.2.system → before.2.system = builtInRqpPluginId ∨ before.1 = true

/-- No package of a request to another system is a package entry for a different system. -/
def NamesItsSystem (request : Request) : Prop :=
  request.system ≠ "" → request.usesLocalTarget = false → request.system ≠ builtInRqpPluginId →
    ∀ specifier ∈ request.packages, specifier ≠ "" → ∀ record, packageEntry getRecord specifier = some record →
      recordTargetSystem record = request.system

/-- What becomes of one pair. -/
def rewritePair (pair : PackagePair) : PackagePair :=
  if pair.system.isEmpty || pair.usesLocalTarget || pair.specifier.isEmpty then pair
  else
    match packageEntry getRecord pair.specifier with
    | none => pair
    | some record =>
        { pair with
          system := recordTargetSystem record
          flags := withRepositoryFlag record pair.flags }

end Rewriting

section Facts

variable {getRecord : String → Option RegistryRecord} {request : Request}

theorem withRepositoryFlag_added (record : RegistryRecord) (flags : List String) :
    ∃ added, withRepositoryFlag record flags = flags ++ added ∧
      ∀ flag ∈ added, ∃ url, flag = internalRqpRepositoryFlag url := by
  rw [withRepositoryFlag]
  split
  · exact ⟨[], by simp, by simp⟩
  · refine ⟨[internalRqpRepositoryFlag record.source], rfl, ?_⟩
    intro flag member
    exact ⟨record.source, List.mem_singleton.mp member⟩

/-- A flag is not added twice. -/
theorem withRepositoryFlag_idem (record : RegistryRecord) (flags : List String) :
    withRepositoryFlag record (withRepositoryFlag record flags) = withRepositoryFlag record flags := by
  by_cases present : (record.source.isEmpty || flags.contains (internalRqpRepositoryFlag record.source)) = true
  · have kept : withRepositoryFlag record flags = flags := by rw [withRepositoryFlag, if_pos present]
    rw [kept, kept]
  · have added : withRepositoryFlag record flags = flags ++ [internalRqpRepositoryFlag record.source] := by
      rw [withRepositoryFlag, if_neg present]
    rw [added, withRepositoryFlag, if_pos (by simp)]

theorem rewritePair_keeps (pair : PackagePair) : pair.Keeps (rewritePair getRecord pair) := by
  rw [rewritePair]
  split
  · exact ⟨rfl, rfl, rfl, rfl, [], by simp, by simp⟩
  · split
    · exact ⟨rfl, rfl, rfl, rfl, [], by simp, by simp⟩
    · exact ⟨rfl, rfl, rfl, rfl, withRepositoryFlag_added _ _⟩

/-- A rewritten request asks for the rewritten pair. -/
theorem pairs_apply {specifier : String} (only : request.packages = [specifier]) :
    Request.pairs (applyRegistryPackageRewrite getRecord request specifier) =
      [rewritePair getRecord (Request.pair request specifier)] := by
  have own : Request.pairs request = [Request.pair request specifier] := by rw [Request.pairs, only]; rfl
  rw [applyRegistryPackageRewrite, rewritePair]
  by_cases skipped : (request.system.isEmpty || request.usesLocalTarget || specifier.isEmpty) = true
  · rw [if_pos skipped, if_pos (by exact skipped)]
    exact own
  · rw [if_neg skipped, if_neg (by exact skipped)]
    simp only [Request.pair]
    cases packageEntry getRecord specifier with
    | none => exact own
    | some record => rfl

theorem apply_packages {specifier : String} (only : request.packages = [specifier]) :
    (applyRegistryPackageRewrite getRecord request specifier).packages = [specifier] := by
  rw [applyRegistryPackageRewrite]
  split
  · exact only
  · cases packageEntry getRecord specifier with
    | none => exact only
    | some record => rfl

theorem apply_unchanged_or_packages (specifier : String) :
    applyRegistryPackageRewrite getRecord request specifier = request ∨
      (applyRegistryPackageRewrite getRecord request specifier).packages = [specifier] := by
  rw [applyRegistryPackageRewrite]
  split
  · exact Or.inl rfl
  · cases packageEntry getRecord specifier with
    | none => exact Or.inl rfl
    | some record => exact Or.inr rfl

/-- What was rewritten for a package is left alone when it is rewritten for it again. -/
theorem apply_apply (specifier : String) :
    applyRegistryPackageRewrite getRecord (applyRegistryPackageRewrite getRecord request specifier) specifier =
      applyRegistryPackageRewrite getRecord request specifier := by
  by_cases skipped : (request.system.isEmpty || request.usesLocalTarget || specifier.isEmpty) = true
  · have same : applyRegistryPackageRewrite getRecord request specifier = request := by
      rw [applyRegistryPackageRewrite, if_pos skipped]
    rw [same, same]
  · cases entry : packageEntry getRecord specifier with
    | none =>
        have same : applyRegistryPackageRewrite getRecord request specifier = request := by
          rw [applyRegistryPackageRewrite, if_neg skipped]
          simp only [entry]
        rw [same, same]
    | some record =>
        have moved : applyRegistryPackageRewrite getRecord request specifier =
            { request with
              system := recordTargetSystem record
              packages := [specifier]
              flags := withRepositoryFlag record request.flags } := by
          rw [applyRegistryPackageRewrite, if_neg skipped]
          simp only [entry]
        rw [moved, applyRegistryPackageRewrite]
        split
        · rfl
        · simp only [entry, withRepositoryFlag_idem]

theorem rewriteRequest_bare (bare : request.packages = []) :
    rewriteRequest getRecord request = [applyRegistryPackageRewrite getRecord request request.system] := by
  rw [rewriteRequest]
  split
  · next skipped =>
      rw [applyRegistryPackageRewrite, if_pos (by simpa using Or.inl (by simpa using skipped))]
  · simp only [bare]

theorem rewriteRequest_single {specifier : String} (only : request.packages = [specifier]) :
    rewriteRequest getRecord request = [applyRegistryPackageRewrite getRecord request specifier] := by
  rw [rewriteRequest]
  split
  · next skipped =>
      rw [applyRegistryPackageRewrite, if_pos (by rw [skipped, Bool.true_or])]
  · simp only [only]

theorem rewriteRequest_skipped (skipped : (request.system.isEmpty || request.usesLocalTarget) = true) :
    rewriteRequest getRecord request = [request] := by
  rw [rewriteRequest, if_pos skipped]

/-- A request that names packages is cut into one request for each of them. -/
theorem rewriteRequest_named (acts : ¬ (request.system.isEmpty || request.usesLocalTarget) = true)
    (named : request.packages ≠ []) :
    rewriteRequest getRecord request = request.packages.map fun specifier =>
      applyRegistryPackageRewrite getRecord { request with packages := [specifier] } specifier := by
  rw [rewriteRequest, if_neg acts]
  cases packages : request.packages with
  | nil => exact absurd packages named
  | cons specifier rest =>
      cases rest with
      | nil =>
          have same : { request with packages := [specifier] } = request := by rw [← packages]
          simp only [List.map_cons, List.map_nil, same]
      | cons next rest => rfl

/-! ## Every pair is carried over -/

theorem rewritePair_skipped {pair : PackagePair} (skipped : (pair.system.isEmpty || pair.usesLocalTarget) = true) :
    rewritePair getRecord pair = pair := by
  rw [rewritePair, if_pos (by rw [skipped, Bool.true_or])]

theorem asksForItself_named (named : request.packages ≠ []) : asksForItself getRecord request = false := by
  rw [asksForItself, List.isEmpty_eq_false_iff.mpr named]
  rfl

theorem rewriteRequest_pairs :
    (rewriteRequest getRecord request).flatMap Request.pairs =
      (requestedPairs getRecord request).map fun asked => rewritePair getRecord asked.2 := by
  by_cases skipped : (request.system.isEmpty || request.usesLocalTarget) = true
  · have plain : asksForItself getRecord request = false := by
      rw [asksForItself]
      rcases (Bool.or_eq_true _ _).mp skipped with empty | isLocal
      · simp [empty]
      · simp [isLocal]
    have own : ∀ pair ∈ Request.pairs request, rewritePair getRecord pair = pair := by
      intro pair member
      obtain ⟨specifier, -, rfl⟩ := List.mem_map.mp member
      exact rewritePair_skipped skipped
    rw [rewriteRequest_skipped skipped, requestedPairs, plain]
    simp only [List.flatMap_cons, List.flatMap_nil, List.append_nil, Bool.false_eq_true, if_false, List.map_map]
    calc Request.pairs request
        = (Request.pairs request).map id := (List.map_id _).symm
      _ = _ := List.map_congr_left fun pair member => (own pair member).symm
  · by_cases bare : request.packages = []
    · rw [rewriteRequest_bare bare]
      have acts : request.system.isEmpty = false ∧ request.usesLocalTarget = false := by
        simpa using skipped
      cases entry : packageEntry getRecord request.system with
      | none =>
          have plain : asksForItself getRecord request = false := by simp [asksForItself, entry]
          have same : applyRegistryPackageRewrite getRecord request request.system = request := by
            rw [applyRegistryPackageRewrite]
            split
            · rfl
            · simp only [entry]
          simp [requestedPairs, plain, same, Request.pairs, bare]
      | some record =>
          have itself : asksForItself getRecord request = true := by
            simp [asksForItself, entry, bare, acts.1, acts.2]
          have present : ¬ (request.system.isEmpty || request.usesLocalTarget || request.system.isEmpty) = true := by
            simp [acts.1, acts.2]
          rw [requestedPairs, if_pos itself, List.flatMap_singleton, applyRegistryPackageRewrite, if_neg present,
            List.map_singleton, rewritePair]
          simp only [Request.pair, if_neg present, entry]
          rfl
    · rw [rewriteRequest_named skipped bare, requestedPairs, asksForItself_named bare]
      have each : ∀ specifier ∈ request.packages,
          Request.pairs (applyRegistryPackageRewrite getRecord { request with packages := [specifier] } specifier) =
            [rewritePair getRecord (Request.pair request specifier)] :=
        fun specifier _ => pairs_apply rfl
      rw [List.flatMap_map, List.flatMap_congr each]
      simp only [Bool.false_eq_true, if_false, List.map_map, Request.pairs]
      exact List.flatMap_pure_eq_map _ _

theorem rewriteRequests_pairs (requests : List Request) :
    (rewriteRegistryPackageRequests getRecord requests).flatMap Request.pairs =
      (requests.flatMap (requestedPairs getRecord)).map fun asked => rewritePair getRecord asked.2 := by
  rw [rewriteRegistryPackageRequests, List.flatMap_assoc, List.map_flatMap]
  exact List.flatMap_congr fun request _ => rewriteRequest_pairs

/-! ## Rewriting again -/

theorem rewriteRequest_again {rewritten : Request} (member : rewritten ∈ rewriteRequest getRecord request) :
    rewriteRequest getRecord rewritten = [rewritten] := by
  by_cases skipped : (request.system.isEmpty || request.usesLocalTarget) = true
  · rw [rewriteRequest_skipped skipped, List.mem_singleton] at member
    rw [member, rewriteRequest_skipped skipped]
  · by_cases bare : request.packages = []
    · rw [rewriteRequest_bare bare, List.mem_singleton] at member
      -- either nothing happened, or the request now names its package
      rcases @apply_unchanged_or_packages getRecord request request.system with
        same | only
      · rw [member, same, rewriteRequest_bare bare, same]
      · rw [member, rewriteRequest_single only, apply_apply]
    · rw [rewriteRequest_named skipped bare] at member
      obtain ⟨specifier, -, rfl⟩ := List.mem_map.mp member
      rw [rewriteRequest_single (apply_packages rfl), apply_apply]

theorem rewriteRequests_again (requests : List Request) :
    rewriteRegistryPackageRequests getRecord (rewriteRegistryPackageRequests getRecord requests) =
      rewriteRegistryPackageRequests getRecord requests := by
  have each : ∀ rewritten ∈ rewriteRegistryPackageRequests getRecord requests,
      rewriteRequest getRecord rewritten = [rewritten] := by
    intro rewritten member
    obtain ⟨request, -, inside⟩ := List.mem_flatMap.mp member
    exact rewriteRequest_again inside
  calc rewriteRegistryPackageRequests getRecord (rewriteRegistryPackageRequests getRecord requests)
      = (rewriteRegistryPackageRequests getRecord requests).flatMap fun rewritten => [rewritten] :=
        List.flatMap_congr each
    _ = rewriteRegistryPackageRequests getRecord requests := List.flatMap_singleton' _

/-! ## Which pairs stay where they are -/

theorem rewritePair_system {pair : PackagePair} :
    (rewritePair getRecord pair).system = pair.system ↔
      (pair.system ≠ "" → pair.usesLocalTarget = false → pair.specifier ≠ "" →
        ∀ record, packageEntry getRecord pair.specifier = some record → recordTargetSystem record = pair.system) := by
  rw [rewritePair]
  by_cases skipped : (pair.system.isEmpty || pair.usesLocalTarget || pair.specifier.isEmpty) = true
  · rw [if_pos skipped]
    simp only [Bool.or_eq_true, String.isEmpty_iff] at skipped
    refine iff_of_true rfl ?_
    intro system isLocal specifier
    rcases skipped with (empty | present) | empty
    · exact absurd empty system
    · rw [present] at isLocal
      cases isLocal
    · exact absurd empty specifier
  · rw [if_neg skipped]
    simp only [Bool.or_eq_true, String.isEmpty_iff, not_or, Bool.not_eq_true] at skipped
    obtain ⟨⟨system, isLocal⟩, specifier⟩ := skipped
    cases entry : packageEntry getRecord pair.specifier with
    | none => simp
    | some record => simp [system, isLocal, specifier]

theorem requestedPairs_stay :
    (∀ asked ∈ requestedPairs getRecord request, StaysWhereAsked asked (rewritePair getRecord asked.2)) ↔
      NamesItsSystem getRecord request := by
  rw [requestedPairs]
  by_cases itself : asksForItself getRecord request = true
  · have bare : request.packages = [] := by
      by_contra named
      rw [asksForItself_named named] at itself
      cases itself
    rw [if_pos itself]
    refine iff_of_true ?_ ?_
    · intro asked member _
      rw [List.mem_singleton.mp member]
      exact Or.inr rfl
    · intro _ _ _ specifier member
      rw [bare] at member
      cases member
  · rw [if_neg itself, Request.pairs, List.map_map, List.forall_mem_map]
    constructor
    · intro stays system isLocal other specifier member
      have kept : (rewritePair getRecord (Request.pair request specifier)).system = request.system := by
        by_contra moved
        rcases stays specifier member moved with rqp | named
        · exact other rqp
        · cases named
      exact rewritePair_system.1 kept system isLocal
    · intro names specifier member moved
      by_contra other
      rw [not_or] at other
      exact moved (rewritePair_system.2 fun system isLocal => names system isLocal other.1 specifier member)

/-! ## The rewriting -/

/-- Nothing is lost, nothing is redirected, and rewriting again changes nothing. -/
structure RewrittenInPlace (getRecord : String → Option RegistryRecord) (requests : List Request) : Prop where
  keeps : List.Forall₂ (fun asked after => asked.2.Keeps after) (requests.flatMap (requestedPairs getRecord))
    ((rewriteRegistryPackageRequests getRecord requests).flatMap Request.pairs)
  stays : List.Forall₂ StaysWhereAsked (requests.flatMap (requestedPairs getRecord))
    ((rewriteRegistryPackageRequests getRecord requests).flatMap Request.pairs)
  again : rewriteRegistryPackageRequests getRecord (rewriteRegistryPackageRequests getRecord requests) =
    rewriteRegistryPackageRequests getRecord requests

theorem rewriteRequests_keeps (requests : List Request) :
    List.Forall₂ (fun asked after => asked.2.Keeps after) (requests.flatMap (requestedPairs getRecord))
      ((rewriteRegistryPackageRequests getRecord requests).flatMap Request.pairs) := by
  rw [rewriteRequests_pairs, List.forall₂_map_right_iff, List.forall₂_same]
  intro asked _
  exact rewritePair_keeps asked.2

theorem rewriteRequests_stays_iff (requests : List Request) :
    List.Forall₂ StaysWhereAsked (requests.flatMap (requestedPairs getRecord))
        ((rewriteRegistryPackageRequests getRecord requests).flatMap Request.pairs) ↔
      ∀ request ∈ requests, NamesItsSystem getRecord request := by
  rw [rewriteRequests_pairs, List.forall₂_map_right_iff, List.forall₂_same]
  constructor
  · intro stays request member
    exact requestedPairs_stay.1 fun asked inside => stays asked (List.mem_flatMap.mpr ⟨request, member, inside⟩)
  · intro names asked member
    obtain ⟨request, inside, own⟩ := List.mem_flatMap.mp member
    exact requestedPairs_stay.2 (names request inside) asked own

/-- Only a package that another system's package entry has under its name is redirected. -/
theorem rewritten_in_place_iff (getRecord : String → Option RegistryRecord) (requests : List Request) :
    RewrittenInPlace getRecord requests ↔ ∀ request ∈ requests, NamesItsSystem getRecord request :=
  ⟨fun placed => (rewriteRequests_stays_iff requests).mp placed.stays,
    fun names => ⟨rewriteRequests_keeps requests, (rewriteRequests_stays_iff requests).mpr names,
      rewriteRequests_again requests⟩⟩

/-- A package of the repository that `rqp` installs from. -/
def wujiRecord : RegistryRecord := { name := "wuji-ai", role := "package" }

/-- A registry that lists `wuji-ai` as a package. -/
def wujiRegistry (name : String) : Option RegistryRecord := if name = "wuji-ai" then some wujiRecord else none

/-- `install apt wuji-ai` is sent to `rqp`. -/
theorem explicit_package_redirected :
    ¬ RewrittenInPlace wujiRegistry [{ action := .install, system := "apt", packages := ["wuji-ai"] }] := by
  intro placed
  have names := (rewriteRequests_stays_iff _).mp placed.stays _ (List.mem_singleton.mpr rfl)
  have moved := names (by decide) rfl (by decide) "wuji-ai" (List.mem_singleton.mpr rfl) (by decide) wujiRecord
    (by decide +kernel)
  exact absurd moved (by decide +kernel)

end Facts

end ReqPack.Workflow
