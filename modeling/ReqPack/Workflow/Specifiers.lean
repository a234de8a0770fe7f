import ReqPack.Planner.Plan
import ReqPack.Workflow.Rewrite

/-! # The readers of a package specifier

The planner, the registry lookup, the reports of a run with nothing to do and the list
filter each cut a specifier into a name and a version on their own.
-/

namespace ReqPack.Workflow

open ReqPack.Core ReqPack.Planner ReqPack.Registry

/-- The name in `collect_request_item_ids` and `build_already_satisfied_json`. -/
def itemName (specifier : String) : String :=
  match splitLast '@' specifier with
  | none => specifier
  | some (name, _) => if name.isEmpty then specifier else name

/-- The version in the same two; a separator in front does not keep it from being one. -/
def itemVersion (specifier : String) : String :=
  match splitLast '@' specifier with
  | none => ""
  | some (_, version) => version

section Reports

-- The registry names the system, and the status is the one of a skipped action.
variable (resolvePluginName : String → String) (statusSkipped : ActionType → String)

/-- The requests that are reported item by item. -/
def isReported (request : Request) : Bool := request.action == .install || request.action == .ensure

def collectRequestItemIds (requests : List Request) : List String :=
  requests.flatMap fun request =>
    let system := resolvePluginName request.system
    if !isReported request then []
    else if request.usesLocalTarget then [system ++ ":local"]
    else
      request.packages.map fun specifier =>
        if (itemVersion specifier).isEmpty then system ++ ":" ++ itemName specifier
        else system ++ ":" ++ itemName specifier ++ "@" ++ itemVersion specifier

structure RunResultJsonItem where
  system : String := ""
  name : String := ""
  version : String := ""
  status : String := ""
deriving Repr, DecidableEq

structure RunResultJsonDocument where
  ok : Bool
  dryRun : Bool
  items : List RunResultJsonItem
deriving Repr, DecidableEq

def buildAlreadySatisfiedJson (requests : List Request) (action : ActionType) (dryRun : Bool) :
    RunResultJsonDocument where
  ok := true
  dryRun := dryRun
  items := requests.flatMap fun request =>
    let system := resolvePluginName request.system
    if !isReported request then []
    else if request.usesLocalTarget then [{ system := system, name := "local", status := statusSkipped action }]
    else
      request.packages.map fun specifier =>
        { system := system, name := itemName specifier, version := itemVersion specifier,
          status := statusSkipped action }

end Reports

section ListFilter

/-- The fields of a `PackageInfo` the list filter reads. -/
structure PackageInfo where
  name : String := ""
  packageId : String := ""
deriving Repr, DecidableEq

def iequals (left right : String) : Bool := left.toList.map Char.toLower == right.toList.map Char.toLower

def packageInfoMatchesListFilter (info : PackageInfo) (requestedName : String) : Bool :=
  if requestedName.isEmpty then false
  else
    (!info.name.isEmpty && iequals info.name requestedName) ||
    (!info.packageId.isEmpty && iequals info.packageId requestedName) ||
    (!info.packageId.isEmpty && requestedName.length + 1 < info.packageId.length &&
      iequals (String.ofList (info.packageId.toList.take requestedName.length)) requestedName &&
      info.packageId.toList[requestedName.length]? == some '@')

/-- The name in `apply_requested_package_subset`: it ends at the first separator. -/
def listedName (specifier : String) : String :=
  match splitFirst '@' specifier with
  | none => specifier
  | some (name, _) => name

def applyRequestedPackageSubset (results : List PackageInfo) (packageSpecifiers : List String) : List PackageInfo :=
  if packageSpecifiers.isEmpty then results
  else
    results.filter fun info =>
      !(info.name.isEmpty && info.packageId.isEmpty) &&
        (packageSpecifiers.map listedName).any (packageInfoMatchesListFilter info)

end ListFilter

/-- Every reader takes a specifier for the name and the version the planner gives it, and
the planner reads what it wrote. -/
structure MeansTheSame (specifier : String) : Prop where
  registry : ∀ getRecord request resolvedSystem,
    packageEntry getRecord specifier =
      (getRecord (plannerMakeRequestedPackage request resolvedSystem specifier).name).filter isPackageEntry
  itemIds : ∀ resolvePluginName request, isReported request = true → request.usesLocalTarget = false →
    request.packages = [specifier] →
    collectRequestItemIds resolvePluginName [request] =
      [packageItemId (resolvePluginName request.system)
        (plannerMakeRequestedPackage request (resolvePluginName request.system) specifier)]
  satisfiedItems : ∀ resolvePluginName statusSkipped request action dryRun, isReported request = true →
    request.usesLocalTarget = false → request.packages = [specifier] →
    (buildAlreadySatisfiedJson resolvePluginName statusSkipped [request] action dryRun).items =
      [plannerMakeRequestedPackage request (resolvePluginName request.system) specifier].map fun package =>
        { system := package.system, name := package.name, version := package.version,
          status := statusSkipped action }
  listed : ∀ results request resolvedSystem,
    applyRequestedPackageSubset results [specifier] =
      results.filter fun info => packageInfoMatchesListFilter info
        (plannerMakeRequestedPackage request resolvedSystem specifier).name
  reencoded : ∀ request resolvedSystem again againResolved,
    let package := plannerMakeRequestedPackage request resolvedSystem specifier
    let reread := plannerMakeRequestedPackage again againResolved (plannerPackageSpecifierFromPackage package)
    reread.name = package.name ∧ reread.version = package.version

/-- No separator, or a single one between a name and a version. -/
def Unambiguous (specifier : String) : Prop :=
  '@' ∉ specifier.toList ∨ ∃ name version, name ≠ "" ∧ version ≠ "" ∧
    '@' ∉ name.toList ∧ '@' ∉ version.toList ∧ specifier = name ++ "@" ++ version

section Splitting

variable {specifier front back : String}

theorem toList_at (front back : String) : (front ++ "@" ++ back).toList = front.toList ++ '@' :: back.toList := by
  simp

theorem splitLast_eq_none_iff : splitLast '@' specifier = none ↔ '@' ∉ specifier.toList := by
  simp [splitLast]

theorem splitFirst_eq_none_iff : splitFirst '@' specifier = none ↔ '@' ∉ specifier.toList := by
  simp [splitFirst]

theorem splitLast_eq_some (split : splitLast '@' specifier = some (front, back)) :
    specifier = front ++ "@" ++ back ∧ '@' ∉ back.toList := by
  simp only [splitLast, Option.ite_none_right_eq_some, Option.some.injEq, Prod.mk.injEq] at split
  obtain ⟨present, rfl, rfl⟩ := split
  refine ⟨String.toList_inj.mp ?_, fun member => ?_⟩
  · rw [toList_at, String.toList_ofList, String.toList_ofList]
    exact split_at_last present
  · rw [String.toList_ofList, List.mem_reverse] at member
    simpa using List.mem_takeWhile_imp member

theorem splitFirst_eq_some (split : splitFirst '@' specifier = some (front, back)) :
    specifier = front ++ "@" ++ back ∧ '@' ∉ front.toList := by
  simp only [splitFirst, Option.ite_none_right_eq_some, Option.some.injEq, Prod.mk.injEq] at split
  obtain ⟨present, rfl, rfl⟩ := split
  have parts := List.takeWhile_append_dropWhile (p := (· != '@')) (l := specifier.toList)
  refine ⟨String.toList_inj.mp ?_, fun member => ?_⟩
  · rw [toList_at, String.toList_ofList, String.toList_ofList]
    cases rest : specifier.toList.dropWhile (· != '@') with
    | nil =>
        have all := List.dropWhile_eq_nil_iff.mp rest '@' present
        simp at all
    | cons found others =>
        have same : found = '@' := by
          have stopped := List.head?_dropWhile_not (· != '@') specifier.toList
          simpa [rest] using stopped
        rw [rest, same] at parts
        generalize specifier.toList.takeWhile (· != '@') = letters at parts ⊢
        rw [← parts]
        simp
  · rw [String.toList_ofList] at member
    simpa using List.mem_takeWhile_imp member

/-- A text with one separator is cut there from either end. -/
theorem splits_at (inFront : '@' ∉ front.toList) (behind : '@' ∉ back.toList) :
    splitLast '@' (front ++ "@" ++ back) = some (front, back) ∧
      splitFirst '@' (front ++ "@" ++ back) = some (front, back) := by
  have present : '@' ∈ (front ++ "@" ++ back).toList := by simp
  have unique : ∀ {other rest : String}, front ++ "@" ++ back = other ++ "@" ++ rest → other = front ∧ rest = back := by
    intro other rest same
    have letters := congrArg String.toList same
    rw [toList_at, toList_at, List.append_cons_inj_of_notMem inFront behind] at letters
    exact ⟨(String.toList_inj.mp letters.1).symm, (String.toList_inj.mp letters.2.2).symm⟩
  constructor
  · cases split : splitLast '@' (front ++ "@" ++ back) with
    | none => exact absurd present (splitLast_eq_none_iff.1 split)
    | some parts =>
        obtain ⟨named, numbered⟩ := unique (splitLast_eq_some split).1
        rw [← named, ← numbered]
  · cases split : splitFirst '@' (front ++ "@" ++ back) with
    | none => exact absurd present (splitFirst_eq_none_iff.1 split)
    | some parts =>
        obtain ⟨named, numbered⟩ := unique (splitFirst_eq_some split).1
        rw [← named, ← numbered]

theorem requested_of_none (split : splitLast '@' specifier = none) (request : Request) (resolvedSystem : String) :
    (plannerMakeRequestedPackage request resolvedSystem specifier).name = specifier ∧
      (plannerMakeRequestedPackage request resolvedSystem specifier).version = "" := by
  have absent := splitLast_eq_none_iff.1 split
  simp [plannerMakeRequestedPackage, absent]

theorem requested_of_some (split : splitLast '@' specifier = some (front, back)) (request : Request)
    (resolvedSystem : String) :
    let package := plannerMakeRequestedPackage request resolvedSystem specifier
    (package.name, package.version) = if front.isEmpty || back.isEmpty then (specifier, "") else (front, back) := by
  simp only [splitLast, Option.ite_none_right_eq_some, Option.some.injEq, Prod.mk.injEq] at split
  obtain ⟨present, named, numbered⟩ := split
  have empty : ∀ letters : List Char, (String.ofList letters).isEmpty = letters.isEmpty := fun letters => by
    cases letters <;> simp
  rw [← named, ← numbered]
  simp only [plannerMakeRequestedPackage, present, not_true_eq_false, decide_false, Bool.false_or, empty]
  split <;> rfl

end Splitting

section Agreement

variable {specifier name : String}

/-- The reading of a specifier does not depend on the request it stands in. -/
theorem requested_reading (request again : Request) (resolvedSystem againResolved specifier : String) :
    (plannerMakeRequestedPackage request resolvedSystem specifier).name =
        (plannerMakeRequestedPackage again againResolved specifier).name ∧
      (plannerMakeRequestedPackage request resolvedSystem specifier).version =
        (plannerMakeRequestedPackage again againResolved specifier).version := by
  simp only [plannerMakeRequestedPackage]
  split <;> exact ⟨rfl, rfl⟩

theorem requested_system (request : Request) (resolvedSystem specifier : String) :
    (plannerMakeRequestedPackage request resolvedSystem specifier).system = resolvedSystem := by
  simp only [plannerMakeRequestedPackage]
  split <;> rfl

theorem readings_of_unambiguous (unambiguous : Unambiguous specifier) :
    ∃ name version, registryLookupName specifier = name ∧ itemName specifier = name ∧
      itemVersion specifier = version ∧ listedName specifier = name ∧
      ∀ request resolvedSystem, (plannerMakeRequestedPackage request resolvedSystem specifier).name = name ∧
        (plannerMakeRequestedPackage request resolvedSystem specifier).version = version := by
  rcases unambiguous with absent | ⟨name, version, named, numbered, inFront, behind, rfl⟩
  · have last := splitLast_eq_none_iff.2 absent
    have first := splitFirst_eq_none_iff.2 absent
    refine ⟨specifier, "", ?_, ?_, ?_, ?_, requested_of_none last⟩
    · rw [registryLookupName, last]
    · rw [itemName, last]
    · rw [itemVersion, last]
    · rw [listedName, first]
  · obtain ⟨last, first⟩ := splits_at inFront behind
    have plain : name.isEmpty = false ∧ version.isEmpty = false := by
      simpa [String.isEmpty_iff] using And.intro named numbered
    refine ⟨name, version, ?_, ?_, ?_, ?_, fun request resolvedSystem => ?_⟩
    · simp [registryLookupName, last, plain.1]
    · simp [itemName, last, plain.1]
    · rw [itemVersion, last]
    · rw [listedName, first]
    · have parts := requested_of_some last request resolvedSystem
      simpa [plain.1, plain.2] using parts

/-- An entry without a name and an id passes no filter. -/
theorem matches_of_unnamed {info : PackageInfo} (unnamed : (info.name.isEmpty && info.packageId.isEmpty) = true)
    (requestedName : String) : packageInfoMatchesListFilter info requestedName = false := by
  rw [Bool.and_eq_true] at unnamed
  simp [packageInfoMatchesListFilter, unnamed.1, unnamed.2]

theorem subset_eq_filter (results : List PackageInfo) (specifier : String) :
    applyRequestedPackageSubset results [specifier] =
      results.filter fun info => packageInfoMatchesListFilter info (listedName specifier) := by
  unfold applyRequestedPackageSubset
  rw [if_neg (by simp)]
  congr 1
  funext info
  cases unnamed : info.name.isEmpty && info.packageId.isEmpty with
  | true => simp [matches_of_unnamed unnamed]
  | false => simp

theorem meansTheSame_of_unambiguous (unambiguous : Unambiguous specifier) : MeansTheSame specifier := by
  obtain ⟨name, version, lookup, itemNamed, itemNumbered, listed, requested⟩ := readings_of_unambiguous unambiguous
  constructor
  case registry =>
    intro getRecord request resolvedSystem
    rw [packageEntry, lookup, (requested request resolvedSystem).1]
  case itemIds =>
    intro resolvePluginName request reported remote only
    simp [collectRequestItemIds, reported, remote, only, itemNamed, itemNumbered, packageItemId, requested]
  case satisfiedItems =>
    intro resolvePluginName statusSkipped request action dryRun reported remote only
    simp [buildAlreadySatisfiedJson, reported, remote, only, itemNamed, itemNumbered, requested, requested_system]
  case listed =>
    intro results request resolvedSystem
    rw [subset_eq_filter, listed, (requested request resolvedSystem).1]
  case reencoded =>
    intro request resolvedSystem again againResolved
    dsimp only
    rw [plannerPackageSpecifierFromPackage_requested]
    exact requested_reading again request againResolved resolvedSystem specifier

theorem length_of_iequals {left right : String} (same : iequals left right = true) : left.length = right.length := by
  have letters : left.toList.map Char.toLower = right.toList.map Char.toLower := by simpa [iequals] using same
  simpa [String.length_toList] using congrArg List.length letters

/-- A filter that keeps an entry with just a name is as long as that name. -/
theorem length_of_matches_named
    (kept : packageInfoMatchesListFilter { name := name } specifier = true) : name.length = specifier.length := by
  simp only [packageInfoMatchesListFilter] at kept
  split at kept
  · cases kept
  · have same : name.isEmpty = false ∧ iequals name specifier = true := by simpa using kept
    exact length_of_iequals same.2

theorem matches_self (named : name ≠ "") : packageInfoMatchesListFilter { name := name } name = true := by
  have plain : name.isEmpty = false := by simpa [String.isEmpty_iff] using named
  simp [packageInfoMatchesListFilter, plain, iequals]

/-- Filters that keep the same entries are equally long, unless one of them keeps none. -/
theorem length_listedName
    (listed : ∀ results, applyRequestedPackageSubset results [specifier] =
      results.filter fun info => packageInfoMatchesListFilter info name) (named : name ≠ "") :
    (listedName specifier).length = name.length := by
  have only := listed [{ name := name }]
  rw [subset_eq_filter, List.filter_cons, List.filter_cons, if_pos (matches_self named)] at only
  split at only
  · rename_i kept
    exact (length_of_matches_named kept).symm
  · cases only

theorem unambiguous_of_listed
    (listed : ∀ results request resolvedSystem,
      applyRequestedPackageSubset results [specifier] =
        results.filter fun info => packageInfoMatchesListFilter info
          (plannerMakeRequestedPackage request resolvedSystem specifier).name) : Unambiguous specifier := by
  by_cases absent : '@' ∉ specifier.toList
  · exact Or.inl absent
  obtain ⟨⟨name, version⟩, last⟩ := Option.ne_none_iff_exists'.mp (mt splitLast_eq_none_iff.1 absent)
  obtain ⟨⟨front, rest⟩, first⟩ := Option.ne_none_iff_exists'.mp (mt splitFirst_eq_none_iff.1 absent)
  obtain ⟨whole, behind⟩ := splitLast_eq_some last
  obtain ⟨early, inFront⟩ := splitFirst_eq_some first
  have cut : listedName specifier = front := by rw [listedName, first]
  have reading := requested_of_some last {} ""
  have filters := fun results => listed results {} ""
  right
  split at reading
  · rename_i edge
    obtain ⟨named, -⟩ := Prod.mk.inj reading
    rw [named] at filters
    have size := length_listedName filters (by rw [whole]; simp)
    have one : "@".length = 1 := rfl
    rw [cut, early, String.length_append, String.length_append] at size
    omega
  · rename_i inside
    obtain ⟨named, -⟩ := Prod.mk.inj reading
    obtain ⟨present, numbered⟩ : name ≠ "" ∧ version ≠ "" := by simpa [String.isEmpty_iff] using inside
    rw [named] at filters
    have size := length_listedName filters present
    rw [cut] at size
    have letters : front.toList ++ '@' :: rest.toList = name.toList ++ '@' :: version.toList := by
      rw [← toList_at, ← toList_at, ← early, ← whole]
    have same := List.append_inj_left letters (by simpa [String.length_toList] using size)
    exact ⟨name, version, present, numbered, same ▸ inFront, behind, whole⟩

/-- The readers of a specifier agree exactly when it holds no separator, or one between a
name and a version. -/
theorem meansTheSame_iff_unambiguous (specifier : String) : MeansTheSame specifier ↔ Unambiguous specifier :=
  ⟨fun same => unambiguous_of_listed same.listed, meansTheSame_of_unambiguous⟩

/-- A scoped package has its name as a version in the reports, and is never listed. -/
theorem scoped_package_is_split : ¬ MeansTheSame "@scope/pkg" := by
  intro same
  have listed := same.listed [{ name := "@scope/pkg" }] {} "npm"
  exact absurd listed (by decide +kernel)

end Agreement

end ReqPack.Workflow
