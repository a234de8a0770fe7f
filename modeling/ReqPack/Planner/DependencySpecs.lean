import Mathlib.Data.List.DropRight
import ReqPack.Data.Lists
import ReqPack.Planner.Bundle

/-! # The dependency list of a bundle

The manifest keeps every text that is not blank as a dependency.  The specifications are
parsed later, and one that gives no package leaves the bundle without any dependency.
-/

namespace ReqPack.Planner

open ReqPack.Data ReqPack.Core

/-! ## Reading a bundle -/

/-- A value in a Lua table, as far as the manifest looks at it. -/
inductive LuaText where
  | string (value : String)
  | other
deriving Repr, DecidableEq

/-- An element of `packages`. -/
inductive LuaPackage where
  | table (system name version : Option String) (flags : Option (List LuaText))
  | other
deriving Repr, DecidableEq

/-- The table a `reqpack.lua` evaluates to; a field that is no table counts as missing. -/
structure ReqpackTable where
  apiVersion : Option Int
  depends : Option (List LuaText)
  manifests : Option (List LuaText)
  packages : Option (List LuaPackage)
deriving Repr, DecidableEq

/-- The texts of a list, blank ones left out; nothing if something else is in it. -/
def readTexts : List LuaText → Option (List String)
  | [] => some []
  | .other :: _ => none
  | .string value :: rest =>
      let spec := trimCopy value
      if spec.isEmpty then readTexts rest else (readTexts rest).map fun specs => spec :: specs

def readFlags (flags : Option (List LuaText)) : List String :=
  (flags.getD []).filterMap fun flag =>
    match flag with
    | .string value => some value
    | .other => none

def readPackage : LuaPackage → Option ManifestEntry
  | .other => none
  | .table system name version flags => do
      let system ← system
      let name ← name
      if system.isEmpty || name.isEmpty then none
      else some { system := system, name := name, version := version.getD "", flags := readFlags flags }

/-- `parse_reqpack_manifest`, from the table the file evaluates to. -/
def parseReqpackManifest (table : ReqpackTable) : Option PluginBundleManifest := do
  if table.apiVersion ≠ some 1 then none
  else
    let dependencySpecs ← readTexts (table.depends.getD [])
    let nestedManifestPaths ← readTexts (table.manifests.getD [])
    let inlinePackageEntries ← (table.packages.getD []).mapM readPackage
    return { dependencySpecs, nestedManifestPaths, inlinePackageEntries }

structure PluginBundleMetadata where
  formatVersion : Int
  name : String
  version : String
  summary : String
  description : String
  license : String
  sourceUrl : String := ""
  homepage : String := ""
  tags : List String := []
deriving Repr, DecidableEq

/-- What is found in a directory: whether its five files are there, what its metadata say,
and the table of its `reqpack.lua`. -/
structure BundleDirectory where
  isDirectory : Bool
  filesPresent : Bool
  metadata : Option PluginBundleMetadata
  manifest : Option ReqpackTable
deriving Repr, DecidableEq

structure PluginBundleLayout where
  metadata : PluginBundleMetadata
  manifest : PluginBundleManifest
deriving Repr, DecidableEq

/-- `plugin_bundle_read_directory`. -/
def pluginBundleReadDirectory (directory : BundleDirectory) : Option PluginBundleLayout :=
  if !directory.isDirectory || !directory.filesPresent then none
  else do
    let metadata ← directory.metadata
    let table ← directory.manifest
    let manifest ← parseReqpackManifest table
    return { metadata, manifest }

/-! ## Trimmed texts -/

section Trimming

variable {value : String} {letters : List Char}

/-- Nothing blank stands at the ends. -/
structure Trimmed (letters : List Char) : Prop where
  present : letters ≠ []
  front : ∀ letter, letters.head? = some letter → isBlank letter = false
  back : ∀ letter, letters.getLast? = some letter → isBlank letter = false

theorem trimCopy_toList (value : String) : (trimCopy value).toList = (value.toList.dropWhile isBlank).rdropWhile isBlank :=
  String.toList_ofList

theorem trimCopy_ne_empty_iff : trimCopy value ≠ "" ↔ ∃ letter ∈ value.toList, isBlank letter = false := by
  rw [Ne, ← String.toList_eq_nil_iff, trimCopy_toList, List.rdropWhile_eq_nil_iff]
  apply Iff.intro
  · intro visible
    by_contra none
    apply visible
    intro letter member
    by_contra shown
    exact none ⟨letter, List.dropWhile_sublist _ |>.subset member, by simpa using shown⟩
  · intro visible blank
    obtain ⟨letter, member, shown⟩ := visible
    rw [← List.takeWhile_append_dropWhile (p := isBlank) (l := value.toList), List.mem_append] at member
    have hidden : isBlank letter = true := by
      cases member with
      | inl front => exact List.mem_takeWhile_imp front
      | inr back => exact blank letter back
    rw [hidden] at shown
    cases shown

theorem trimmed_trimCopy (present : trimCopy value ≠ "") : Trimmed (trimCopy value).toList := by
  have filled : (trimCopy value).toList ≠ [] := fun empty => present (String.toList_eq_nil_iff.1 empty)
  rw [trimCopy_toList] at filled ⊢
  refine ⟨filled, ?_, ?_⟩
  · intro letter first
    have begins : (value.toList.dropWhile isBlank).head? = some letter := by
      obtain ⟨rest, whole⟩ := List.rdropWhile_prefix isBlank (value.toList.dropWhile isBlank)
      rw [← whole, List.head?_append, first, Option.some_or]
    have visible := List.head?_dropWhile_not isBlank value.toList
    rw [begins] at visible
    exact visible
  · intro letter last
    have visible := List.rdropWhile_last_not isBlank (value.toList.dropWhile isBlank) filled
    rw [List.getLast?_eq_some_getLast filled, Option.some.injEq] at last
    rw [last] at visible
    simpa using visible

theorem trimCopy_of_trimmed (trimmed : Trimmed value.toList) : trimCopy value = value := by
  have front : value.toList.dropWhile isBlank = value.toList := by
    cases shape : value.toList with
    | nil => rfl
    | cons letter rest =>
        have visible : isBlank letter = false := trimmed.front letter (by rw [shape]; rfl)
        exact List.dropWhile_cons_of_neg (by rw [visible]; decide)
  have back : value.toList.rdropWhile isBlank = value.toList := by
    rw [List.rdropWhile_eq_self_iff]
    intro present
    have visible := trimmed.back _ (List.getLast?_eq_some_getLast present)
    rw [visible]
    decide
  apply String.toList_inj.1
  rw [trimCopy_toList, front, back]

end Trimming

/-! ## One specification -/

section Specs

variable {spec packagePart : String} {front back : List Char}

/-- A name begins where the part behind the scope begins. -/
theorem nameAndVersion_ne_empty (trimmed : Trimmed packagePart.toList) : (nameAndVersion packagePart).1 ≠ "" := by
  have own : packagePart ≠ "" := fun empty => trimmed.present (String.toList_eq_nil_iff.2 empty)
  rw [nameAndVersion, splitLast]
  split
  · exact own
  · rename_i name version split
    split
    · exact own
    · rename_i both
      rw [Option.ite_none_right_eq_some, Option.some.injEq, Prod.mk.injEq] at split
      obtain ⟨-, rfl, -⟩ := split
      simp only [Bool.or_eq_true, not_or, String.isEmpty_iff] at both
      have filled := fun empty => both.1 (String.toList_eq_nil_iff.1 empty)
      rw [String.toList_ofList] at filled
      generalize packagePart.toList.length - _ - 1 = count at filled ⊢
      cases shape : packagePart.toList with
      | nil => exact absurd shape trimmed.present
      | cons letter rest =>
          cases count with
          | zero => exact absurd List.take_zero filled
          | succ count =>
              rw [trimCopy_ne_empty_iff, String.toList_ofList, List.take_succ_cons]
              exact ⟨letter, List.mem_cons_self, trimmed.front letter (by rw [shape]; rfl)⟩

theorem dependencyFrom_of_trimmed (system : String) (trimmed : Trimmed packagePart.toList) :
    ∃ package, dependencyFrom system packagePart = some package ∧ package.name ≠ "" ∧ package.system = system := by
  have named := nameAndVersion_ne_empty trimmed
  have filled : ¬ (nameAndVersion packagePart).1.isEmpty = true := by rwa [String.isEmpty_iff]
  rw [dependencyFrom, if_neg filled]
  exact ⟨_, rfl, named, rfl⟩

theorem splitFirst_eq {separator : Char} (split : spec.toList = front ++ separator :: back) (first : separator ∉ front) :
    splitFirst separator spec = some (String.ofList front, String.ofList back) := by
  have taken : (front ++ separator :: back).takeWhile (· != separator) = front := by
    rw [List.takeWhile_append_of_pos, List.takeWhile_cons_of_neg (by simp), List.append_nil]
    intro letter member
    rw [bne_iff_ne]
    intro same
    exact first (same ▸ member)
  have dropped : (front ++ separator :: back).drop (front.length + 1) = back := by
    rw [List.drop_append, List.drop_eq_nil_of_le (Nat.le_succ _), Nat.add_sub_cancel_left]
    rfl
  rw [splitFirst, split, if_pos (by simp), taken]
  simp only [dropped]

/-- The first colon has nothing before it, or nothing behind it. -/
def Halved (spec : String) : Prop :=
  ∃ front back, spec.toList = front ++ ':' :: back ∧ ':' ∉ front ∧ (front = [] ∨ back = [])

/-- A trimmed specification gives a package unless its first colon stands at one of its ends. -/
theorem parseDependencySpec_of_whole (trimmed : Trimmed spec.toList) (whole : ¬ Halved spec) :
    ∃ package, parseDependencySpec spec = some package ∧ package.name ≠ "" ∧
      (':' ∈ spec.toList → package.system ≠ "") := by
  have present : ¬ spec.isEmpty = true := by
    rw [String.isEmpty_iff]
    intro empty
    exact trimmed.present (String.toList_eq_nil_iff.2 empty)
  rw [parseDependencySpec, trimCopy_of_trimmed trimmed, if_neg present]
  by_cases colon : ':' ∈ spec.toList
  · obtain ⟨front, back, split, first⟩ := List.eq_append_cons_of_mem colon
    have scopePresent : front ≠ [] := fun empty => whole ⟨front, back, split, first, Or.inl empty⟩
    have partPresent : back ≠ [] := fun empty => whole ⟨front, back, split, first, Or.inr empty⟩
    have scopeShown : trimCopy (String.ofList front) ≠ "" := by
      obtain ⟨letter, rest, shape⟩ := List.exists_cons_of_ne_nil scopePresent
      rw [trimCopy_ne_empty_iff, String.toList_ofList, shape]
      exact ⟨letter, List.mem_cons_self, trimmed.front letter (by rw [split, shape]; rfl)⟩
    have partShown : trimCopy (String.ofList back) ≠ "" := by
      rw [trimCopy_ne_empty_iff, String.toList_ofList]
      refine ⟨back.getLast partPresent, List.getLast_mem partPresent, trimmed.back _ ?_⟩
      rw [split, List.getLast?_append, List.getLast?_cons, List.getLast?_eq_some_getLast partPresent]
      rfl
    have lower : toLowerCopy (trimCopy (String.ofList front)) ≠ "" := by
      intro empty
      have letters := congrArg String.toList empty
      rw [toLowerCopy, String.toList_ofList] at letters
      exact scopeShown (String.toList_eq_nil_iff.1 (List.map_eq_nil_iff.1 letters))
    have filled : ¬ ((String.ofList front).isEmpty || (String.ofList back).isEmpty) = true := by
      rw [Bool.or_eq_true, String.isEmpty_iff, String.isEmpty_iff, ← String.toList_eq_nil_iff, ← String.toList_eq_nil_iff,
        String.toList_ofList, String.toList_ofList]
      exact not_or.2 ⟨scopePresent, partPresent⟩
    obtain ⟨package, parsed, named, system⟩ :=
      dependencyFrom_of_trimmed (toLowerCopy (trimCopy (String.ofList front))) (trimmed_trimCopy partShown)
    rw [splitFirst_eq split first]
    refine ⟨package, (if_neg filled).trans parsed, named, ?_⟩
    intro _
    rw [system]
    exact lower
  · rw [splitFirst, if_neg colon]
    obtain ⟨package, parsed, named, -⟩ := dependencyFrom_of_trimmed "" trimmed
    exact ⟨package, parsed, named, fun inside => absurd inside colon⟩

theorem parseDependencySpec_of_halved (trimmed : Trimmed spec.toList) (halved : Halved spec) :
    parseDependencySpec spec = none := by
  obtain ⟨front, back, split, first, ends⟩ := halved
  have present : ¬ spec.isEmpty = true := by
    rw [String.isEmpty_iff]
    intro empty
    exact trimmed.present (String.toList_eq_nil_iff.2 empty)
  have missing : ((String.ofList front).isEmpty || (String.ofList back).isEmpty) = true := by
    rw [Bool.or_eq_true, String.isEmpty_iff, String.isEmpty_iff, ← String.toList_eq_nil_iff, ← String.toList_eq_nil_iff,
      String.toList_ofList, String.toList_ofList]
    exact ends
  rw [parseDependencySpec, trimCopy_of_trimmed trimmed, if_neg present, splitFirst_eq split first]
  exact if_pos missing

end Specs

/-! ## The whole list -/

section Bundles

variable {directory : BundleDirectory} {layout : PluginBundleLayout}

/-- Every specification has its package, in order, with a name, and with a system if the
specification has a colon. -/
def HonoursSpecs (manifest : PluginBundleManifest) : Prop :=
  List.Forall₂
    (fun spec package => parseDependencySpec spec = some package ∧ package.name ≠ "" ∧
      (':' ∈ spec.toList → package.system ≠ ""))
    manifest.dependencySpecs (pluginBundleDependencyPackages manifest)

/-- Every text that is kept is trimmed. -/
theorem readTexts_trimmed {values : List LuaText} {specs : List String} (read : readTexts values = some specs) :
    ∀ spec ∈ specs, Trimmed spec.toList := by
  induction values generalizing specs with
  | nil =>
      cases read
      exact List.forall_mem_nil _
  | cons value values ih =>
      cases value with
      | other => cases read
      | string text =>
          rw [readTexts] at read
          split at read
          · exact ih read
          · rename_i present
            rw [String.isEmpty_iff] at present
            obtain ⟨rest, readRest, rfl⟩ := Option.map_eq_some_iff.1 read
            exact List.forall_mem_cons.2 ⟨trimmed_trimCopy present, ih readRest⟩

theorem accepted_trimmed (accepted : pluginBundleReadDirectory directory = some layout) :
    ∀ spec ∈ layout.manifest.dependencySpecs, Trimmed spec.toList := by
  rw [pluginBundleReadDirectory] at accepted
  split at accepted
  · cases accepted
  · simp only [Option.bind_eq_bind, Option.bind_eq_some_iff, Option.pure_def, Option.some.injEq] at accepted
    obtain ⟨metadata, -, table, -, manifest, parsed, rfl⟩ := accepted
    rw [parseReqpackManifest] at parsed
    split at parsed
    · cases parsed
    · simp only [Option.bind_eq_bind, Option.bind_eq_some_iff, Option.pure_def, Option.some.injEq] at parsed
      obtain ⟨specs, read, _, -, _, -, rfl⟩ := parsed
      exact readTexts_trimmed read

/-- The dependencies of a bundle are honoured exactly if the first colon of a specification
never stands at one of its ends. -/
theorem bundle_honours_specs_iff (accepted : pluginBundleReadDirectory directory = some layout) :
    HonoursSpecs layout.manifest ↔ ∀ spec ∈ layout.manifest.dependencySpecs, ¬ Halved spec := by
  have trimmed := accepted_trimmed accepted
  apply Iff.intro
  · intro honours spec member halved
    obtain ⟨package, -, parsed, -⟩ := exists_right_of_forall₂ honours member
    rw [parseDependencySpec_of_halved (trimmed spec member) halved] at parsed
    cases parsed
  · intro whole
    have parses : ∃ packages, List.Forall₂ (fun spec package => parseDependencySpec spec = some package ∧
        package.name ≠ "" ∧ (':' ∈ spec.toList → package.system ≠ "")) layout.manifest.dependencySpecs packages := by
      generalize layout.manifest.dependencySpecs = specs at trimmed whole
      induction specs with
      | nil => exact ⟨[], List.Forall₂.nil⟩
      | cons spec specs ih =>
          rw [List.forall_mem_cons] at trimmed whole
          obtain ⟨package, parsed⟩ := parseDependencySpec_of_whole trimmed.1 whole.1
          obtain ⟨packages, rest⟩ := ih trimmed.2 whole.2
          exact ⟨package :: packages, List.Forall₂.cons parsed rest⟩
    obtain ⟨packages, related⟩ := parses
    have mapped := mapM_eq_some_iff.2 (related.imp fun _ _ both => both.1)
    rw [HonoursSpecs, pluginBundleDependencyPackages, mapped]
    exact related

end Bundles

/-! ## A lone colon -/

def demoMetadata : PluginBundleMetadata where
  formatVersion := 1
  name := "demo"
  version := "1.0.0"
  summary := "demo"
  description := "demo"
  license := "MIT"

/-- A bundle with dependencies. -/
def demoBundle (depends : List String) : BundleDirectory where
  isDirectory := true
  filesPresent := true
  metadata := some demoMetadata
  manifest := some ⟨some 1, some (depends.map LuaText.string), none, none⟩

theorem bundle_honours_specs_demo :
    ∃ layout, pluginBundleReadDirectory (demoBundle ["pip:requests@2", " curl "]) = some layout ∧
      HonoursSpecs layout.manifest := by
  have accepted : pluginBundleReadDirectory (demoBundle ["pip:requests@2", " curl "]) =
      some ⟨demoMetadata, ⟨["pip:requests@2", "curl"], [], []⟩⟩ := by
    decide +kernel
  have parses : ∀ spec ∈ ["pip:requests@2", "curl"], parseDependencySpec spec ≠ none := by
    rw [List.forall_mem_cons, List.forall_mem_singleton]
    decide +kernel
  refine ⟨_, accepted, (bundle_honours_specs_iff accepted).2 ?_⟩
  intro spec member halved
  exact parses spec member (parseDependencySpec_of_halved (accepted_trimmed accepted spec member) halved)

/-- The dependency without a system takes the other one with it. -/
theorem lone_colon_drops_dependencies :
    ¬ ∀ (directory : BundleDirectory) (layout : PluginBundleLayout), pluginBundleReadDirectory directory = some layout →
      HonoursSpecs layout.manifest := by
  intro all
  have accepted : pluginBundleReadDirectory (demoBundle ["pip:requests", ":curl"]) =
      some ⟨demoMetadata, ⟨["pip:requests", ":curl"], [], []⟩⟩ := by
    decide +kernel
  have honours := all _ _ accepted
  have none : pluginBundleDependencyPackages ⟨["pip:requests", ":curl"], [], []⟩ = [] := by decide +kernel
  rw [HonoursSpecs, none] at honours
  cases honours

end ReqPack.Planner
