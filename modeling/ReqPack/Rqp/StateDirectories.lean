import Mathlib.Data.List.DropRight
import ReqPack.Data.Lists
import ReqPack.Rqp.Extraction
import ReqPack.Rqp.MetadataRoundTrip
import ReqPack.Rqp.StateStore

/-! # Names of state directories

`load_package_layout_impl` puts the state of a package under its name and its identity below
the state root.  Both come from the metadata of an archive.
-/

namespace ReqPack.Rqp

open ReqPack.Data
open ReqPack.Data.Ascii
open ReqPack.Data.FileSystem

/-- `layout.stateDir`. -/
def packageStateDir (stateRoot : Bytes) (package : RqPackageId) : Bytes :=
  joinPath (joinPath stateRoot package.name) (rqPackageIdentity package)

/-! ## What the paths should be -/

/-- The components of a path; doubled slashes and those at the end do not count. -/
def dirParts (path : Bytes) : List (FileSystem.Part Bytes) :=
  ((path.splitOn slash).filter fun component => !component.isEmpty).map nativePart

/-- Both paths are absolute, or none of them. -/
def SameStart (path other : Bytes) : Prop := path.head? = some slash ↔ other.head? = some slash

/-- Two texts are the same path. -/
def SamePath (path other : Bytes) : Prop := SameStart path other ∧ dirParts path = dirParts other

/-- A path two names below a directory. -/
def TwoBelow (directory path : Bytes) : Prop :=
  SameStart path directory ∧ ∃ first second, dirParts path = dirParts directory ++ [.name first, .name second]

/-- A name that is one component of a path, and a version within one. -/
structure PlainId (package : RqPackageId) : Prop where
  name : isDirectoryName package.name = true
  version : slash ∉ package.version

/-- The identity in front of the release. -/
def packageText (package : RqPackageId) : Bytes := package.name ++ bytes "@" ++ package.version

/-- A path up to its last slash. -/
def pathFront (path : Bytes) : Bytes := path.rdropWhile (· != slash)

/-- A package with a plain name, or with an absolute one that points to a place below the root. -/
def Placed (stateRoot : Bytes) (package : RqPackageId) : Prop :=
  if package.name.head? = some slash then
    stateRoot.head? = some slash ∧ ∃ first, dirParts (pathFront (packageText package)) = dirParts stateRoot ++ [.name first]
  else PlainId package

/-- The directory the state directory lies in. -/
def homeParts (stateRoot : Bytes) (package : RqPackageId) : List (FileSystem.Part Bytes) :=
  (if package.name.head? = some slash then [] else dirParts stateRoot ++ dirParts package.name) ++
    dirParts (pathFront (packageText package))

/-- A text and a number behind a dash are written like another two: the sign of the number may be
the end of the other text. -/
def SignedAlike (text : Bytes) (number : Int) (other : Bytes) (next : Int) : Prop :=
  (text = other ∧ number = next) ∨ (other = text ++ bytes "-" ∧ number < 0 ∧ next = -number) ∨
    (text = other ++ bytes "-" ∧ next < 0 ∧ number = -next)

/-- Two packages that are written alike below the root. -/
def Alike (stateRoot : Bytes) (left right : RqPackageId) : Prop :=
  homeParts stateRoot left = homeParts stateRoot right ∧ left.revision = right.revision ∧
    SignedAlike (pathFilename (packageText left)) left.release (pathFilename (packageText right)) right.release

section Digits

variable {value other : Int} {c : UInt8} {text : Bytes}

theorem mem_intText (member : c ∈ intText value) : c = 45 ∨ isDigit c = true := by
  rw [intText] at member
  split at member
  · obtain same | digit := List.mem_cons.1 member
    · exact Or.inl same
    · exact Or.inr (isDigit_of_mem_toDecimal digit)
  · exact Or.inr (isDigit_of_mem_toDecimal member)

theorem not_mem_intText (noSign : c ≠ 45) (noDigit : isDigit c = false) : c ∉ intText value := by
  intro member
  obtain same | digit := mem_intText member
  · exact noSign same
  · rw [noDigit] at digit
    cases digit

theorem toDecimal_inj {left right : Nat} (same : toDecimal left = toDecimal right) : left = right := by
  rw [← decimalValue_toDecimal left, same, decimalValue_toDecimal]

theorem sign_not_mem_toDecimal (value : Nat) : 45 ∉ toDecimal value := by
  intro member
  have digit := isDigit_of_mem_toDecimal member
  cases digit

theorem signed_shape (text : Bytes) (value : Int) :
    text ++ 45 :: intText value = (if value < 0 then text ++ [45] else text) ++ 45 :: toDecimal value.natAbs := by
  rw [intText]
  split
  · simp
  · rfl

end Digits

section Cutting

theorem cut_at_last {separator : UInt8} {front other back rest : Bytes} (backPlain : separator ∉ back)
    (restPlain : separator ∉ rest) (same : front ++ separator :: back = other ++ separator :: rest) :
    front = other ∧ back = rest := by
  have reversed := congrArg List.reverse same
  simp only [List.reverse_append, List.reverse_cons, List.append_assoc, List.singleton_append] at reversed
  have backs : back.reverse = rest.reverse := by
    have taken := congrArg (List.takeWhile (· != separator)) reversed
    rwa [takeWhile_ne_cut (by simpa using backPlain), takeWhile_ne_cut (by simpa using restPlain)] at taken
  have backSame := List.reverse_inj.1 backs
  rw [backSame, List.append_cancel_right_eq] at same
  exact ⟨same, backSame⟩

theorem signed_eq_iff {text other : Bytes} {number next : Int} :
    text ++ 45 :: intText number = other ++ 45 :: intText next ↔ SignedAlike text number other next := by
  have minus : bytes "-" = [45] := by decide
  have cut : text ++ 45 :: intText number = other ++ 45 :: intText next ↔
      (if number < 0 then text ++ [45] else text) = (if next < 0 then other ++ [45] else other) ∧
        number.natAbs = next.natAbs := by
    rw [signed_shape, signed_shape]
    apply Iff.intro
    · intro same
      obtain ⟨texts, digits⟩ := cut_at_last (sign_not_mem_toDecimal _) (sign_not_mem_toDecimal _) same
      exact ⟨texts, toDecimal_inj digits⟩
    · intro same
      rw [same.1, same.2]
  rw [cut, SignedAlike, minus]
  by_cases negative : number < 0
  · by_cases below : next < 0
    · rw [if_pos negative, if_pos below, List.append_cancel_right_eq]
      have same : number.natAbs = next.natAbs ↔ number = next := by omega
      have unturned : next ≠ -number ∧ number ≠ -next := by omega
      simp [same, unturned]
    · rw [if_pos negative, if_neg below]
      have turned : number.natAbs = next.natAbs ↔ next = -number := by omega
      have apart : number ≠ next := by omega
      simp [turned, apart, negative, below, eq_comm]
  · by_cases below : next < 0
    · rw [if_neg negative, if_pos below]
      have turned : number.natAbs = next.natAbs ↔ number = -next := by omega
      have apart : number ≠ next := by omega
      simp [turned, apart, negative, below]
    · rw [if_neg negative, if_neg below]
      have same : number.natAbs = next.natAbs ↔ number = next := by omega
      simp [same, negative, below]

theorem intText_inj {value other : Int} (same : intText value = intText other) : value = other := by
  have signed : ([] : Bytes) ++ 45 :: intText value = [] ++ 45 :: intText other := by rw [same]
  obtain ⟨_, values⟩ | ⟨longer, _⟩ | ⟨longer, _⟩ := signed_eq_iff.1 signed
  · exact values
  · cases longer
  · cases longer

end Cutting

section Components

variable {path other front back name base : Bytes}

theorem isDirectoryName_iff : isDirectoryName name = true ↔ name ≠ [] ∧ slash ∉ name ∧ name ≠ bytes "." ∧ name ≠ bytes ".." := by
  simp [isDirectoryName, and_assoc]

theorem dirParts_slash (front back : Bytes) : dirParts (front ++ slash :: back) = dirParts front ++ dirParts back := by
  rw [dirParts, List.splitOn_append_cons_self, List.filter_append, List.map_append, dirParts, dirParts]

theorem dirParts_nil : dirParts [] = [] := rfl

theorem dirParts_single (filled : name ≠ []) (unbroken : slash ∉ name) : dirParts name = [nativePart name] := by
  have kept : [name].filter (fun component => !component.isEmpty) = [name] := by simp [filled]
  rw [dirParts, List.splitOn_eq_singleton unbroken, kept, List.map_singleton]

theorem nativePart_name (plain : isDirectoryName name = true) : nativePart name = .name name := by
  obtain ⟨-, -, noDot, noDots⟩ := isDirectoryName_iff.1 plain
  rw [nativePart, if_neg noDot, if_neg noDots]

theorem dirParts_name (plain : isDirectoryName name = true) : dirParts name = [.name name] := by
  obtain ⟨filled, unbroken, -⟩ := isDirectoryName_iff.1 plain
  rw [dirParts_single filled unbroken, nativePart_name plain]

theorem dirParts_join (base name : Bytes) :
    dirParts (joinPath base name) = if name.head? = some slash then dirParts name else dirParts base ++ dirParts name := by
  rw [joinPath]
  by_cases absolute : name.head? = some slash
  · rw [if_pos (by simpa using absolute), if_pos absolute]
  · rw [if_neg (by simpa using absolute), if_neg absolute]
    split
    · rename_i closed
      rw [Bool.or_eq_true, List.isEmpty_iff, beq_iff_eq] at closed
      obtain empty | ends := closed
      · rw [empty, dirParts_nil, List.nil_append, List.nil_append]
      · obtain ⟨front, same⟩ := List.getLast?_eq_some_iff.1 ends
        rw [same, List.append_assoc, List.singleton_append, dirParts_slash, dirParts_slash, dirParts_nil, List.append_nil]
    · exact dirParts_slash base name

theorem head?_join :
    (joinPath base name).head? = some slash ↔ name.head? = some slash ∨ base.head? = some slash := by
  rw [joinPath]
  by_cases absolute : name.head? = some slash
  · rw [if_pos (by simpa using absolute)]
    simp [absolute]
  · rw [if_neg (by simpa using absolute)]
    cases base with
    | nil => simp
    | cons first rest =>
        split
        · simp [absolute]
        · simp [absolute]

theorem dirParts_ne_nil (filled : path ≠ []) (relative : path.head? ≠ some slash) : dirParts path ≠ [] := by
  by_cases broken : slash ∈ path
  · obtain ⟨front, back, same, unbroken⟩ := List.eq_append_cons_of_mem broken
    have named : front ≠ [] := by
      intro empty
      rw [same, empty] at relative
      exact relative rfl
    rw [same, dirParts_slash, dirParts_single named unbroken]
    exact List.cons_ne_nil _ _
  · rw [dirParts_single filled broken]
    exact List.cons_ne_nil _ _

theorem pathFront_append (path : Bytes) : pathFront path ++ pathFilename path = path := by
  rw [pathFront, pathFilename, List.rdropWhile, List.rtakeWhile, ← List.reverse_append, List.takeWhile_append_dropWhile,
    List.reverse_reverse]

theorem not_mem_pathFilename (path : Bytes) : slash ∉ pathFilename path := by
  intro member
  have apart := List.mem_rtakeWhile_imp member
  simp at apart

theorem pathFront_unbroken (unbroken : slash ∉ path) : pathFront path = [] :=
  List.rdropWhile_eq_nil_iff.2 (all_ne unbroken)

theorem pathFront_cases (path : Bytes) :
    (pathFront path = [] ∧ slash ∉ path) ∨ ∃ front, pathFront path = front ++ [slash] ∧ path = front ++ slash :: pathFilename path := by
  by_cases broken : slash ∈ path
  · obtain ⟨front, back, same, unbroken⟩ := exists_last_of_mem broken
    have cut : pathFront path = front ++ [slash] := by
      rw [pathFront, same, List.rdropWhile, List.reverse_append, List.reverse_cons, List.append_assoc,
        List.singleton_append, List.dropWhile_append_of_pos (by simpa using all_ne unbroken),
        List.dropWhile_cons_of_neg (by simp), List.reverse_cons, List.reverse_reverse]
    refine Or.inr ⟨front, cut, ?_⟩
    have whole := pathFront_append path
    rw [cut, List.append_assoc, List.singleton_append] at whole
    exact whole.symm
  · exact Or.inl ⟨pathFront_unbroken broken, broken⟩

end Components

section Places

variable {directory : Bytes} {package left right : RqPackageId}

/-- The number behind the version, as the identity shows it. -/
def releaseText (package : RqPackageId) : Bytes := 45 :: intText package.release ++ 43 :: 114 :: intText package.revision

theorem identity_shape (package : RqPackageId) : rqPackageIdentity package = packageText package ++ releaseText package := by
  have minus : bytes "-" = [45] := by decide
  have plus : bytes "+r" = [43, 114] := by decide
  rw [rqPackageIdentity, installedVersionString, packageText, releaseText, minus, plus]
  simp

theorem not_mem_releaseText (package : RqPackageId) : slash ∉ releaseText package := by
  have number : ∀ value, 47 ∉ intText value := fun value => not_mem_intText (by decide) (by decide)
  simp [releaseText, slash, number]

theorem lastName_plain (package : RqPackageId) :
    isDirectoryName (pathFilename (packageText package) ++ releaseText package) = true := by
  have marked : 43 ∈ pathFilename (packageText package) ++ releaseText package := by simp [releaseText]
  rw [isDirectoryName_iff, List.mem_append, not_or]
  refine ⟨List.ne_nil_of_mem marked, ⟨not_mem_pathFilename _, not_mem_releaseText package⟩, ?_, ?_⟩
  · intro same
    rw [same] at marked
    exact absurd marked (by decide)
  · intro same
    rw [same] at marked
    exact absurd marked (by decide)

theorem dirParts_identity (package : RqPackageId) :
    dirParts (rqPackageIdentity package) =
      dirParts (pathFront (packageText package)) ++ [.name (pathFilename (packageText package) ++ releaseText package)] := by
  rw [identity_shape]
  obtain ⟨empty, unbroken⟩ | ⟨front, cut, whole⟩ := pathFront_cases (packageText package)
  · have text : packageText package = pathFilename (packageText package) := by
      have whole := pathFront_append (packageText package)
      rw [empty, List.nil_append] at whole
      exact whole.symm
    rw [empty, dirParts_nil, List.nil_append, ← dirParts_name (lastName_plain package), ← text]
  · rw [cut, dirParts_slash, dirParts_nil, List.append_nil, ← dirParts_name (lastName_plain package), ← dirParts_slash]
    congr 1
    conv_lhs => rw [whole]
    simp

theorem dirParts_packageStateDir (root : Bytes) (named : package.name ≠ []) :
    dirParts (packageStateDir root package) =
      homeParts root package ++ [.name (pathFilename (packageText package) ++ releaseText package)] := by
  have leading : (rqPackageIdentity package).head? = package.name.head? := by
    rw [rqPackageIdentity, List.append_assoc, List.head?_append_of_ne_nil _ named]
  rw [packageStateDir, dirParts_join, leading, dirParts_identity, homeParts]
  split
  · rw [List.nil_append]
  · rename_i relative
    rw [dirParts_join, if_neg relative, List.append_assoc, List.append_assoc, List.append_assoc]

theorem head?_packageStateDir (root : Bytes) (named : package.name ≠ []) :
    (packageStateDir root package).head? = some slash ↔ package.name.head? = some slash ∨ root.head? = some slash := by
  have leading : (rqPackageIdentity package).head? = package.name.head? := by
    rw [rqPackageIdentity, List.append_assoc, List.head?_append_of_ne_nil _ named]
  rw [packageStateDir, head?_join, head?_join, leading]
  tauto

theorem home_relative_iff (named : package.name ≠ []) (relative : package.name.head? ≠ some slash) :
    (∃ first, dirParts package.name ++ dirParts (pathFront (packageText package)) = [.name first]) ↔ PlainId package := by
  have mark : slash ∉ bytes "@" := by decide
  have text : slash ∈ packageText package ↔ slash ∈ package.name ∨ slash ∈ package.version := by
    rw [packageText, List.mem_append, List.mem_append]
    simp [mark]
  apply Iff.intro
  · intro ⟨value, single⟩
    obtain ⟨part, rest, parts⟩ := List.exists_cons_of_ne_nil (dirParts_ne_nil named relative)
    rw [parts, List.cons_append, List.cons.injEq, List.append_eq_nil_iff] at single
    obtain ⟨first, last, none⟩ := single
    have leading : (packageText package).head? = package.name.head? := by
      rw [packageText, List.append_assoc, List.head?_append_of_ne_nil _ named]
    -- a slash would leave a component in front of it
    have unbroken : slash ∉ packageText package := by
      obtain ⟨-, unbroken⟩ | ⟨front, cut, whole⟩ := pathFront_cases (packageText package)
      · exact unbroken
      · have filled : front ≠ [] := by
          intro empty
          rw [whole, empty, List.nil_append, List.head?_cons] at leading
          exact absurd leading.symm relative
        have start : front.head? ≠ some slash := by
          rw [whole, List.head?_append_of_ne_nil _ filled] at leading
          rwa [leading]
        rw [cut, dirParts_slash, dirParts_nil, List.append_nil] at none
        exact absurd none (dirParts_ne_nil filled start)
    rw [text, not_or] at unbroken
    rw [dirParts_single named unbroken.1, List.cons.injEq] at parts
    have native : nativePart package.name = .name value := parts.1.trans first
    refine ⟨isDirectoryName_iff.2 ⟨named, unbroken.1, ?_, ?_⟩, unbroken.2⟩
    · intro same
      rw [same] at native
      cases native
    · intro same
      rw [same] at native
      cases native
  · intro plain
    have unbroken : slash ∉ packageText package := by
      rw [text, not_or]
      exact ⟨(isDirectoryName_iff.1 plain.name).2.1, plain.version⟩
    rw [pathFront_unbroken unbroken, dirParts_nil, List.append_nil, dirParts_name plain.name]
    exact ⟨_, rfl⟩

/-- Which packages have their state two names below the root. -/
theorem twoBelow_iff (root : Bytes) (named : package.name ≠ []) :
    TwoBelow root (packageStateDir root package) ↔ Placed root package := by
  have shape : ∀ above : List (FileSystem.Part Bytes),
      (∃ first second, homeParts root package ++ [.name (pathFilename (packageText package) ++ releaseText package)] =
        above ++ [.name first, .name second]) ↔ ∃ first, homeParts root package = above ++ [.name first] := by
    intro above
    apply Iff.intro
    · intro ⟨first, second, same⟩
      rw [List.append_cons above] at same
      exact ⟨first, (List.append_inj' same rfl).1⟩
    · intro ⟨first, same⟩
      rw [same]
      exact ⟨first, _, List.append_assoc _ _ _⟩
  rw [TwoBelow, SameStart, head?_packageStateDir root named, dirParts_packageStateDir root named, shape, Placed, homeParts]
  by_cases absolute : package.name.head? = some slash
  · rw [if_pos absolute, if_pos absolute, List.nil_append]
    simp [absolute]
  · rw [if_neg absolute, if_neg absolute, ← home_relative_iff named absolute]
    simp [absolute]

theorem lastName_eq_iff :
    pathFilename (packageText left) ++ releaseText left = pathFilename (packageText right) ++ releaseText right ↔
      left.revision = right.revision ∧
        SignedAlike (pathFilename (packageText left)) left.release (pathFilename (packageText right)) right.release := by
  have plain : ∀ value : Int, 43 ∉ 114 :: intText value := by
    intro value
    rw [List.mem_cons, not_or]
    exact ⟨by decide, not_mem_intText (by decide) (by decide)⟩
  have shape : ∀ (text : Bytes) (package : RqPackageId), text ++ releaseText package =
      (text ++ 45 :: intText package.release) ++ 43 :: (114 :: intText package.revision) := by
    intro text package
    simp [releaseText]
  rw [shape, shape, ← signed_eq_iff]
  apply Iff.intro
  · intro same
    obtain ⟨front, back⟩ := cut_at_last (plain _) (plain _) same
    exact ⟨intText_inj (List.cons.inj back).2, front⟩
  · intro same
    rw [same.1, same.2]

theorem samePath_iff {root : Bytes} (leftNamed : left.name ≠ []) (rightNamed : right.name ≠ [])
    (leftPlaced : Placed root left) (rightPlaced : Placed root right) :
    SamePath (packageStateDir root left) (packageStateDir root right) ↔ Alike root left right := by
  have leftStart := ((twoBelow_iff root leftNamed).2 leftPlaced).1
  have rightStart := ((twoBelow_iff root rightNamed).2 rightPlaced).1
  have started : SameStart (packageStateDir root left) (packageStateDir root right) := leftStart.trans rightStart.symm
  rw [SamePath, and_iff_right started, dirParts_packageStateDir root leftNamed, dirParts_packageStateDir root rightNamed, Alike,
    ← lastName_eq_iff]
  apply Iff.intro
  · intro same
    obtain ⟨homes, names⟩ := List.append_inj' same rfl
    exact ⟨homes, by simpa using names⟩
  · intro same
    rw [same.1, same.2]

theorem alike_plain_iff (root : Bytes) (leftPlain : PlainId left) (rightPlain : PlainId right) :
    Alike root left right ↔ left.name = right.name ∧ left.revision = right.revision ∧
      SignedAlike left.version left.release right.version right.release := by
  have whole : ∀ {package}, PlainId package → slash ∉ packageText package := by
    intro package plain
    have mark : slash ∉ bytes "@" := by decide
    rw [packageText, List.mem_append, List.mem_append, not_or, not_or]
    exact ⟨⟨(isDirectoryName_iff.1 plain.name).2.1, mark⟩, plain.version⟩
  have home : ∀ {package}, PlainId package → homeParts root package = dirParts root ++ [.name package.name] := by
    intro package plain
    have relative : package.name.head? ≠ some slash := by
      intro absolute
      exact (isDirectoryName_iff.1 plain.name).2.1 (List.mem_of_mem_head? absolute)
    rw [homeParts, if_neg relative, pathFront_unbroken (whole plain), dirParts_nil, List.append_nil, dirParts_name plain.name]
  have text : ∀ {package}, PlainId package → pathFilename (packageText package) = packageText package := by
    intro package plain
    have cut := pathFront_append (packageText package)
    rwa [pathFront_unbroken (whole plain), List.nil_append] at cut
  rw [Alike, home leftPlain, home rightPlain, text leftPlain, text rightPlain, List.append_cancel_left_eq]
  have names : [Part.name left.name] = [Part.name right.name] ↔ left.name = right.name := by simp
  rw [names]
  refine and_congr_right fun same => and_congr_right fun _ => ?_
  rw [packageText, packageText, same, SignedAlike, SignedAlike, List.append_cancel_left_eq, List.append_assoc _ left.version,
    List.append_assoc _ right.version, List.append_cancel_left_eq, List.append_cancel_left_eq]

end Places

/-! ## The directories of archives -/

/-- Where the states of archives lie whose metadata was accepted, and which of them meet. -/
theorem state_directories {readTree : Bytes → Option Ptree} {leftText rightText : Bytes} {left right : RqMetadata}
    (leftRead : rqParseMetadataJson readTree leftText = .ok left) (rightRead : rqParseMetadataJson readTree rightText = .ok right)
    (root : Bytes) :
    (TwoBelow root (packageStateDir root left.packageId) ↔ Placed root left.packageId) ∧
      (Placed root left.packageId → Placed root right.packageId →
        (SamePath (packageStateDir root left.packageId) (packageStateDir root right.packageId) ↔
          Alike root left.packageId right.packageId)) ∧
      (PlainId left.packageId → PlainId right.packageId →
        (Alike root left.packageId right.packageId ↔ left.name = right.name ∧ left.revision = right.revision ∧
          SignedAlike left.version left.release right.version right.release)) := by
  have leftNamed : left.packageId.name ≠ [] := List.isEmpty_eq_false_iff.1 (accepted_of_parse leftRead).name
  have rightNamed : right.packageId.name ≠ [] := List.isEmpty_eq_false_iff.1 (accepted_of_parse rightRead).name
  exact ⟨twoBelow_iff root leftNamed, samePath_iff leftNamed rightNamed, alike_plain_iff root⟩

/-! ### Two releases in one directory -/

def signedMetadata (version : Bytes) (release : Int) : RqMetadata := { richMetadata [] with version, release }

def signedReader (text : Bytes) : Option Ptree :=
  if text = rqMetadataJson id (signedMetadata (bytes "1.0") (-1)) then
    some (metadataDocument (signedMetadata (bytes "1.0") (-1))).tree
  else if text = rqMetadataJson id (signedMetadata (bytes "1.0-") 1) then
    some (metadataDocument (signedMetadata (bytes "1.0-") 1)).tree
  else none

theorem signedMetadata_plain {version : Bytes} (unbroken : slash ∉ version) (release : Int) :
    PlainId (signedMetadata version release).packageId :=
  ⟨(by decide : isDirectoryName (bytes "rich") = true), unbroken⟩

theorem state_directories_signed :
    SamePath (packageStateDir (bytes "/state") (signedMetadata (bytes "1.0") (-1)).packageId)
      (packageStateDir (bytes "/state") (signedMetadata (bytes "1.0-") 1).packageId) := by
  have leftRead : rqParseMetadataJson signedReader (rqMetadataJson id (signedMetadata (bytes "1.0") (-1))) =
      .ok (signedMetadata (bytes "1.0") (-1)) := by decide +kernel
  have rightRead : rqParseMetadataJson signedReader (rqMetadataJson id (signedMetadata (bytes "1.0-") 1)) =
      .ok (signedMetadata (bytes "1.0-") 1) := by decide +kernel
  have leftPlain := signedMetadata_plain (by decide : slash ∉ bytes "1.0") (-1)
  have rightPlain := signedMetadata_plain (by decide : slash ∉ bytes "1.0-") 1
  obtain ⟨-, meets, alike⟩ := state_directories leftRead rightRead (bytes "/state")
  have relative : (bytes "rich").head? ≠ some slash := by decide
  refine (meets ((if_neg relative).mpr leftPlain) ((if_neg relative).mpr rightPlain)).2 ((alike leftPlain rightPlain).2 ?_)
  exact ⟨rfl, rfl, Or.inr (Or.inl ⟨by decide, by decide, by decide⟩)⟩

end ReqPack.Rqp
