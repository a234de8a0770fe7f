import Mathlib.Data.List.TakeWhile
import ReqPack.Planner.Bundle

/-! # The names of archives

An archive is known by the end of its file name.  An encryption wrapper is one more end
behind it.
-/

namespace ReqPack.Archive

open ReqPack.Planner

/-- `filename` of a path: what stands behind its last slash. -/
def fileName (path : String) : String :=
  match splitLast '/' path with
  | none => path
  | some (_, name) => name

/-- `suffixes`, and the `compressedSuffixes` that are tried after them. -/
def archiveSuffixes : List String :=
  [".pkg.tar.zst", ".pkg.tar.xz", ".pkg.tar.gz", ".tar.gz", ".tar.bz2", ".tar.xz", ".tar.zst",
    ".tgz", ".tbz2", ".txz", ".tzst", ".zip", ".7z", ".tar", ".gz", ".bz2", ".xz", ".zst"]

def wrapperSuffixes : List String := [".gpg", ".pgp"]

/-- The first of the suffixes the file name ends in, whatever the case of its letters. -/
def suffixAmong (suffixes : List String) (path : String) : String :=
  (suffixes.find? fun suffix => suffix.toList.isSuffixOf (toLowerCopy (fileName path)).toList).getD ""

def genericArchiveSuffix (path : String) : String := suffixAmong archiveSuffixes path

def archiveWrapperSuffix (path : String) : String := suffixAmong wrapperSuffixes path

def isGenericArchivePath (path : String) : Bool := !(genericArchiveSuffix path).isEmpty

def isArchiveWrapperPath (path : String) : Bool := !(archiveWrapperSuffix path).isEmpty

section FileNames

variable {name : String}

theorem fileName_child (directory : String) (plain : '/' ∉ name.toList) : fileName (directory ++ "/" ++ name) = name := by
  have letters : (directory ++ "/" ++ name).toList = directory.toList ++ '/' :: name.toList := by simp
  have back : (directory.toList ++ '/' :: name.toList).reverse.takeWhile (· != '/') = name.toList.reverse := by
    rw [List.reverse_append, List.reverse_cons, List.append_assoc, List.takeWhile_append_of_pos]
    · simp
    · intro letter member
      rw [bne_iff_ne]
      rintro rfl
      exact plain (List.mem_reverse.mp member)
  have split : (splitLast '/' (directory ++ "/" ++ name)).map Prod.snd = some name := by
    simp only [splitLast, letters, back]
    simp
  rw [fileName]
  cases parts : splitLast '/' (directory ++ "/" ++ name) with
  | none => simp [parts] at split
  | some found => simpa [parts] using split

/-- Without a slash the name is the whole path. -/
theorem fileName_plain (plain : '/' ∉ name.toList) : fileName name = name := by
  simp [fileName, splitLast, plain]

theorem splitLast_back_plain {separator : Char} {value front back : String}
    (split : splitLast separator value = some (front, back)) : separator ∉ back.toList := by
  intro member
  simp only [splitLast, Option.ite_none_right_eq_some, Option.some.injEq, Prod.mk.injEq] at split
  obtain ⟨_, _, rfl⟩ := split
  rw [String.toList_ofList, List.mem_reverse] at member
  simpa using List.mem_takeWhile_imp member

theorem fileName_slashless (path : String) : '/' ∉ (fileName path).toList := by
  rw [fileName]
  split
  · rename_i none
    simpa [splitLast] using none
  · rename_i front back split
    exact splitLast_back_plain split

theorem suffixAmong_child (suffixes : List String) (directory : String) (plain : '/' ∉ name.toList) :
    suffixAmong suffixes (directory ++ "/" ++ name) = suffixAmong suffixes name := by
  rw [suffixAmong, suffixAmong, fileName_child directory plain, fileName_plain plain]

end FileNames

end ReqPack.Archive
