import ReqPack.Config.CliOverrides
import ReqPack.Remote.Wire

/-! # The text client

The client sends its arguments as one line.  An install command for a local file is
sent as a header line with the file behind it instead, and its path is replaced by a
placeholder in the command the header carries.
-/

namespace ReqPack.Remote

open ReqPack.Data
open ReqPack.Data.Ascii
open ReqPack.Config

/-- What a path leads to on the client's machine; the size of a file is a
`std::uintmax_t`. -/
inductive LocalFile
  | missing
  | irregular
  | regular (content : Bytes) (sized : content.length < 2 ^ 64)
deriving DecidableEq, Repr

structure UploadInstallRequest where
  filePath : Bytes
  filename : Bytes
  commandTemplate : Bytes
  size : Nat
deriving DecidableEq, Repr

/-- The positions of the arguments that are neither configuration flags nor options;
every configuration flag is read on its own. -/
def positionalIndicesFrom : Nat → List Bytes → List Nat
  | _, [] => []
  | index, [argument] =>
      match consumeCliConfigFlag argument none .none with
      | .rejected => if (bytes "--").isPrefixOf argument then [] else [index]
      | .alone _ => []
      | .withValue _ => []
  | index, argument :: value :: rest =>
      match consumeCliConfigFlag argument (some value) .none with
      | .rejected =>
          if (bytes "--").isPrefixOf argument then positionalIndicesFrom (index + 1) (value :: rest)
          else index :: positionalIndicesFrom (index + 1) (value :: rest)
      | .alone _ => positionalIndicesFrom (index + 1) (value :: rest)
      | .withValue _ => positionalIndicesFrom (index + 2) rest

def positionalIndices (arguments : List Bytes) : List Nat := positionalIndicesFrom 1 arguments.tail

/-- The command with the path at `index` replaced by the placeholder. -/
def uploadTemplate (arguments : List Bytes) (index : Nat) : Bytes :=
  joinArguments (arguments.set index remoteUploadPathPlaceholder)

def detectUploadInstallRequest (files : Bytes → LocalFile) (arguments : List Bytes) :
    Except Bytes (Option UploadInstallRequest) :=
  if parseActionToken (arguments.headD []) ≠ .install then .ok none
  else
    match positionalIndices arguments with
    | _ :: index :: more =>
        let localPath := arguments.getD index []
        match files localPath with
        | .missing => .ok none
        | .irregular => .error (bytes "remote upload only supports regular files")
        | .regular content _ =>
            if more.isEmpty then
              .ok (some { filePath := localPath, filename := pathFilename localPath,
                          commandTemplate := uploadTemplate arguments index, size := content.length })
            else .error (bytes "remote upload supports one local file per install command")
    | _ => .ok none

/-- The line `send_upload_install_request` sends ahead of the file. -/
def uploadHeader (request : UploadInstallRequest) : Bytes :=
  joinArguments [remoteUploadInstallCommand, toDecimal request.size, request.filename, request.commandTemplate]

theorem positionalIndicesFrom_bounds {index position : Nat} {arguments : List Bytes}
    (listed : position ∈ positionalIndicesFrom index arguments) :
    index ≤ position ∧ position < index + arguments.length := by
  fun_induction positionalIndicesFrom index arguments with
  | case1 => simp at listed
  | case2 => simp at listed
  | case3 => simp at listed; simp [listed]
  | case4 => simp at listed
  | case5 => simp at listed
  | case6 index argument value rest _ _ ih =>
      have inside := ih listed
      simp only [List.length_cons] at inside ⊢
      omega
  | case7 index argument value rest _ _ ih =>
      rcases List.mem_cons.mp listed with rfl | later
      · simp
      · have inside := ih later
        simp only [List.length_cons] at inside ⊢
        omega
  | case8 index argument value rest _ _ ih =>
      have inside := ih listed
      simp only [List.length_cons] at inside ⊢
      omega
  | case9 index argument value rest _ _ ih =>
      have inside := ih listed
      simp only [List.length_cons] at inside ⊢
      omega

theorem positionalIndicesFrom_sorted (index : Nat) (arguments : List Bytes) :
    (positionalIndicesFrom index arguments).Pairwise (· < ·) := by
  fun_induction positionalIndicesFrom index arguments with
  | case1 | case2 | case3 | case4 | case5 => simp
  | case6 index argument value rest _ _ ih => exact ih
  | case7 index argument value rest _ _ ih =>
      refine List.pairwise_cons.mpr ⟨fun position later => ?_, ih⟩
      have inside := positionalIndicesFrom_bounds later
      omega
  | case8 index argument value rest _ _ ih => exact ih
  | case9 index argument value rest _ _ ih => exact ih

/-- The file of an upload stands behind the command and one more argument. -/
theorem detect_eq_some {files : Bytes → LocalFile} {arguments : List Bytes} {request : UploadInstallRequest}
    (detected : detectUploadInstallRequest files arguments = .ok (some request)) :
    ∃ first index, positionalIndices arguments = [first, index] ∧ 1 < index ∧ index < arguments.length ∧
      ∃ content sized, files (arguments.getD index []) = .regular content sized ∧
        request = { filePath := arguments.getD index [], filename := pathFilename (arguments.getD index []),
                    commandTemplate := uploadTemplate arguments index, size := content.length } := by
  simp only [detectUploadInstallRequest] at detected
  split at detected
  · cases detected
  · split at detected
    · rename_i first index more positions
      split at detected
      · cases detected
      · cases detected
      · rename_i content sized found
        split at detected
        · rename_i alone
          have last : more = [] := List.isEmpty_iff.mp alone
          subst more
          have sorted : ([first, index] : List Nat).Pairwise (· < ·) :=
            positions ▸ positionalIndicesFrom_sorted 1 arguments.tail
          have inside := @positionalIndicesFrom_bounds 1 index arguments.tail
            (by rw [show positionalIndicesFrom 1 arguments.tail = [first, index] from positions]; simp)
          have front := @positionalIndicesFrom_bounds 1 first arguments.tail
            (by rw [show positionalIndicesFrom 1 arguments.tail = [first, index] from positions]; simp)
          simp only [List.pairwise_cons, List.mem_singleton, forall_eq] at sorted
          simp only [List.length_tail] at inside front
          refine ⟨first, index, positions, ?_, ?_, content, sized, found, ?_⟩
          · have ordered := sorted.1
            omega
          · omega
          · simpa using detected.symm
        · cases detected
    · cases detected

/-- The command of an upload has several arguments, so that a blank stands between them. -/
theorem space_mem_uploadTemplate {arguments : List Bytes} {index : Nat} (behind : 0 < index)
    (inside : index < arguments.length) : space ∈ uploadTemplate arguments index := by
  have length : (arguments.set index remoteUploadPathPlaceholder).length = arguments.length := List.length_set
  rw [uploadTemplate]
  match arguments.set index remoteUploadPathPlaceholder, length with
  | [], length =>
      simp only [List.length_nil] at length
      omega
  | [_], length =>
      simp only [List.length_singleton] at length
      omega
  | first :: second :: rest, _ => simp [joinArguments, List.intercalate_cons_cons]

end ReqPack.Remote
