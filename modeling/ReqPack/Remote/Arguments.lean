import ReqPack.Remote.Uploads

/-! # Remote arguments survive the wire -/

namespace ReqPack.Remote

open ReqPack.Data
open ReqPack.Data.Ascii

/-- An argument the server would take for the path of the upload. -/
def holdsPlaceholder (argument : Bytes) : Bool :=
  (splitFirst remoteUploadPathPlaceholder argument).isSome

section Substitution

variable {arguments front back : List Bytes} {argument path : Bytes} {parts : Bytes × Bytes}

theorem inserted_ordered (front back : List Bytes) (argument path : Bytes) (parts : Bytes × Bytes) :
    (front.map Piece.argument ++ Piece.inserted argument path parts :: back.map Piece.argument).Pairwise
      fun first later => first.Closed ∨ later.Absorbed := by
  rw [List.pairwise_append]
  refine ⟨Piece.arguments_ordered front, List.pairwise_cons.mpr ⟨?_, Piece.arguments_ordered back⟩, ?_⟩
  · intro later member
    obtain ⟨value, _, rfl⟩ := List.mem_map.mp member
    exact Or.inr (Piece.argument_absorbed value)
  · intro first member _ _
    obtain ⟨value, _, rfl⟩ := List.mem_map.mp member
    exact Or.inl (Piece.argument_closed value)

/-- The tokens of the command in which the path replaced the placeholder. -/
theorem tokenize_inserted_iff (ordinary : path.getLast? ≠ some backslash)
    (named : ∀ value ∈ front ++ back, value ≠ []) (filled : path ≠ []) {expected : List Bytes}
    (heavy : listWeight expected = listWeight (front ++ (parts.1 ++ path ++ parts.2) :: back)) :
    tokenizeCommandLine (Piece.joinTexts (front.map Piece.argument ++
        Piece.inserted argument path parts :: back.map Piece.argument)) = expected ↔
      ((∀ value ∈ front ++ back, survives value = true) ∧
        (Piece.inserted argument path parts).intact = true) ∧
      front ++ (parts.1 ++ path ++ parts.2) :: back = expected := by
  have values : (front.map Piece.argument ++ Piece.inserted argument path parts ::
      back.map Piece.argument).map Piece.value = front ++ (parts.1 ++ path ++ parts.2) :: back := by
    simp [Piece.inserted_value, Piece.argument, Function.comp_def]
  rw [← values] at heavy ⊢
  rw [tokenize_pieces_iff (by simp) ?_ ?_ (inserted_ordered front back argument path parts) heavy]
  · simp only [List.all_append, List.all_cons, List.all_map, Bool.and_eq_true, List.all_eq_true,
      Function.comp_apply, Piece.argument, List.mem_append]
    constructor
    · intro holds
      exact ⟨⟨fun value member => member.elim (holds.1.1 value) (holds.1.2.2 value), holds.1.2.1⟩, holds.2⟩
    · intro holds
      exact ⟨⟨fun value member => holds.1.1 value (Or.inl member), holds.1.2,
        fun value member => holds.1.1 value (Or.inr member)⟩, holds.2⟩
  · intro piece member
    simp only [List.mem_append, List.mem_map, List.mem_cons] at member
    rcases member with ⟨value, _, rfl⟩ | rfl | ⟨value, _, rfl⟩
    · exact Piece.argument_measured value
    · exact Piece.inserted_measured ordinary argument parts
    · exact Piece.argument_measured value
  · intro piece member
    simp only [List.mem_append, List.mem_map, List.mem_cons] at member
    rcases member with ⟨value, listed, rfl⟩ | rfl | ⟨value, listed, rfl⟩
    · exact named value (List.mem_append_left _ listed)
    · rw [Piece.inserted_value]
      simp [filled]
    · exact named value (List.mem_append_right _ listed)

theorem exists_first_placeholder (present : front.any holdsPlaceholder = true) :
    ∃ before argument parts behind, front = before ++ argument :: behind ∧
      (∀ earlier ∈ before, splitFirst remoteUploadPathPlaceholder earlier = none) ∧
      splitFirst remoteUploadPathPlaceholder argument = some parts := by
  induction front with
  | nil => simp at present
  | cons first front ih =>
      cases found : splitFirst remoteUploadPathPlaceholder first with
      | some parts => exact ⟨[], first, parts, front, rfl, by simp, found⟩
      | none =>
          have later : front.any holdsPlaceholder = true := by
            simpa [holdsPlaceholder, found] using present
          obtain ⟨before, argument, parts, behind, whole, clear, holds⟩ := ih later
          refine ⟨first :: before, argument, parts, behind, by simp [whole], ?_, holds⟩
          intro earlier member
          rcases List.mem_cons.mp member with rfl | rest
          · exact found
          · exact clear earlier rest

/-- The uploaded path takes the place of the local one exactly when nothing else is
damaged or replaced. -/
theorem substitute_arrives_iff (ordinary : path.getLast? ≠ some backslash) (filled : path ≠ [])
    (other : path ≠ remoteUploadPathPlaceholder) (named : ∀ value ∈ front ++ back, value ≠ []) :
    (substituteUploadPath (joinArguments (front ++ remoteUploadPathPlaceholder :: back)) path).map
        tokenizeCommandLine = some (front ++ path :: back) ↔
      (∀ value ∈ front ++ back, survives value = true) ∧ front.any holdsPlaceholder = false ∧
        path.any isSpecial = false := by
  by_cases present : front.any holdsPlaceholder = true
  · obtain ⟨before, argument, parts, behind, rfl, clear, found⟩ := exists_first_placeholder present
    have whole := splitFirst_eq_some found
    have shape : before ++ argument :: behind ++ remoteUploadPathPlaceholder :: back =
        before ++ argument :: (behind ++ remoteUploadPathPlaceholder :: back) := by simp
    have namedRest : ∀ value ∈ before ++ (behind ++ remoteUploadPathPlaceholder :: back), value ≠ [] := by
      intro value member
      simp only [List.mem_append, List.mem_cons] at member
      rcases member with earlier | later | rfl | last
      · exact named value (by simp [earlier])
      · exact named value (by simp [later])
      · exact placeholder_present
      · exact named value (by simp [last])
    have heavy : listWeight (before ++ argument :: behind ++ path :: back) =
        listWeight (before ++ (parts.1 ++ path ++ parts.2) :: (behind ++ remoteUploadPathPlaceholder :: back)) := by
      rw [whole]
      simp only [listWeight_append, listWeight_cons, tokenWeight, List.length_append]
      omega
    rw [shape, substitute_joinArguments clear found, Option.map_some, Option.some_inj,
      tokenize_inserted_iff ordinary namedRest filled heavy]
    simp only [present, Bool.true_eq_false, false_and, and_false, iff_false, not_and]
    -- the placeholder is still there behind the argument that got the path
    intro _ same
    have rest : (parts.1 ++ path ++ parts.2) :: (behind ++ remoteUploadPathPlaceholder :: back) =
        argument :: (behind ++ path :: back) :=
      List.append_cancel_left (same.trans (by simp))
    have tails := List.append_cancel_left (List.cons.inj rest).2
    exact other (List.cons.inj tails).1.symm
  · have clear : ∀ earlier ∈ front, splitFirst remoteUploadPathPlaceholder earlier = none := by
      intro earlier member
      have absent := List.any_eq_false.mp (Bool.eq_false_iff.mpr present) earlier member
      simpa [holdsPlaceholder] using absent
    have found : splitFirst remoteUploadPathPlaceholder remoteUploadPathPlaceholder = some ([], []) := by
      simpa using splitFirst_self placeholder_present []
    rw [substitute_joinArguments clear found, Option.map_some, Option.some_inj,
      tokenize_inserted_iff ordinary named filled (by simp)]
    simp [present, Piece.inserted, placeholder_bare, Piece.raw]

end Substitution

section Paths

/-- A file name as it is stored on the server. -/
def isNameByte (c : UInt8) : Bool := isAlnum c || c == 46 || c == 95 || c == 45

theorem isNameByte_plain {c : UInt8} (named : isNameByte c = true) : isSpecial c = false := by
  simp only [isNameByte, isAlnum, Bool.or_eq_true, Bool.and_eq_true, decide_eq_true_eq, beq_iff_eq,
    UInt8.le_iff_toNat_le] at named
  simp only [isSpecial, isSpace, Bool.or_eq_false_iff, beq_eq_false_iff_ne, Bool.and_eq_false_iff,
    decide_eq_false_iff_not, UInt8.le_iff_toNat_le, ne_eq, ← UInt8.toNat_inj]
  rw [← UInt8.toNat_inj, ← UInt8.toNat_inj, ← UInt8.toNat_inj] at named
  simp only [UInt8.reduceToNat, backslash, singleQuote, doubleQuote, space] at named ⊢
  omega

theorem sanitize_nameBytes (filename : Bytes) : ∀ c ∈ sanitizeUploadFilename filename, isNameByte c = true := by
  intro c member
  simp only [sanitizeUploadFilename] at member
  split at member
  · have plain : (bytes "upload.bin").all isNameByte = true := by decide
    exact List.all_eq_true.mp plain c member
  · obtain ⟨original, _, rfl⟩ := List.mem_map.mp member
    split
    · rename_i kept
      simpa [isNameByte] using kept
    · decide

theorem sanitize_ne_nil (filename : Bytes) : sanitizeUploadFilename filename ≠ [] := by
  simp only [sanitizeUploadFilename]
  split
  · decide
  · rename_i present
    simpa using present

theorem joinPath_relative {name : Bytes} (base : Bytes) (relative : name.head? ≠ some slash) :
    ∃ separator, (separator = [] ∨ separator = [slash]) ∧ joinPath base name = base ++ separator ++ name := by
  simp only [joinPath, beq_iff_eq, relative, if_false]
  split
  · exact ⟨[], Or.inl rfl, by simp⟩
  · exact ⟨[slash], Or.inr rfl, by simp⟩

/-- The path of an upload: the directory for temporary files, and text of the server's own. -/
theorem uploadPath_shape (tempDirectory : Bytes) (uniquePrefix : Nat) (filename : Bytes) :
    ∃ own, uploadPath tempDirectory uniquePrefix filename =
        tempDirectory ++ own ++ sanitizeUploadFilename filename ∧
      own.any isSpecial = false ∧ slash ∈ own := by
  obtain ⟨first, firstKind, firstShape⟩ := @joinPath_relative (bytes "reqpack") tempDirectory (by decide)
  have second : joinPath (joinPath tempDirectory (bytes "reqpack")) (bytes "remote-upload") =
      joinPath tempDirectory (bytes "reqpack") ++ slash :: bytes "remote-upload" := by
    have last : (tempDirectory ++ first ++ bytes "reqpack").getLast? = some 107 := by
      rw [List.getLast?_append]
      rfl
    rw [joinPath, if_neg (by decide), firstShape, last]
    simp [show bytes "reqpack" ≠ [] by decide, show (107 : UInt8) ≠ slash by decide]
  have third : (toDecimal uniquePrefix ++ 45 :: sanitizeUploadFilename filename).head? ≠ some slash := by
    obtain ⟨digit, digits, shape⟩ := List.exists_cons_of_ne_nil (toDecimal_ne_nil uniquePrefix)
    have numeric := @isDigit_of_mem_toDecimal uniquePrefix digit (by simp [shape])
    rw [shape]
    simp only [List.cons_append, List.head?_cons, ne_eq, Option.some.injEq]
    rintro rfl
    exact absurd numeric (by decide)
  obtain ⟨last, lastKind, lastShape⟩ := @joinPath_relative _
    (joinPath (joinPath tempDirectory (bytes "reqpack")) (bytes "remote-upload")) third
  refine ⟨first ++ bytes "reqpack" ++ slash :: bytes "remote-upload" ++ last ++
    (toDecimal uniquePrefix ++ [45]), ?_, ?_, by simp⟩
  · rw [uploadPath, lastShape, second, firstShape]
    simp
  · have separators : ∀ separator, (separator = [] ∨ separator = [slash]) →
        separator.any isSpecial = false := by
      intro separator kind
      rcases kind with rfl | rfl <;> decide
    simp only [List.any_append, List.any_cons, separators first firstKind, separators last lastKind,
      toDecimal_plain]
    decide

variable {tempDirectory filename : Bytes} {uniquePrefix : Nat}

theorem uploadPath_plain_iff :
    (uploadPath tempDirectory uniquePrefix filename).any isSpecial = false ↔
      tempDirectory.any isSpecial = false := by
  obtain ⟨own, shape, plain, _⟩ := uploadPath_shape tempDirectory uniquePrefix filename
  have name : (sanitizeUploadFilename filename).any isSpecial = false := by
    rw [List.any_eq_false]
    intro c member
    simp [isNameByte_plain (sanitize_nameBytes filename c member)]
  rw [shape, List.any_append, List.any_append, plain, name]
  simp

theorem uploadPath_ends :
    (uploadPath tempDirectory uniquePrefix filename).getLast? ≠ some backslash := by
  obtain ⟨own, shape, _, _⟩ := uploadPath_shape tempDirectory uniquePrefix filename
  rw [shape, List.getLast?_append, List.getLast?_eq_some_getLast (sanitize_ne_nil filename), Option.some_or,
    ne_eq, Option.some.injEq]
  intro same
  have named := sanitize_nameBytes filename _ (List.getLast_mem (sanitize_ne_nil filename))
  rw [same] at named
  exact absurd named (by decide)

theorem uploadPath_other : uploadPath tempDirectory uniquePrefix filename ≠ remoteUploadPathPlaceholder := by
  obtain ⟨own, shape, _, holds⟩ := uploadPath_shape tempDirectory uniquePrefix filename
  intro same
  have member : slash ∈ remoteUploadPathPlaceholder := by
    rw [← same, shape]
    simp [holds]
  exact absurd member (by decide)

end Paths

/-- The server recovers the command of an upload from the header and gets the client's
arguments with the stored file in the place of the local one. -/
def UploadArrives (request : UploadInstallRequest) (arguments : List Bytes) (index : Nat)
    (tempDirectory : Bytes) (uniquePrefix : Nat) : Prop :=
  ∃ envelope, parseUploadInstallEnvelope (tokenizeCommandLine (uploadHeader request)) = some envelope ∧
    envelope.commandTemplate = request.commandTemplate ∧
    (substituteUploadPath envelope.commandTemplate
        (uploadPath tempDirectory uniquePrefix envelope.filename)).map tokenizeCommandLine =
      some (arguments.set index (uploadPath tempDirectory uniquePrefix envelope.filename))

/-- Every argument but the path comes through, no argument in front of the path holds the
placeholder, the name of the file is quoted or one word, and the server's directory for
temporary files needs no quoting. -/
def UploadSurvives (request : UploadInstallRequest) (arguments : List Bytes) (index : Nat)
    (tempDirectory : Bytes) : Prop :=
  (needsQuotes request.filename || oneWord request.filename) = true ∧
    (∀ argument ∈ arguments.take index ++ arguments.drop (index + 1), survives argument = true) ∧
    (arguments.take index).any holdsPlaceholder = false ∧ tempDirectory.any isSpecial = false

/-- Arguments reach the server as they are exactly when each of them is quoted or free of
backslashes and white space, and the path of an upload under the conditions above. -/
theorem remote_arguments_arrive (files : Bytes → LocalFile) (arguments : List Bytes)
    (named : ∀ argument ∈ arguments, argument ≠ []) :
    (tokenizeCommandLine (joinArguments arguments) = arguments ↔
      ∀ argument ∈ arguments, survives argument = true) ∧
    ∀ request first index, detectUploadInstallRequest files arguments = .ok (some request) →
      positionalIndices arguments = [first, index] → ∀ tempDirectory uniquePrefix,
        UploadArrives request arguments index tempDirectory uniquePrefix ↔
          UploadSurvives request arguments index tempDirectory := by
  refine ⟨tokenize_joinArguments_iff named, ?_⟩
  intro request first index detected positions tempDirectory uniquePrefix
  obtain ⟨_, second, samePositions, behindTwo, inside, content, sized, _, shape⟩ := detect_eq_some detected
  have sameIndex : second = index := by
    rw [positions] at samePositions
    simpa using (List.cons.inj (List.cons.inj samePositions).2).1.symm
  subst second
  have fits : request.size < 2 ^ 64 := by
    rw [shape]
    exact sized
  have template : request.commandTemplate =
      joinArguments (arguments.take index ++ remoteUploadPathPlaceholder :: arguments.drop (index + 1)) := by
    rw [shape, uploadTemplate, List.set_eq_take_append_cons_drop, if_pos inside]
  have spaced : space ∈ request.commandTemplate := by
    rw [shape]
    exact space_mem_uploadTemplate (by omega) inside
  have others : ∀ value ∈ arguments.take index ++ arguments.drop (index + 1), value ≠ [] := by
    intro value member
    rcases List.mem_append.mp member with before | behind
    · exact named value (List.mem_of_mem_take before)
    · exact named value (List.mem_of_mem_drop behind)
  have header := upload_template_arrives_iff fits spaced
  have replaced : ∀ filename, (substituteUploadPath request.commandTemplate
      (uploadPath tempDirectory uniquePrefix filename)).map tokenizeCommandLine =
        some (arguments.set index (uploadPath tempDirectory uniquePrefix filename)) ↔
      (∀ value ∈ arguments.take index ++ arguments.drop (index + 1), survives value = true) ∧
        (arguments.take index).any holdsPlaceholder = false ∧ tempDirectory.any isSpecial = false := by
    intro filename
    rw [template, List.set_eq_take_append_cons_drop, if_pos inside,
      substitute_arrives_iff uploadPath_ends (List.ne_nil_of_mem (a := slash) ?_) uploadPath_other others,
      uploadPath_plain_iff]
    obtain ⟨own, pathShape, _, holds⟩ := uploadPath_shape tempDirectory uniquePrefix filename
    rw [pathShape]
    simp [holds]
  simp only [UploadArrives, UploadSurvives]
  constructor
  · rintro ⟨envelope, parsed, same, tokens⟩
    rw [same] at tokens
    exact ⟨header.mp ⟨envelope, parsed, same⟩, (replaced envelope.filename).mp tokens⟩
  · rintro ⟨word, rest⟩
    obtain ⟨envelope, parsed, same⟩ := header.mpr word
    refine ⟨envelope, parsed, same, ?_⟩
    rw [same]
    exact (replaced envelope.filename).mpr rest

theorem remote_arguments_arrive_upload :
    UploadArrives
      { filePath := bytes "/home/my app.rqp", filename := bytes "my app.rqp"
        commandTemplate := bytes "install rqp __REQPACK_REMOTE_UPLOAD_PATH__ --force", size := 2 }
      [bytes "install", bytes "rqp", bytes "/home/my app.rqp", bytes "--force"] 2 (bytes "/tmp") 17 := by
  refine ((remote_arguments_arrive (fun _ => .regular [1, 2] (by decide))
    [bytes "install", bytes "rqp", bytes "/home/my app.rqp", bytes "--force"] (by decide)).2
    _ 1 2 (by decide) (by decide) (bytes "/tmp") 17).mpr ?_
  refine ⟨by decide, ?_, by decide, by decide⟩
  decide +kernel

/-- A backslash outside quotes is lost on the way. -/
theorem backslash_argument_lost :
    ¬ ∀ arguments : List Bytes, (∀ argument ∈ arguments, argument ≠ [] ∧ newline ∉ argument ∧
      carriageReturn ∉ argument) → tokenizeCommandLine (joinArguments arguments) = arguments := by
  intro all
  have same := all [bytes "list", bytes "a\\b"] (by decide)
  exact absurd same (by decide)

end ReqPack.Remote
