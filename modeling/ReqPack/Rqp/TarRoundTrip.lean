import ReqPack.Rqp.Tar

/-! # Reading back a written archive -/

namespace ReqPack.Rqp

open ReqPack.Data
open ReqPack.Data.Ascii

/-! ## Octal fields -/

section Octal

/-- An octal digit as a byte. -/
def OctalByte (c : UInt8) : Prop := 48 ≤ c.toNat ∧ c.toNat ≤ 55

theorem digitChar_octal {digit : Nat} (small : digit < 8) : OctalByte (Nat.digitChar digit).toUInt8 := by
  have cases : ∀ digit < 8, 48 ≤ (Nat.digitChar digit).toUInt8.toNat ∧ (Nat.digitChar digit).toUInt8.toNat ≤ 55 := by
    decide
  exact cases digit small

theorem toOctal_octal (value : Nat) : ∀ c ∈ toOctal value, OctalByte c := by
  induction value using Nat.strongRecOn with
  | ind value ih =>
      intro c member
      rw [toOctal, Nat.toDigits_eq_if (by decide)] at member
      split at member
      · rename_i small
        rw [List.map_singleton, List.mem_singleton] at member
        rw [member]
        exact digitChar_octal small
      · rename_i large
        rw [List.map_append, List.mem_append, List.map_singleton, List.mem_singleton] at member
        rcases member with front | last
        · exact ih (value / 8) (by omega) c front
        · rw [last]
          exact digitChar_octal (by omega)

theorem toOctal_length_le_iff {value length : Nat} (present : 0 < length) :
    (toOctal value).length ≤ length ↔ value < 8 ^ length := by
  rw [toOctal, List.length_map]
  exact Nat.length_toDigits_le_iff (by decide) present

/-- Digits are added up until something else stands in the field. -/
theorem parseTarOctal_digits {digits rest : Bytes} (octal : ∀ c ∈ digits, OctalByte c) (value : Nat) :
    parseTarOctal value (digits ++ rest) =
      parseTarOctal (digits.foldl (fun value digit => value * 8 + (digit.toNat - 48)) value) rest := by
  induction digits generalizing value with
  | nil => rfl
  | cons c digits ih =>
      have range := octal c List.mem_cons_self
      have nonzero : c ≠ 0 := by
        rintro rfl
        exact absurd range.1 (by decide)
      have visible : ¬ (c = space ∨ c = 9) := by
        rintro (rfl | rfl)
        · exact absurd range.1 (by decide)
        · exact absurd range.1 (by decide)
      have inside : ¬ (c < 48 ∨ 55 < c) := by
        simp only [UInt8.lt_iff_toNat_lt, not_or, not_lt]
        exact range
      rw [List.cons_append, parseTarOctal, if_neg nonzero, if_neg visible, if_neg inside,
        ih fun later member => octal later (List.mem_cons_of_mem _ member)]
      rfl

theorem foldl_zeros (count : Nat) :
    (List.replicate count (48 : UInt8)).foldl (fun value digit => value * 8 + (digit.toNat - 48)) 0 = 0 := by
  induction count with
  | zero => rfl
  | succ count ih => simpa [List.replicate_succ] using ih

theorem foldl_toOctal (value : Nat) :
    (toOctal value).foldl (fun value digit => value * 8 + (digit.toNat - 48)) 0 = value := by
  have folds : ∀ digits : List Char, (∀ digit ∈ digits, digit.isDigit = true) → ∀ start : Nat,
      (digits.map Char.toUInt8).foldl (fun value digit => value * 8 + (digit.toNat - 48)) start =
        Nat.ofDigitChars 8 digits start := by
    intro digits range
    induction digits with
    | nil => simp
    | cons digit digits ih =>
        intro start
        obtain ⟨_, _, same⟩ := digit_toNat (range digit List.mem_cons_self)
        rw [List.map_cons, List.foldl_cons, ih (fun later member => range later (List.mem_cons_of_mem _ member)),
          Nat.ofDigitChars_cons, same, Nat.mul_comm]
        rfl
  rw [toOctal, folds _ (fun _ => Nat.isDigit_of_mem_toDigits (by decide) (by decide)),
    Nat.ofDigitChars_toDigits (by decide) (by decide)]

/-- A number that fits is written into the whole field. -/
theorem writeTarOctal_fits {length value : Nat} (long : 1 < length) (fits : value < 8 ^ (length - 1)) :
    ∃ field, writeTarOctal length value = .ok field ∧ field.length = length ∧ parseTarOctal 0 field = value := by
  have short := (@toOctal_length_le_iff value (length - 1) (by omega)).mpr fits
  refine ⟨List.replicate (length - (toOctal value).length - 1) 48 ++ toOctal value ++ [0], ?_, ?_, ?_⟩
  · simp only [writeTarOctal]
    rw [if_neg (by omega)]
  · simp only [List.length_append, List.length_replicate, List.length_singleton]
    omega
  · have zeros : ∀ c ∈ List.replicate (length - (toOctal value).length - 1) (48 : UInt8), OctalByte c := by
      intro c member
      rw [List.eq_of_mem_replicate member]
      exact ⟨by decide, by decide⟩
    rw [List.append_assoc, parseTarOctal_digits zeros, foldl_zeros, parseTarOctal_digits (toOctal_octal value),
      foldl_toOctal]
    rfl

theorem writeTarOctal_overflow {length value : Nat} (long : 1 < length) (large : 8 ^ (length - 1) ≤ value) :
    writeTarOctal length value = .error (bytes "tar field overflow") := by
  have digits : ¬ (toOctal value).length ≤ length - 1 := by
    rw [toOctal_length_le_iff (by omega)]
    omega
  simp only [writeTarOctal]
  rw [if_pos (by omega)]

theorem writeTarChecksum_fits {value : Nat} (fits : value < 8 ^ 6) :
    ∃ field, writeTarChecksum 8 value = .ok field ∧ field.length = 8 := by
  have short := (@toOctal_length_le_iff value 6 (by decide)).mpr fits
  refine ⟨List.replicate (8 - (toOctal value).length - 2) space ++ toOctal value ++ [0, space], ?_, ?_⟩
  · simp only [writeTarChecksum]
    rw [if_neg (by omega)]
  · simp only [List.length_append, List.length_replicate, List.length_cons, List.length_nil]
    omega

end Octal

/-! ## Long paths -/

section Paths

/-- The path fits into the name and the prefix of a header. -/
def Splittable (path : Bytes) : Prop :=
  path.length ≤ 100 ∨
    ∃ pathPrefix name, path = pathPrefix ++ slash :: name ∧ pathPrefix ≠ [] ∧ name ≠ [] ∧
      pathPrefix.length ≤ 155 ∧ name.length ≤ 100

/-- The fields hold the path. -/
structure TarPathFields.Holds (fields : TarPathFields) (path : Bytes) : Prop where
  name : fields.name.length ≤ 100
  pathPrefix : fields.pathPrefix.length ≤ 155
  joined : (if fields.pathPrefix.isEmpty then fields.name else fields.pathPrefix ++ slash :: fields.name) = path

theorem splitsAt_holds {path : Bytes} {separator : Nat} (splits : splitsAt path separator = true) :
    TarPathFields.Holds ⟨path.drop (separator + 1), path.take separator⟩ path := by
  simp only [splitsAt, Bool.and_eq_true, beq_iff_eq, decide_eq_true_eq] at splits
  obtain ⟨⟨⟨⟨mark, positive⟩, front⟩, inside⟩, back⟩ := splits
  have filled : (path.take separator).isEmpty = false := by
    rw [List.isEmpty_eq_false_iff, ← List.length_pos_iff, List.length_take]
    omega
  have bound : separator < path.length := by omega
  have at_mark : path[separator] = slash := by simpa [List.getElem?_eq_getElem bound] using mark
  constructor
  · simpa using back
  · simp only [List.length_take]
    omega
  · simp only [filled, Bool.false_eq_true, if_false]
    rw [← at_mark, ← List.drop_eq_getElem_cons bound, List.take_append_drop]

theorem splitTarPathFields_holds {path : Bytes} {fields : TarPathFields}
    (split : splitTarPathFields path = .ok fields) : fields.Holds path := by
  rw [splitTarPathFields] at split
  split at split
  · rename_i short
    cases split
    exact ⟨short, by simp, rfl⟩
  · split at split
    · cases split
    · split at split
      · rename_i separator found
        cases split
        exact splitsAt_holds (List.find?_some found)
      · cases split

theorem splittable_of_split {path : Bytes} {fields : TarPathFields} (split : splitTarPathFields path = .ok fields) :
    Splittable path ∧ path.length ≤ 255 := by
  rw [splitTarPathFields] at split
  split at split
  · rename_i short
    exact ⟨Or.inl short, by omega⟩
  · split at split
    · cases split
    · rename_i long
      split at split
      · rename_i separator found
        have splits := List.find?_some found
        have holds := splitsAt_holds splits
        simp only [splitsAt, Bool.and_eq_true, beq_iff_eq, decide_eq_true_eq] at splits
        obtain ⟨⟨⟨⟨_, positive⟩, _⟩, inside⟩, _⟩ := splits
        have front : path.take separator ≠ [] := by
          rw [← List.length_pos_iff, List.length_take]
          omega
        have back : path.drop (separator + 1) ≠ [] := by
          rw [← List.length_pos_iff, List.length_drop]
          omega
        have joined := holds.joined
        simp only [List.isEmpty_eq_false_iff.mpr front, Bool.false_eq_true, if_false] at joined
        exact ⟨Or.inr ⟨_, _, joined.symm, front, back, holds.pathPrefix, holds.name⟩, by omega⟩
      · cases split

/-- A path that fits is split, unless it is too long altogether. -/
theorem splitTarPathFields_of_splittable {path : Bytes} (splittable : Splittable path) (bounded : path.length ≤ 255) :
    ∃ fields, splitTarPathFields path = .ok fields := by
  rw [splitTarPathFields]
  split
  · exact ⟨_, rfl⟩
  · rename_i long
    rw [if_neg (by omega)]
    rcases splittable with short | ⟨pathPrefix, name, rfl, front, back, frontShort, backShort⟩
    · exact absurd short long
    · have positive := List.length_pos_iff.mpr front
      have named := List.length_pos_iff.mpr back
      have splits : splitsAt (pathPrefix ++ slash :: name) pathPrefix.length = true := by
        simp only [splitsAt, Bool.and_eq_true, beq_iff_eq, decide_eq_true_eq, List.length_append, List.length_cons]
        refine ⟨⟨⟨⟨by simp, positive⟩, frontShort⟩, by omega⟩, by omega⟩
      cases found : (List.range (pathPrefix ++ slash :: name).length).reverse.find?
          (splitsAt (pathPrefix ++ slash :: name)) with
      | some separator => exact ⟨_, rfl⟩
      | none =>
          have none := List.find?_eq_none.mp found pathPrefix.length (by simp)
          exact absurd splits none

end Paths

/-! ## Headers -/

section Headers

variable {entry : TarWriteEntry} {fields : TarPathFields} {header mode number8 size number12 : Bytes}

/-- The number of data bytes an entry has in the archive. -/
def TarWriteEntry.storedSize (entry : TarWriteEntry) : Nat :=
  if entry.type = fileType then entry.data.length else 0

/-- A field of a header with zeros behind its text. -/
def padded (text : Bytes) (length : Nat) : Bytes := text ++ List.replicate (length - text.length) 0

/-- The regions of a header that the reader looks at. -/
structure HeaderOf (entry : TarWriteEntry) (fields : TarPathFields) (header : Bytes) : Prop where
  length : header.length = tarBlockSize
  name : slice header 0 100 = padded fields.name 100
  size : parseTarOctal 0 (slice header 124 12) = entry.storedSize
  type : slice header 156 1 = [entry.type]
  link : slice header 157 100 = padded (if entry.type = symlinkType then entry.linkTarget else []) 100
  pathPrefix : slice header 345 155 = padded fields.pathPrefix 155

/-- The sizes of what is written into a header. -/
structure HeaderRoom (entry : TarWriteEntry) (fields : TarPathFields) (mode number8 size number12 : Bytes) : Prop where
  name : fields.name.length ≤ 100
  pathPrefix : fields.pathPrefix.length ≤ 155
  link : entry.type = symlinkType → entry.linkTarget.length ≤ 100
  mode : mode.length = 8
  number8 : number8.length = 8
  size : size.length = 12
  number12 : number12.length = 12

/-- The link target as it stands in the header. -/
def storedLink (entry : TarWriteEntry) : Bytes := if entry.type = symlinkType then entry.linkTarget else []

/-- What is written into a header, with the checksum at the end. -/
def headerWrites (entry : TarWriteEntry) (fields : TarPathFields) (mode number8 size number12 checksum : Bytes) :
    List (Nat × Bytes) :=
  [(0, fields.name), (100, mode), (108, number8), (116, number8), (124, size), (136, number12),
    (148, List.replicate 8 space), (156, [entry.type]), (157, storedLink entry), (257, bytes "ustar"),
    (263, bytes "00"), (345, fields.pathPrefix), (148, checksum)]

theorem header_eq (checksum : Bytes) :
    overwrite (blankHeader entry fields mode number8 size number12) 148 checksum =
      overwriteAll (List.replicate tarBlockSize 0)
        (headerWrites entry fields mode number8 size number12 checksum) := by
  rw [blankHeader, headerWrites, storedLink]
  split
  · rfl
  · simp only [overwriteAll, List.foldl_cons, List.foldl_nil, overwrite_nil]

theorem slice_zeros {position length : Nat} (room : position + length ≤ tarBlockSize) :
    slice (List.replicate tarBlockSize (0 : UInt8)) position length = List.replicate length 0 :=
  slice_replicate room

/-- A region with one write in it, the other writes apart from it. -/
theorem slice_header (index : Nat) {writes : List (Nat × Bytes)} {position length : Nat} {values : Bytes}
    (found : writes[index]? = some (position, values)) (fits : ∀ write ∈ writes, Fits tarBlockSize write)
    (inside : values.length ≤ length) (room : position + length ≤ tarBlockSize)
    (apart : ∀ write ∈ writes.eraseIdx index, Apart position length write) :
    slice (overwriteAll (List.replicate tarBlockSize 0) writes) position length = padded values length := by
  obtain ⟨bound, there⟩ := List.getElem?_eq_some_iff.mp found
  have whole : writes = writes.take index ++ (position, values) :: writes.drop (index + 1) := by
    rw [← there, ← List.drop_eq_getElem_cons bound, List.take_append_drop]
  rw [List.eraseIdx_eq_take_drop_succ] at apart
  rw [slice_overwriteAll whole (by simpa using fits) inside apart, slice_zeros (by omega), padded]

theorem storedLink_length (room : HeaderRoom entry fields mode number8 size number12) :
    (storedLink entry).length ≤ 100 := by
  rw [storedLink]
  split
  · rename_i symlink
    exact room.link symlink
  · exact Nat.zero_le _

theorem headerWrites_fit {checksum : Bytes} (room : HeaderRoom entry fields mode number8 size number12)
    (sum : checksum.length = 8) :
    ∀ write ∈ headerWrites entry fields mode number8 size number12 checksum, Fits tarBlockSize write := by
  have name := room.name
  have pathPrefix := room.pathPrefix
  have link := storedLink_length room
  simp only [headerWrites, List.forall_mem_cons, Fits, room.mode, room.number8, room.size, room.number12, sum,
    List.length_replicate, List.length_singleton, show (bytes "ustar").length = 5 from rfl,
    show (bytes "00").length = 2 from rfl, tarBlockSize]
  refine ⟨?_, ?_, ?_, ?_, ?_, ?_, ?_, ?_, ?_, ?_, ?_, ?_, ?_, by simp⟩ <;> omega

/-- The reader finds in the header what was written. -/
theorem header_of {checksum : Bytes} (room : HeaderRoom entry fields mode number8 size number12)
    (sum : checksum.length = 8) (stored : parseTarOctal 0 size = entry.storedSize) :
    HeaderOf entry fields (overwrite (blankHeader entry fields mode number8 size number12) 148 checksum) := by
  have fits := headerWrites_fit room sum
  have region (index : Nat) {position length : Nat} {values : Bytes}
      (found : (headerWrites entry fields mode number8 size number12 checksum)[index]? = some (position, values))
      (inside : values.length ≤ length) (bounded : position + length ≤ tarBlockSize)
      (apart : ∀ write ∈ (headerWrites entry fields mode number8 size number12 checksum).eraseIdx index,
        Apart position length write) :=
    slice_header index found fits inside bounded apart
  have name := room.name
  have pathPrefix := room.pathPrefix
  have link := storedLink_length room
  have numbers : size.length = 12 ∧ mode.length = 8 ∧ number8.length = 8 ∧ number12.length = 12 :=
    ⟨room.size, room.mode, room.number8, room.number12⟩
  have literals : (bytes "ustar").length = 5 ∧ (bytes "00").length = 2 := ⟨rfl, rfl⟩
  rw [header_eq]
  constructor
  · rw [overwriteAll_length (by simpa using fits), List.length_replicate]
  · apply region 0 rfl name (by decide)
    simp only [headerWrites, List.eraseIdx_zero, List.tail_cons, List.forall_mem_cons, Apart, List.length_replicate,
      List.length_singleton]
    refine ⟨?_, ?_, ?_, ?_, ?_, ?_, ?_, ?_, ?_, ?_, ?_, ?_, by simp⟩ <;> omega
  · rw [region 4 rfl (Nat.le_of_eq room.size) (by decide), padded, room.size, Nat.sub_self, List.replicate_zero,
      List.append_nil, stored]
    simp only [headerWrites, List.eraseIdx_cons_succ, List.eraseIdx_zero, List.tail_cons, List.forall_mem_cons, Apart,
      List.length_replicate, List.length_singleton]
    refine ⟨?_, ?_, ?_, ?_, ?_, ?_, ?_, ?_, ?_, ?_, ?_, ?_, by simp⟩ <;> omega
  · apply (region 7 rfl (Nat.le_refl 1) (by decide) ?_).trans
    · rfl
    · simp only [headerWrites, List.eraseIdx_cons_succ, List.eraseIdx_zero, List.tail_cons, List.forall_mem_cons,
        Apart, List.length_replicate]
      refine ⟨?_, ?_, ?_, ?_, ?_, ?_, ?_, ?_, ?_, ?_, ?_, ?_, by simp⟩ <;> omega
  · apply region 8 rfl link (by decide)
    simp only [headerWrites, List.eraseIdx_cons_succ, List.eraseIdx_zero, List.tail_cons, List.forall_mem_cons, Apart,
      List.length_replicate, List.length_singleton]
    refine ⟨?_, ?_, ?_, ?_, ?_, ?_, ?_, ?_, ?_, ?_, ?_, ?_, by simp⟩ <;> omega
  · apply region 11 rfl pathPrefix (by decide)
    simp only [headerWrites, List.eraseIdx_cons_succ, List.eraseIdx_zero, List.tail_cons, List.forall_mem_cons, Apart,
      List.length_replicate, List.length_singleton]
    refine ⟨?_, ?_, ?_, ?_, ?_, ?_, ?_, ?_, ?_, ?_, ?_, ?_, by simp⟩ <;> omega

theorem sum_le (values : Bytes) : (values.map UInt8.toNat).sum ≤ 255 * values.length := by
  induction values with
  | nil => simp
  | cons value values ih =>
      have small := value.toNat_lt
      simp only [List.map_cons, List.sum_cons, List.length_cons]
      omega

theorem blankHeader_length (room : HeaderRoom entry fields mode number8 size number12) :
    (blankHeader entry fields mode number8 size number12).length = tarBlockSize := by
  have fits := @headerWrites_fit _ _ _ _ _ _ (List.replicate 8 0) room List.length_replicate
  have written : blankHeader entry fields mode number8 size number12 =
      overwriteAll (List.replicate tarBlockSize 0)
        (headerWrites entry fields mode number8 size number12 (List.replicate 8 0)).dropLast := by
    rw [blankHeader, headerWrites, storedLink]
    split
    · rfl
    · simp only [List.dropLast_cons_cons, List.dropLast_singleton, overwriteAll, List.foldl_cons, List.foldl_nil,
        overwrite_nil]
  rw [written, overwriteAll_length, List.length_replicate]
  intro write member
  rw [List.length_replicate]
  exact fits write (List.mem_of_mem_dropLast member)

/-- What must hold of an entry for its header to be written. -/
structure Writable (entry : TarWriteEntry) : Prop where
  splittable : Splittable entry.path
  bounded : entry.path.length ≤ 255
  link : entry.type = symlinkType → entry.linkTarget.length ≤ 100
  mode : entry.mode.toNat < 8 ^ 7
  size : entry.storedSize < 8 ^ 11

/-- The header of a writable entry. -/
theorem tarHeaderForEntry_writable (writable : Writable entry) :
    ∃ fields header, tarHeaderForEntry entry = .ok header ∧ fields.Holds entry.path ∧
      HeaderOf entry fields header := by
  obtain ⟨fields, split⟩ := splitTarPathFields_of_splittable writable.splittable writable.bounded
  have holds := splitTarPathFields_holds split
  obtain ⟨mode, modeWritten, modeLength, _⟩ :=
    @writeTarOctal_fits 8 _ (by decide) writable.mode
  obtain ⟨number8, number8Written, number8Length, _⟩ :=
    @writeTarOctal_fits 8 0 (by decide) (by decide)
  obtain ⟨size, sizeWritten, sizeLength, sizeRead⟩ :=
    @writeTarOctal_fits 12 _ (by decide) writable.size
  obtain ⟨number12, number12Written, number12Length, _⟩ :=
    @writeTarOctal_fits 12 0 (by decide) (by decide)
  have room : HeaderRoom entry fields mode number8 size number12 :=
    ⟨holds.name, holds.pathPrefix, writable.link, modeLength, number8Length, sizeLength, number12Length⟩
  have bounded : ((blankHeader entry fields mode number8 size number12).map UInt8.toNat).sum < 8 ^ 6 := by
    have most := sum_le (blankHeader entry fields mode number8 size number12)
    rw [blankHeader_length room, tarBlockSize] at most
    omega
  obtain ⟨checksum, checksumWritten, checksumLength⟩ := writeTarChecksum_fits bounded
  have linked : ¬ (entry.type = symlinkType ∧ 100 < entry.linkTarget.length) := by
    intro both
    have short := writable.link both.1
    omega
  refine ⟨fields, _, ?_, holds, header_of room checksumLength sizeRead⟩
  simp only [TarWriteEntry.storedSize] at sizeWritten
  simp only [tarHeaderForEntry, split, modeWritten, number8Written, sizeWritten, number12Written, checksumWritten,
    if_neg linked, bind, Except.bind, pure, Except.pure]

/-- A header that was written is the header of a writable entry, when the size fits. -/
theorem writable_of_header (written : tarHeaderForEntry entry = .ok header)
    (size : entry.storedSize < 8 ^ 11) : Writable entry := by
  cases split : splitTarPathFields entry.path with
  | error message =>
      simp only [tarHeaderForEntry, split] at written
      cases written
  | ok fields =>
      simp only [tarHeaderForEntry, split, bind, Except.bind] at written
      by_cases linked : entry.type = symlinkType ∧ 100 < entry.linkTarget.length
      · rw [if_pos linked] at written
        cases written
      · by_cases mode : entry.mode.toNat < 8 ^ 7
        · have splittable := splittable_of_split split
          refine ⟨splittable.1, splittable.2, fun symlink => ?_, mode, size⟩
          rw [not_and] at linked
          exact Nat.not_lt.mp (linked symlink)
        · rw [if_neg linked, writeTarOctal_overflow (by decide) (Nat.not_lt.mp mode)] at written
          cases written

end Headers

/-! ## Entries -/

/-- An entry the writer is made for. -/
structure Packable (entry : TarWriteEntry) : Prop where
  type : entry.type = fileType ∨ entry.type = symlinkType ∨ entry.type = directoryType
  valid : pathHasInvalidSegments entry.path = false
  text : (0 : UInt8) ∉ entry.path
  ends : entry.path.getLast? ≠ some slash
  begins : ¬ bytes "./" <+: entry.path
  size : entry.type = fileType → entry.data.length < 8 ^ 11
  link : entry.type = symlinkType → (0 : UInt8) ∉ entry.linkTarget

/-- What the reader makes of an entry: only a file has data, only a link a target. -/
def readBack (entry : TarWriteEntry) : TarEntry where
  path := entry.path
  type := entry.type
  size := entry.storedSize
  data := if entry.type = fileType then entry.data else []
  linkTarget := storedLink entry

section Entries

variable {entry : TarWriteEntry} {fields : TarPathFields} {header : Bytes}

theorem Packable.path_ne_nil (packable : Packable entry) : entry.path ≠ [] := by
  intro empty
  have valid := packable.valid
  rw [empty] at valid
  exact absurd valid (by decide)

theorem Packable.storedSize_lt (packable : Packable entry) : entry.storedSize < 8 ^ 11 := by
  rw [TarWriteEntry.storedSize]
  split
  · rename_i file
    exact packable.size file
  · decide

/-- A path that does not begin with `./` and does not end with a slash is kept. -/
theorem normalizeTarEntryPath_eq_self {path : Bytes} (begins : ¬ bytes "./" <+: path)
    (ends : path.getLast? ≠ some slash) (named : path ≠ bytes ".") : normalizeTarEntryPath path = path := by
  have front : dropCurrentDirectory path = path := by
    rw [dropCurrentDirectory.eq_def]
    split
    · rename_i rest
      exact absurd ⟨rest, rfl⟩ begins
    · rfl
  have back : dropTrailingSlashes path = path := by
    cases path with
    | nil => rfl
    | cons first rest =>
        rw [dropTrailingSlashes, List.rdropWhile_eq_self_iff.mpr]
        intro present final
        rw [beq_iff_eq] at final
        apply ends
        rw [List.getLast?_cons, List.getLast?_eq_some_getLast present, Option.getD_some, final]
  simp only [normalizeTarEntryPath, front, back, if_neg named]

theorem normalize_packable (packable : Packable entry) : normalizeTarEntryPath entry.path = entry.path := by
  apply normalizeTarEntryPath_eq_self packable.begins packable.ends
  intro current
  have valid := packable.valid
  rw [current] at valid
  exact absurd valid (by decide)

theorem parseTarString_padded {text : Bytes} {length : Nat} (clear : (0 : UInt8) ∉ text) :
    parseTarString (padded text length) = text := by
  have zeros : (List.replicate (length - text.length) (0 : UInt8)).takeWhile (· != 0) = [] := by
    cases length - text.length with
    | zero => rfl
    | succ count => rfl
  rw [parseTarString, padded, List.takeWhile_append_of_pos, zeros, List.append_nil]
  intro c member
  rw [bne_iff_ne]
  rintro rfl
  exact clear member

theorem HeaderOf.headerPath (headed : HeaderOf entry fields header) (holds : fields.Holds entry.path)
    (packable : Packable entry) : headerPath [] header = entry.path := by
  have joined := holds.joined
  have clear := packable.text
  have normal := normalize_packable packable
  rw [← joined] at clear
  simp only [Rqp.headerPath, headed.name, headed.pathPrefix, List.isEmpty_nil, if_true]
  cases front : fields.pathPrefix with
  | nil =>
      rw [front] at clear joined
      simp only [List.isEmpty_nil, if_true] at clear joined
      rw [parseTarString_padded clear]
      simp only [padded, parseTarString, List.nil_append]
      rw [joined]
      exact normal
  | cons c rest =>
      rw [front] at clear joined
      simp only [List.isEmpty_cons, Bool.false_eq_true, if_false, List.mem_append, List.mem_cons, not_or] at clear joined
      rw [parseTarString_padded (by simpa using clear.1), parseTarString_padded clear.2.2]
      simp only [List.isEmpty_cons, Bool.false_eq_true, if_false]
      rw [joined]
      exact normal

theorem HeaderOf.headerType (headed : HeaderOf entry fields header) (packable : Packable entry) :
    headerType header = entry.type := by
  rw [Rqp.headerType, headed.type]
  have type := packable.type
  split
  · rename_i first rest shape
    cases shape
    rcases type with file | link | directory
    · rw [file]
      rfl
    · rw [link]
      rfl
    · rw [directory]
      rfl
  · rename_i shape
    cases shape

theorem HeaderOf.not_zero (headed : HeaderOf entry fields header) (packable : Packable entry) :
    tarBlockIsZero header = false := by
  have member : entry.type ∈ header := by
    have stored : entry.type ∈ slice header 156 1 := by
      rw [headed.type]
      exact List.mem_singleton.mpr rfl
    exact List.mem_of_mem_drop (List.mem_of_mem_take stored)
  have nonzero : entry.type ≠ 0 := by
    rcases packable.type with file | link | directory
    · rw [file]
      decide
    · rw [link]
      decide
    · rw [directory]
      decide
  rw [tarBlockIsZero, List.all_eq_false]
  exact ⟨entry.type, member, by simpa using nonzero⟩

/-- The data of an entry with its padding. -/
def storedBody (entry : TarWriteEntry) : Bytes :=
  if entry.type = fileType then
    entry.data ++ List.replicate ((tarBlockSize - entry.data.length % tarBlockSize) % tarBlockSize) 0
  else []

theorem storedBody_length (entry : TarWriteEntry) : (storedBody entry).length = paddedSize entry.storedSize := by
  rw [storedBody, TarWriteEntry.storedSize]
  split
  · simp only [List.length_append, List.length_replicate, paddedSize, tarBlockSize]
    omega
  · rfl

theorem storedBody_take (entry : TarWriteEntry) (rest : Bytes) :
    (storedBody entry ++ rest).take entry.storedSize = (readBack entry).data := by
  simp only [storedBody, TarWriteEntry.storedSize, readBack]
  split
  · rw [List.append_assoc, List.take_left]
  · rfl

/-- The reader takes one written entry off the archive. -/
theorem parse_written (headed : HeaderOf entry fields header) (holds : fields.Holds entry.path)
    (packable : Packable entry) (rest : Bytes) :
    parseTarEntriesFrom [] (header ++ storedBody entry ++ rest) =
      (parseTarEntriesFrom [] rest).map fun entries => readBack entry :: entries := by
  have front : (header ++ (storedBody entry ++ rest)).take tarBlockSize = header :=
    List.take_left' headed.length
  have back : (header ++ (storedBody entry ++ rest)).drop tarBlockSize = storedBody entry ++ rest :=
    List.drop_left' headed.length
  have behind : (storedBody entry ++ rest).drop (paddedSize entry.storedSize) = rest :=
    List.drop_left' (storedBody_length entry)
  have enough : ¬ (storedBody entry ++ rest).length < entry.storedSize := by
    have length := storedBody_length entry
    simp only [paddedSize, tarBlockSize] at length
    simp only [List.length_append]
    omega
  have more : tarBlockSize ≤ (header ++ (storedBody entry ++ rest)).length := by
    rw [List.length_append, headed.length]
    exact Nat.le_add_right _ _
  have notLong : ¬ entry.type = 76 := by
    rcases packable.type with file | link | directory
    · rw [file]
      decide
    · rw [link]
      decide
    · rw [directory]
      decide
  have named : entry.path.isEmpty = false := List.isEmpty_eq_false_iff.mpr packable.path_ne_nil
  have link : parseTarString (slice header 157 100) = storedLink entry := by
    rw [headed.link]
    apply parseTarString_padded
    split
    · rename_i symlink
      exact packable.link symlink
    · simp
  rw [List.append_assoc, parseTarEntriesFrom]
  simp only [front, back, more, headed.not_zero packable, true_and, dite_true, headed.size, headed.headerType packable,
    headed.headerPath holds packable, if_neg enough, if_neg notLong, named, Bool.false_eq_true, if_false, behind, link,
    storedBody_take]
  rfl

end Entries

/-! ## Archives -/

section Archives

variable {entries : List TarWriteEntry}

theorem parse_end : parseTarEntriesFrom [] (List.replicate (tarBlockSize * 2) 0) = .ok [] := by
  have zero : tarBlockIsZero ((List.replicate (tarBlockSize * 2) 0).take tarBlockSize) = true := by
    rw [tarBlockIsZero, List.take_replicate, List.all_eq_true]
    intro c member
    rw [List.eq_of_mem_replicate member]
    rfl
  rw [parseTarEntriesFrom]
  simp only [zero, Bool.true_eq_false, and_false, dite_false]

theorem appendTarEntryBytes_eq (output : Bytes) (entry : TarWriteEntry) :
    appendTarEntryBytes output entry =
      (tarHeaderForEntry entry).map fun header => output ++ (header ++ storedBody entry) := by
  rw [appendTarEntryBytes]
  cases tarHeaderForEntry entry with
  | error message => rfl
  | ok header =>
      by_cases file : entry.type = fileType
      · simp [bind, Except.bind, pure, Except.pure, Except.map, storedBody, file]
      · simp [bind, Except.bind, pure, Except.pure, Except.map, storedBody, file]

/-- Entries that were written one after another are read one after another. -/
theorem parse_archive (packable : ∀ entry ∈ entries, Packable entry) (start output : Bytes)
    (written : entries.foldlM appendTarEntryBytes start = .ok output) :
    ∃ blocks, output = start ++ blocks ∧ ∀ rest,
      parseTarEntriesFrom [] (blocks ++ rest) =
        (parseTarEntriesFrom [] rest).map fun read => entries.map readBack ++ read := by
  induction entries generalizing start with
  | nil =>
      cases written
      refine ⟨[], (List.append_nil _).symm, fun rest => ?_⟩
      rw [List.nil_append]
      cases parseTarEntriesFrom [] rest with
      | error message => rfl
      | ok read => rfl
  | cons entry entries ih =>
      have own := packable entry List.mem_cons_self
      rw [List.foldlM_cons, appendTarEntryBytes_eq] at written
      cases headerWritten : tarHeaderForEntry entry with
      | error message =>
          rw [headerWritten] at written
          cases written
      | ok header =>
          rw [headerWritten] at written
          obtain ⟨fields, same, sameWritten, holds, headed⟩ :=
            tarHeaderForEntry_writable (writable_of_header headerWritten own.storedSize_lt)
          rw [headerWritten] at sameWritten
          cases sameWritten
          obtain ⟨blocks, whole, reads⟩ :=
            ih (fun later member => packable later (List.mem_cons_of_mem _ member)) _ written
          refine ⟨header ++ storedBody entry ++ blocks, by simp [whole], fun rest => ?_⟩
          rw [List.append_assoc, parse_written headed holds own, reads rest]
          cases parseTarEntriesFrom [] rest with
          | error message => rfl
          | ok read => rfl

theorem archive_written (writable : ∀ entry ∈ entries, Writable entry) (start : Bytes) :
    ∃ output, entries.foldlM appendTarEntryBytes start = .ok output := by
  induction entries generalizing start with
  | nil => exact ⟨start, rfl⟩
  | cons entry entries ih =>
      obtain ⟨fields, header, written, _, _⟩ := tarHeaderForEntry_writable (writable entry List.mem_cons_self)
      rw [List.foldlM_cons, appendTarEntryBytes_eq, written]
      exact ih (fun later member => writable later (List.mem_cons_of_mem _ member)) _

/-! ## Sorting -/

theorem tarEntryBefore_false_iff (left right : TarWriteEntry) :
    tarEntryBefore right left = false ↔
      left.path < right.path ∨ (left.path = right.path ∧ left.type ≤ right.type) := by
  rw [tarEntryBefore]
  by_cases same : left.path = right.path
  · have whole : ¬ left.path < right.path := by
      rw [same]
      exact List.lt_irrefl _
    simp only [same, ne_eq, not_true, if_false, decide_eq_false_iff_not, Std.not_lt, true_and]
    rw [same] at whole
    exact (or_iff_right whole).symm
  · simp only [ne_eq, Ne.symm same, not_false_iff, if_true, decide_eq_false_iff_not, Std.not_lt, same, false_and,
      or_false]
    exact ⟨fun least => Std.lt_of_le_of_ne least same, Std.le_of_lt⟩

theorem sorted_entries (entries : List TarWriteEntry) :
    (stableSort tarEntryBefore entries).Pairwise fun left right => tarEntryBefore right left = false := by
  have total : Std.Total fun left right => tarEntryBefore right left = false := by
    constructor
    intro left right
    rw [tarEntryBefore_false_iff, tarEntryBefore_false_iff]
    rcases Std.lt_trichotomy left.path right.path with less | same | greater
    · exact Or.inl (Or.inl less)
    · rcases Std.le_total (a := left.type) (b := right.type) with least | least
      · exact Or.inl (Or.inr ⟨same, least⟩)
      · exact Or.inr (Or.inr ⟨same.symm, least⟩)
    · exact Or.inr (Or.inl greater)
  have transitive : IsTrans TarWriteEntry fun left right => tarEntryBefore right left = false := by
    constructor
    intro left middle right first second
    rw [tarEntryBefore_false_iff] at first second ⊢
    rcases first with less | ⟨same, least⟩
    · rcases second with next | ⟨also, _⟩
      · exact Or.inl (List.lt_trans less next)
      · exact Or.inl (also ▸ less)
    · rcases second with next | ⟨also, most⟩
      · exact Or.inl (same ▸ next)
      · exact Or.inr ⟨same.trans also, Std.le_trans least most⟩
  exact List.pairwise_insertionSort _ entries

/-- Entries with different paths are sorted by their paths alone. -/
theorem sorted_paths (distinct : entries.Pairwise fun left right => left.path ≠ right.path) :
    (stableSort tarEntryBefore entries).Pairwise fun left right => left.path < right.path := by
  have apart : (stableSort tarEntryBefore entries).Pairwise fun left right => left.path ≠ right.path :=
    ((stableSort_perm tarEntryBefore entries).pairwise_iff fun different => Ne.symm different).mpr distinct
  refine ((sorted_entries entries).and apart).imp fun both => ?_
  rcases (tarEntryBefore_false_iff _ _).mp both.1 with less | ⟨same, _⟩
  · exact less
  · exact absurd same both.2

/-- An archive that was written lists its entries again. -/
theorem parse_tarBytes (packable : ∀ entry ∈ entries, Packable entry) {output : Bytes}
    (written : tarBytesFromEntries entries = .ok output) :
    parseTarEntries output = .ok ((stableSort tarEntryBefore entries).map readBack) := by
  have perm := stableSort_perm tarEntryBefore entries
  rw [tarBytesFromEntries] at written
  cases blocks : (stableSort tarEntryBefore entries).foldlM appendTarEntryBytes [] with
  | error message =>
      rw [blocks] at written
      cases written
  | ok archive =>
      rw [blocks] at written
      cases written
      obtain ⟨same, whole, reads⟩ :=
        parse_archive (fun entry member => packable entry (perm.mem_iff.1 member)) [] archive blocks
      rw [List.nil_append] at whole
      rw [parseTarEntries, whole, reads, parse_end]
      simp [Except.map]

theorem tarBytes_written (writable : ∀ entry ∈ entries, Writable entry) :
    ∃ output, tarBytesFromEntries entries = .ok output := by
  have perm := stableSort_perm tarEntryBefore entries
  obtain ⟨archive, written⟩ := archive_written (fun entry member => writable entry (perm.mem_iff.1 member)) []
  exact ⟨_, by rw [tarBytesFromEntries, written]; rfl⟩

/-- An archive that was written lists its entries again, sorted by their paths; only a
path that is too long or cannot be split, a link target that is too long or a mode with
too many digits keeps an archive from being written. -/
theorem tar_round_trip (packable : ∀ entry ∈ entries, Packable entry)
    (distinct : entries.Pairwise fun left right => left.path ≠ right.path) :
    (∀ output, tarBytesFromEntries entries = .ok output →
      ∃ sorted : List TarWriteEntry, sorted.Perm entries ∧
        (sorted.Pairwise fun left right => left.path < right.path) ∧
        parseTarEntries output = .ok (sorted.map readBack)) ∧
    (∀ message, tarBytesFromEntries entries = .error message →
      ∃ entry ∈ entries, 255 < entry.path.length ∨ ¬ Splittable entry.path ∨
        (entry.type = symlinkType ∧ 100 < entry.linkTarget.length) ∨ 8 ^ 7 ≤ entry.mode.toNat) := by
  constructor
  · intro output written
    exact ⟨_, stableSort_perm tarEntryBefore entries, sorted_paths distinct, parse_tarBytes packable written⟩
  · intro message failed
    by_contra fine
    simp only [not_exists, not_and, not_or, not_lt, not_not, not_le] at fine
    have writable : ∀ entry ∈ entries, Writable entry := by
      intro entry member
      obtain ⟨bounded, splittable, link, mode⟩ := fine entry member
      exact ⟨splittable, bounded, link, mode, (packable entry member).storedSize_lt⟩
    obtain ⟨output, written⟩ := tarBytes_written writable
    rw [written] at failed
    cases failed

end Archives

/-! ## Single entries -/

def toolEntry : TarWriteEntry := ⟨bytes "bin/tool", fileType, bytes "run", [], 0o644⟩

theorem toolEntry_packable : Packable toolEntry :=
  ⟨Or.inl rfl, by decide, by decide, by decide, by decide, fun _ => by decide,
    fun symlink => absurd symlink (by decide)⟩

theorem tar_round_trip_tool :
    ∃ output, tarBytesFromEntries [toolEntry] = .ok output ∧
      ∃ sorted : List TarWriteEntry, sorted.Perm [toolEntry] ∧
        (sorted.Pairwise fun left right => left.path < right.path) ∧
        parseTarEntries output = .ok (sorted.map readBack) := by
  have packable : ∀ entry ∈ [toolEntry], Packable entry := by
    intro entry member
    rw [List.mem_singleton.mp member]
    exact toolEntry_packable
  obtain ⟨read, fails⟩ := tar_round_trip packable (List.pairwise_singleton _ _)
  cases written : tarBytesFromEntries [toolEntry] with
  | ok output => exact ⟨output, rfl, read output written⟩
  | error message =>
      obtain ⟨entry, member, tooMuch⟩ := fails message written
      rw [List.mem_singleton.mp member] at tooMuch
      rcases tooMuch with long | unsplit | ⟨symlink, _⟩ | wide
      · exact absurd long (by decide)
      · exact absurd (Or.inl (by decide)) unsplit
      · exact absurd symlink (by decide)
      · exact absurd wide (by decide)

theorem tarBytes_singleton (entry : TarWriteEntry) :
    tarBytesFromEntries [entry] = (tarHeaderForEntry entry).map fun header =>
      header ++ storedBody entry ++ List.replicate (tarBlockSize * 2) 0 := by
  have sorted : stableSort tarEntryBefore [entry] = [entry] := rfl
  rw [tarBytesFromEntries, sorted, List.foldlM_cons, appendTarEntryBytes_eq]
  cases tarHeaderForEntry entry with
  | error message => rfl
  | ok header => rfl

def filledDirectory : TarWriteEntry := ⟨bytes "share", directoryType, bytes "data", [], 0o755⟩

def deepEntry : TarWriteEntry :=
  ⟨List.replicate 155 97 ++ slash :: List.replicate 100 98, fileType, [], [], 0o644⟩

def markedEntry : TarWriteEntry := ⟨bytes "tool", fileType, [], [], 0o10000000⟩

/-- The data of a directory is not written; a path with a full prefix and a full name,
and a mode with eight octal digits, are refused. -/
theorem tar_loses_directory_data :
    (Packable filledDirectory ∧ ∃ output, tarBytesFromEntries [filledDirectory] = .ok output ∧
      ∃ read, parseTarEntries output = .ok [read] ∧ read.data ≠ filledDirectory.data) ∧
    (Packable deepEntry ∧ Splittable deepEntry.path ∧
      tarBytesFromEntries [deepEntry] = .error (tooLong deepEntry.path)) ∧
    (Packable markedEntry ∧ Splittable markedEntry.path ∧
      tarBytesFromEntries [markedEntry] = .error (bytes "tar field overflow")) := by
  have filled : Packable filledDirectory :=
    ⟨Or.inr (Or.inr rfl), by decide, by decide, by decide, by decide, (fun file => absurd file (by decide)),
      fun symlink => absurd symlink (by decide)⟩
  have deep : Packable deepEntry :=
    ⟨Or.inl rfl, by decide +kernel, by decide +kernel, by decide +kernel, by decide +kernel, fun _ => by decide,
      fun symlink => absurd symlink (by decide)⟩
  have marked : Packable markedEntry :=
    ⟨Or.inl rfl, by decide, by decide, by decide, by decide, fun _ => by decide, fun symlink => absurd symlink (by decide)⟩
  refine ⟨⟨filled, ?_⟩, ⟨deep, ?_, ?_⟩, marked, Or.inl (by decide), ?_⟩
  · have writable : Writable filledDirectory :=
      ⟨Or.inl (by decide), by decide, (fun symlink => absurd symlink (by decide)), by decide, by decide⟩
    obtain ⟨output, written⟩ := tarBytes_written fun entry member => by
      rw [List.mem_singleton.mp member]
      exact writable
    have read := parse_tarBytes (fun entry member => by
      rw [List.mem_singleton.mp member]
      exact filled) written
    exact ⟨output, written, _, read, by decide⟩
  · exact Or.inr ⟨_, _, rfl, by simp, by simp, by simp, by simp⟩
  · have long : splitTarPathFields deepEntry.path = .error (tooLong deepEntry.path) := by
      have length : deepEntry.path.length = 256 := by
        simp only [deepEntry, List.length_append, List.length_cons, List.length_replicate]
      rw [splitTarPathFields, if_neg (by omega), if_pos (by omega)]
    rw [tarBytes_singleton, tarHeaderForEntry, long]
    rfl
  · have overflow : writeTarOctal 8 markedEntry.mode.toNat = .error (bytes "tar field overflow") :=
      writeTarOctal_overflow (by decide) (by decide)
    rw [tarBytes_singleton]
    simp only [tarHeaderForEntry, overflow]
    rfl

end ReqPack.Rqp
