import Mathlib.Data.List.TakeWhile
import ReqPack.Rqp.TarRoundTrip

/-! # Archives of another tar

GNU tar stores a path of more than 100 bytes in an entry of its own that stands before the
entry it belongs to, with a zero byte behind it, and a long link target in the same way.
-/

namespace ReqPack.Rqp

open ReqPack.Data
open ReqPack.Data.Ascii

def longNameType : UInt8 := 76

def longLinkType : UInt8 := 75

/-- A number in a size field: octal digits and a zero byte, or its bytes behind a mark. -/
def gnuNumber (value : Nat) : Bytes :=
  if value < 8 ^ 11 then List.replicate (11 - (toOctal value).length) 48 ++ toOctal value ++ [0]
  else 128 :: (List.range 11).reverse.map fun place => UInt8.ofNat (value / 256 ^ place)

/-- Data, filled up to whole blocks. -/
def dataBlocks (data : Bytes) : Bytes :=
  data ++ List.replicate ((tarBlockSize - data.length % tarBlockSize) % tarBlockSize) 0

/-- A text in a field, cut off where the field ends. -/
def InField (text field : Bytes) (length : Nat) : Prop :=
  ∃ shown, shown <+: text ∧ (text.length ≤ length → shown = text) ∧ shown.length ≤ length ∧ field = padded shown length

/-- A header of GNU tar. -/
structure GnuHeader (name : Bytes) (type : UInt8) (linkTarget : Bytes) (size : Nat) (header : Bytes) : Prop where
  length : header.length = tarBlockSize
  name : InField name (slice header 0 100) 100
  size : slice header 124 12 = gnuNumber size
  type : slice header 156 1 = [type]
  link : InField linkTarget (slice header 157 100) 100
  pathPrefix : slice header 345 155 = List.replicate 155 0

def longLinkName : Bytes := bytes "././@LongLink"

/-- The entry that holds a long text; the length is given in octal digits. -/
structure LongText (type : UInt8) (text blocks : Bytes) : Prop where
  octal : text.length + 1 < 8 ^ 11
  headed : ∃ header, GnuHeader longLinkName type [] (text.length + 1) header ∧
    blocks = header ++ dataBlocks (text ++ [0])

/-- The blocks for a text: none if the header has room for it. -/
def LongTextIfNeeded (type : UInt8) (text blocks : Bytes) : Prop :=
  if text.length ≤ 100 then blocks = [] else LongText type text blocks

/-- The name an entry is stored under; the name of a directory may be marked by a slash. -/
def gnuName (marked : Bool) (entry : TarWriteEntry) : Bytes :=
  if marked ∧ entry.type = directoryType then entry.path ++ [slash] else entry.path

/-- What GNU tar writes for an entry. -/
def GnuEntry (marked : Bool) (entry : TarWriteEntry) (blocks : Bytes) : Prop :=
  ∃ linkBlocks nameBlocks header,
    LongTextIfNeeded longLinkType (storedLink entry) linkBlocks ∧
    LongTextIfNeeded longNameType (gnuName marked entry) nameBlocks ∧
    GnuHeader (gnuName marked entry) entry.type (storedLink entry) entry.data.length header ∧
    blocks = linkBlocks ++ (nameBlocks ++ (header ++ dataBlocks entry.data))

/-- What GNU tar writes for entries, with blocks of zeros at the end. -/
inductive GnuArchive (marked : Bool) : List TarWriteEntry → Bytes → Prop
  | finish (count : Nat) : GnuArchive marked [] (List.replicate (tarBlockSize * count) 0)
  | entry {entry : TarWriteEntry} {entries : List TarWriteEntry} {blocks rest : Bytes}
      (first : GnuEntry marked entry blocks) (later : GnuArchive marked entries rest) :
      GnuArchive marked (entry :: entries) (blocks ++ rest)

/-- An entry of an ordinary archive. -/
structure Ordinary (entry : TarWriteEntry) : Prop where
  type : entry.type = fileType ∨ entry.type = symlinkType ∨ entry.type = directoryType
  data : entry.type ≠ fileType → entry.data = []
  text : (0 : UInt8) ∉ entry.path
  link : (0 : UInt8) ∉ entry.linkTarget
  trimmed : trimSpaces entry.path = entry.path
  begins : ¬ bytes "./" <+: entry.path
  ends : entry.path.getLast? ≠ some slash

/-- One entry is returned for each original entry, with its path and its data. -/
def ReadsBack (entries : List TarWriteEntry) (parsed : Except Bytes (List TarEntry)) : Prop :=
  ∃ read, parsed = .ok read ∧
    read.map (fun entry => (entry.path, entry.data)) = entries.map fun entry => (entry.path, entry.data)

/-! ## One block -/

section Blocks

variable {header rest longPath : Bytes}

/-- One round of the loop, with a header and what stands behind it. -/
theorem parse_step (length : header.length = tarBlockSize) (shown : tarBlockIsZero header = false) :
    parseTarEntriesFrom longPath (header ++ rest) =
      if rest.length < parseTarOctal 0 (slice header 124 12) then .error (bytes "tar entry exceeds archive size")
      else if headerType header = longNameType then
        parseTarEntriesFrom (trimSpaces (rest.take (parseTarOctal 0 (slice header 124 12))))
          (rest.drop (paddedSize (parseTarOctal 0 (slice header 124 12))))
      else if (headerPath longPath header).isEmpty then
        parseTarEntriesFrom [] (rest.drop (paddedSize (parseTarOctal 0 (slice header 124 12))))
      else
        (parseTarEntriesFrom [] (rest.drop (paddedSize (parseTarOctal 0 (slice header 124 12))))).map fun entries =>
          ⟨headerPath longPath header, headerType header, parseTarOctal 0 (slice header 124 12),
            rest.take (parseTarOctal 0 (slice header 124 12)), parseTarString (slice header 157 100)⟩ :: entries := by
  have front : (header ++ rest).take tarBlockSize = header := List.take_left' length
  have back : (header ++ rest).drop tarBlockSize = rest := List.drop_left' length
  have more : tarBlockSize ≤ (header ++ rest).length := by
    rw [List.length_append, length]
    exact Nat.le_add_right _ _
  rw [parseTarEntriesFrom]
  simp only [front, back, more, shown, true_and, dite_true]
  rfl

/-- An entry that is listed comes first, with the path and the data it has there. -/
theorem parse_emits (length : header.length = tarBlockSize) (shown : tarBlockIsZero header = false)
    (own : headerType header ≠ longNameType) (named : headerPath longPath header ≠ []) {read : List TarEntry}
    (parsed : parseTarEntriesFrom longPath (header ++ rest) = .ok read) :
    ∃ first others, read = first :: others ∧ first.path = headerPath longPath header ∧
      first.data = rest.take (parseTarOctal 0 (slice header 124 12)) := by
  have listed : ¬ (headerPath longPath header).isEmpty = true := by simpa using named
  rw [parse_step length shown, if_neg own, if_neg listed] at parsed
  split at parsed
  · cases parsed
  · generalize parseTarEntriesFrom [] (rest.drop (paddedSize (parseTarOctal 0 (slice header 124 12)))) = later at parsed
    cases later with
    | error message => cases parsed
    | ok others =>
        cases parsed
        exact ⟨_, others, rfl, rfl, rfl⟩

theorem dataBlocks_length (data : Bytes) : (dataBlocks data).length = paddedSize data.length := by
  simp only [dataBlocks, List.length_append, List.length_replicate, paddedSize, tarBlockSize]
  omega

theorem dataBlocks_take (data rest : Bytes) : (dataBlocks data ++ rest).take data.length = data := by
  rw [dataBlocks, List.append_assoc, List.take_left]

theorem dataBlocks_drop (data rest : Bytes) : (dataBlocks data ++ rest).drop (paddedSize data.length) = rest :=
  List.drop_left' (dataBlocks_length data)

theorem dataBlocks_enough (data rest : Bytes) : ¬ (dataBlocks data ++ rest).length < data.length := by
  rw [dataBlocks, List.length_append, List.length_append]
  omega

end Blocks

/-! ## Headers -/

section Headers

variable {name linkTarget header : Bytes} {type : UInt8} {size : Nat}

theorem parseTarOctal_gnuNumber (value : Nat) :
    parseTarOctal 0 (gnuNumber value) = if value < 8 ^ 11 then value else 0 := by
  rw [gnuNumber]
  split
  · rename_i small
    have zeros : ∀ c ∈ List.replicate (11 - (toOctal value).length) (48 : UInt8), OctalByte c := by
      intro c member
      rw [List.eq_of_mem_replicate member]
      exact ⟨by decide, by decide⟩
    rw [List.append_assoc, parseTarOctal_digits zeros, foldl_zeros, parseTarOctal_digits (toOctal_octal value),
      foldl_toOctal]
    rfl
  · rw [parseTarOctal, if_neg (by decide), if_neg (by decide), if_pos (by decide)]

theorem GnuHeader.octal (headed : GnuHeader name type linkTarget size header) :
    parseTarOctal 0 (slice header 124 12) = if size < 8 ^ 11 then size else 0 := by
  rw [headed.size, parseTarOctal_gnuNumber]

theorem GnuHeader.headerType (headed : GnuHeader name type linkTarget size header) (marked : type ≠ 0) :
    headerType header = type := by
  rw [Rqp.headerType, headed.type]
  exact if_neg marked

theorem GnuHeader.not_zero (headed : GnuHeader name type linkTarget size header) (marked : type ≠ 0) :
    tarBlockIsZero header = false := by
  have stored : type ∈ slice header 156 1 := by
    rw [headed.type]
    exact List.mem_singleton.mpr rfl
  rw [tarBlockIsZero, List.all_eq_false]
  exact ⟨type, List.mem_of_mem_drop (List.mem_of_mem_take stored), by simpa using marked⟩

theorem GnuHeader.headerPath_short (headed : GnuHeader name type linkTarget size header) (short : name.length ≤ 100)
    (clear : (0 : UInt8) ∉ name) : headerPath [] header = normalizeTarEntryPath name := by
  obtain ⟨shown, -, whole, -, field⟩ := headed.name
  have empty : parseTarString (List.replicate 155 (0 : UInt8)) = [] := rfl
  rw [Rqp.headerPath, field, whole short, parseTarString_padded clear, headed.pathPrefix, empty]
  rfl

end Headers

/-! ## Paths -/

section Paths

variable {entry : TarWriteEntry} {path : Bytes} {marked : Bool}

theorem zero_mem_dropCurrentDirectory (inside : (0 : UInt8) ∈ path) : (0 : UInt8) ∈ dropCurrentDirectory path := by
  fun_induction dropCurrentDirectory path with
  | case1 rest ih =>
      apply ih
      simpa using inside
  | case2 path => exact inside

theorem mem_dropWhile_of_not {c : UInt8} {skipped : UInt8 → Bool} (kept : skipped c = false) (inside : c ∈ path) :
    c ∈ path.dropWhile skipped := by
  rw [← List.takeWhile_append_dropWhile (p := skipped) (l := path), List.mem_append] at inside
  cases inside with
  | inl front =>
      have passes := List.mem_takeWhile_imp front
      rw [kept] at passes
      cases passes
  | inr back => exact back

theorem mem_rdropWhile_of_not {c : UInt8} {skipped : UInt8 → Bool} (kept : skipped c = false) (inside : c ∈ path) :
    c ∈ path.rdropWhile skipped := by
  rw [List.rdropWhile, List.mem_reverse]
  exact mem_dropWhile_of_not kept (List.mem_reverse.2 inside)

theorem zero_mem_normalize (inside : (0 : UInt8) ∈ path) : (0 : UInt8) ∈ normalizeTarEntryPath path := by
  have front := zero_mem_dropCurrentDirectory inside
  have back : (0 : UInt8) ∈ dropTrailingSlashes (dropCurrentDirectory path) := by
    cases rest : dropCurrentDirectory path with
    | nil =>
        rw [rest] at front
        cases front
    | cons first later =>
        rw [rest, List.mem_cons] at front
        rw [dropTrailingSlashes, List.mem_cons]
        exact front.imp_right (mem_rdropWhile_of_not (by decide))
  rw [normalizeTarEntryPath, if_neg ?_]
  · exact back
  · intro current
    rw [current] at back
    exact absurd back (by decide)

theorem normalizeTarEntryPath_ne_current (path : Bytes) : normalizeTarEntryPath path ≠ bytes "." := by
  rw [normalizeTarEntryPath]
  split
  · decide
  · assumption

/-- The zero byte behind a long name stays. -/
theorem zero_mem_trimSpaces (name : Bytes) : (0 : UInt8) ∈ trimSpaces (name ++ [0]) :=
  mem_rdropWhile_of_not (by decide) (mem_dropWhile_of_not (by decide) (by simp))

theorem headerPath_of_long {longPath : Bytes} (present : longPath ≠ []) (header : Bytes) :
    headerPath longPath header = normalizeTarEntryPath longPath := by
  have filled : ¬ longPath.isEmpty = true := by simpa using present
  rw [headerPath, if_neg filled]

theorem Ordinary.type_ne (ordinary : Ordinary entry) : entry.type ≠ 0 ∧ entry.type ≠ longNameType := by
  obtain file | link | directory := ordinary.type
  · rw [file]
    decide
  · rw [link]
    decide
  · rw [directory]
    decide

theorem Ordinary.clear (ordinary : Ordinary entry) : (0 : UInt8) ∉ gnuName marked entry := by
  rw [gnuName]
  split
  · rw [List.mem_append, not_or]
    exact ⟨ordinary.text, by decide⟩
  · exact ordinary.text

/-- The mark of a directory is dropped again. -/
theorem Ordinary.normalize (ordinary : Ordinary entry) (present : entry.path ≠ [])
    (named : entry.path ≠ bytes ".") : normalizeTarEntryPath (gnuName marked entry) = entry.path := by
  have plain := normalizeTarEntryPath_eq_self ordinary.begins ordinary.ends named
  rw [gnuName]
  split
  · have begins : dropCurrentDirectory (entry.path ++ [slash]) = entry.path ++ [slash] := by
      rw [dropCurrentDirectory.eq_def]
      split
      · rename_i rest shape
        cases front : entry.path with
        | nil => exact absurd front present
        | cons first later =>
            rw [front, List.cons_append, List.cons.injEq] at shape
            cases later with
            | nil => exact absurd (by rw [front, shape.1]; rfl) named
            | cons second final =>
                rw [List.cons_append, List.cons.injEq] at shape
                refine absurd ⟨final, ?_⟩ ordinary.begins
                rw [front, shape.1, shape.2.1]
                rfl
      · rfl
    have ends : dropTrailingSlashes (entry.path ++ [slash]) = dropTrailingSlashes entry.path := by
      cases front : entry.path with
      | nil => exact absurd front present
      | cons first later =>
          rw [List.cons_append, dropTrailingSlashes, dropTrailingSlashes, List.rdropWhile_concat_pos _ _ _ (by decide)]
    have own : dropCurrentDirectory entry.path = entry.path := by
      rw [dropCurrentDirectory.eq_def]
      split
      · rename_i rest shape
        exact absurd ⟨rest, shape.symm⟩ ordinary.begins
      · rfl
    rw [normalizeTarEntryPath, own] at plain
    rw [normalizeTarEntryPath, begins, ends]
    exact plain
  · exact plain

end Paths

/-! ## What is listed -/

/-- No entry is listed without a path, or as the directory itself. -/
theorem parse_paths {longPath content : Bytes} {read : List TarEntry}
    (parsed : parseTarEntriesFrom longPath content = .ok read) :
    ∀ entry ∈ read, entry.path ≠ [] ∧ entry.path ≠ bytes "." := by
  fun_induction parseTarEntriesFrom longPath content generalizing read with
  | case1 => cases parsed
  | case2 =>
      rename_i ih
      exact ih parsed
  | case3 =>
      rename_i ih
      exact ih parsed
  | case4 =>
      rename_i body size type path fits data short named ih
      cases later : parseTarEntriesFrom [] (body.drop (paddedSize size)) with
      | error message =>
          rw [later] at parsed
          cases parsed
      | ok others =>
          rw [later] at parsed
          cases parsed
          rw [List.forall_mem_cons]
          exact ⟨⟨by simpa using named, normalizeTarEntryPath_ne_current _⟩, ih later⟩
  | case5 =>
      cases parsed
      intro entry member
      cases member

/-- The reader is at the header that a long name was given for, or at a plain header. -/
theorem parse_long_text {type : UInt8} {text blocks rest : Bytes} (long : LongText type text blocks)
    (marked : type ≠ 0) :
    ∃ header, blocks ++ rest = header ++ (dataBlocks (text ++ [0]) ++ rest) ∧ header.length = tarBlockSize ∧
      tarBlockIsZero header = false ∧ headerType header = type ∧ headerPath [] header = bytes "@LongLink" ∧
      parseTarOctal 0 (slice header 124 12) = (text ++ [0]).length := by
  obtain ⟨header, headed, rfl⟩ := long.headed
  refine ⟨header, List.append_assoc _ _ _, headed.length, headed.not_zero marked, headed.headerType marked, ?_, ?_⟩
  · rw [headed.headerPath_short (by decide) (by decide)]
    decide
  · rw [headed.octal, if_pos long.octal, List.length_append, List.length_singleton]

/-- A long name is kept with its zero byte. -/
theorem parse_long_name {name blocks rest : Bytes} (long : LongText longNameType name blocks) :
    parseTarEntriesFrom [] (blocks ++ rest) = parseTarEntriesFrom (trimSpaces (name ++ [0])) rest := by
  obtain ⟨header, split, length, shown, own, -, size⟩ := @parse_long_text _ _ _ rest long (by decide)
  rw [split, parse_step length shown, size, if_neg (dataBlocks_enough _ _), if_pos own, dataBlocks_take, dataBlocks_drop]

section Entries

variable {entry : TarWriteEntry} {entries : List TarWriteEntry} {blocks rest content : Bytes} {marked : Bool}

/-- The entry is listed as it was: its name and its link fit into the header, its size into
the octal digits, and the path is one that is listed at all. -/
structure Recoverable (marked : Bool) (entry : TarWriteEntry) : Prop where
  name : (gnuName marked entry).length ≤ 100
  link : (storedLink entry).length ≤ 100
  size : entry.data.length < 8 ^ 11
  listed : entry.path ≠ [] ∧ entry.path ≠ bytes "."

theorem parse_recoverable (ordinary : Ordinary entry) (recoverable : Recoverable marked entry)
    (written : GnuEntry marked entry blocks) :
    ∃ first : TarEntry, (first.path, first.data) = (entry.path, entry.data) ∧
      parseTarEntriesFrom [] (blocks ++ rest) = (parseTarEntriesFrom [] rest).map fun others => first :: others := by
  obtain ⟨linkBlocks, nameBlocks, header, links, names, headed, rfl⟩ := written
  rw [LongTextIfNeeded, if_pos recoverable.link] at links
  rw [LongTextIfNeeded, if_pos recoverable.name] at names
  have size := headed.octal
  rw [if_pos recoverable.size] at size
  have path := headed.headerPath_short recoverable.name ordinary.clear
  rw [ordinary.normalize recoverable.listed.1 recoverable.listed.2] at path
  have own : ¬ headerType header = longNameType := by
    rw [headed.headerType ordinary.type_ne.1]
    exact ordinary.type_ne.2
  have listed : ¬ entry.path.isEmpty = true := by simpa using recoverable.listed.1
  rw [links, names, List.nil_append, List.nil_append, List.append_assoc,
    parse_step headed.length (headed.not_zero ordinary.type_ne.1), size, path, if_neg (dataBlocks_enough _ _), if_neg own,
    if_neg listed, dataBlocks_take, dataBlocks_drop]
  exact ⟨_, rfl, rfl⟩

/-- What the first entry of a list is if the reader finds the entries again. -/
theorem ReadsBack.first {parsed : Except Bytes (List TarEntry)} (reads : ReadsBack (entry :: entries) parsed) :
    ∃ first others, parsed = .ok (first :: others) ∧ first.path = entry.path ∧ first.data = entry.data ∧
      ReadsBack entries (.ok others) := by
  obtain ⟨read, same, equal⟩ := reads
  cases read with
  | nil => cases equal
  | cons first others =>
      rw [List.map_cons, List.map_cons, List.cons.injEq, Prod.mk.injEq] at equal
      exact ⟨first, others, same, equal.1.1, equal.1.2, others, rfl, equal.2⟩

theorem recoverable_of_reads (ordinary : Ordinary entry) (written : GnuEntry marked entry blocks)
    (reads : ReadsBack (entry :: entries) (parseTarEntriesFrom [] (blocks ++ rest))) : Recoverable marked entry := by
  obtain ⟨first, others, parsed, samePath, sameData, -⟩ := reads.first
  obtain ⟨linkBlocks, nameBlocks, header, links, names, headed, rfl⟩ := written
  have listed := parse_paths parsed first List.mem_cons_self
  rw [samePath] at listed
  have own : headerType header ≠ longNameType := by
    rw [headed.headerType ordinary.type_ne.1]
    exact ordinary.type_ne.2
  have shown := headed.not_zero ordinary.type_ne.1
  have shortLink : (storedLink entry).length ≤ 100 := by
    by_contra long
    rw [LongTextIfNeeded, if_neg long] at links
    have symlink : entry.type = symlinkType := by
      by_contra other
      rw [storedLink, if_neg other] at long
      exact long (Nat.zero_le _)
    have empty := ordinary.data (by rw [symlink]; decide)
    rw [List.append_assoc] at parsed
    obtain ⟨linkHeader, split, length, visible, type, path, size⟩ := parse_long_text links (by decide)
    rw [split] at parsed
    obtain ⟨head, tail, same, -, data⟩ := parse_emits length visible (by rw [type]; decide) (by rw [path]; decide) parsed
    rw [List.cons.injEq] at same
    rw [← same.1, sameData, empty, size, dataBlocks_take] at data
    exact List.append_ne_nil_of_right_ne_nil _ (by decide) data.symm
  rw [LongTextIfNeeded, if_pos shortLink] at links
  subst links
  have shortName : (gnuName marked entry).length ≤ 100 := by
    by_contra long
    rw [LongTextIfNeeded, if_neg long] at names
    have inside := zero_mem_trimSpaces (gnuName marked entry)
    have path := headerPath_of_long (List.ne_nil_of_mem inside) header
    have zero := zero_mem_normalize inside
    rw [← path] at zero
    rw [List.nil_append, List.append_assoc, parse_long_name names, List.append_assoc] at parsed
    obtain ⟨head, tail, same, headPath, -⟩ := parse_emits headed.length shown own (List.ne_nil_of_mem zero) parsed
    rw [List.cons.injEq] at same
    rw [← headPath, ← same.1, samePath] at zero
    exact ordinary.text zero
  rw [LongTextIfNeeded, if_pos shortName] at names
  subst names
  refine ⟨shortName, shortLink, ?_, listed⟩
  by_contra large
  have path := headed.headerPath_short shortName ordinary.clear
  rw [ordinary.normalize listed.1 listed.2] at path
  rw [List.nil_append, List.nil_append, List.append_assoc] at parsed
  obtain ⟨head, tail, same, -, data⟩ := parse_emits headed.length shown own (by rw [path]; exact listed.1) parsed
  rw [List.cons.injEq] at same
  rw [headed.octal, if_neg large, ← same.1, sameData, List.take_zero] at data
  rw [data] at large
  exact large (by decide)

theorem parse_zeros (count : Nat) : parseTarEntriesFrom [] (List.replicate (tarBlockSize * count) 0) = .ok [] := by
  have zero : tarBlockIsZero ((List.replicate (tarBlockSize * count) 0).take tarBlockSize) = true := by
    rw [tarBlockIsZero, List.take_replicate, List.all_eq_true]
    intro c member
    rw [List.eq_of_mem_replicate member]
    rfl
  rw [parseTarEntriesFrom]
  simp only [zero, Bool.true_eq_false, and_false, dite_false]

/-- An archive of GNU tar is read back exactly if no name in it needs an entry of its own, no
link target does, no file has 8 GiB, and no path is empty or the directory itself. -/
theorem gnu_archive_reads_back_iff (ordinary : ∀ entry ∈ entries, Ordinary entry)
    (written : GnuArchive marked entries content) :
    ReadsBack entries (parseTarEntries content) ↔ ∀ entry ∈ entries, Recoverable marked entry := by
  rw [parseTarEntries]
  induction written with
  | finish count =>
      rw [parse_zeros]
      exact iff_of_true ⟨[], rfl, rfl⟩ (List.forall_mem_nil _)
  | entry first later ih =>
      rw [List.forall_mem_cons] at ordinary
      rw [List.forall_mem_cons, ← ih ordinary.2]
      apply Iff.intro
      · intro reads
        have recoverable := recoverable_of_reads ordinary.1 first reads
        obtain ⟨head, -, step⟩ := @parse_recoverable _ _ _ _ ordinary.1 recoverable first
        rw [step] at reads
        obtain ⟨own, others, parsed, -, -, rest⟩ := reads.first
        refine ⟨recoverable, ?_⟩
        revert parsed
        cases parseTarEntriesFrom [] _ with
        | error message => intro parsed; cases parsed
        | ok read =>
            intro parsed
            cases parsed
            exact rest
      · intro both
        obtain ⟨head, same, step⟩ := parse_recoverable ordinary.1 both.1 first
        obtain ⟨read, parsed, equal⟩ := both.2
        rw [step, parsed]
        exact ⟨head :: read, rfl, by rw [List.map_cons, List.map_cons, same, equal]⟩

end Entries

/-! ## Archives that are written so -/

section Written

variable {entry : TarWriteEntry} {marked : Bool}

def gnuHeaderWrites (name : Bytes) (type : UInt8) (linkTarget : Bytes) (size : Nat) : List (Nat × Bytes) :=
  [(0, name.take 100), (124, gnuNumber size), (156, [type]), (157, linkTarget.take 100)]

/-- A header with the fields that are read. -/
def gnuHeader (name : Bytes) (type : UInt8) (linkTarget : Bytes) (size : Nat) : Bytes :=
  overwriteAll (List.replicate tarBlockSize 0) (gnuHeaderWrites name type linkTarget size)

theorem gnuNumber_length (value : Nat) : (gnuNumber value).length = 12 := by
  rw [gnuNumber]
  split
  · rename_i small
    have short := (@toOctal_length_le_iff value 11 (by decide)).2 small
    simp only [List.length_append, List.length_replicate, List.length_singleton]
    omega
  · rfl

theorem take_inField (text : Bytes) (length : Nat) : InField text (padded (text.take length) length) length := by
  refine ⟨text.take length, List.take_prefix _ _, List.take_of_length_le, ?_, rfl⟩
  rw [List.length_take]
  exact Nat.min_le_left _ _

theorem gnuHeader_headed (name : Bytes) (type : UInt8) (linkTarget : Bytes) (size : Nat) :
    GnuHeader name type linkTarget size (gnuHeader name type linkTarget size) := by
  have number := gnuNumber_length size
  have shortName : (name.take 100).length ≤ 100 := by
    rw [List.length_take]
    exact Nat.min_le_left _ _
  have shortLink : (linkTarget.take 100).length ≤ 100 := by
    rw [List.length_take]
    exact Nat.min_le_left _ _
  have fits : ∀ write ∈ gnuHeaderWrites name type linkTarget size, Fits tarBlockSize write := by
    simp only [gnuHeaderWrites, List.forall_mem_cons, Fits, number, List.length_singleton, tarBlockSize]
    refine ⟨?_, ?_, ?_, ?_, by simp⟩ <;> omega
  have region (index : Nat) {position length : Nat} {values : Bytes}
      (found : (gnuHeaderWrites name type linkTarget size)[index]? = some (position, values))
      (inside : values.length ≤ length) (bounded : position + length ≤ tarBlockSize)
      (apart : ∀ write ∈ (gnuHeaderWrites name type linkTarget size).eraseIdx index, Apart position length write) :=
    slice_header index found fits inside bounded apart
  have zeroFits : ∀ write ∈ gnuHeaderWrites name type linkTarget size,
      Fits (List.replicate tarBlockSize (0 : UInt8)).length write := by
    rw [List.length_replicate]
    exact fits
  rw [gnuHeader]
  constructor
  · rw [overwriteAll_length zeroFits, List.length_replicate]
  · rw [region 0 rfl shortName (by decide)]
    · exact take_inField name 100
    · simp only [gnuHeaderWrites, List.eraseIdx_zero, List.tail_cons, List.forall_mem_cons, Apart, List.length_singleton]
      refine ⟨?_, ?_, ?_, by simp⟩ <;> omega
  · rw [region 1 rfl (Nat.le_of_eq number) (by decide), padded, number, Nat.sub_self, List.replicate_zero,
      List.append_nil]
    simp only [gnuHeaderWrites, List.eraseIdx_cons_succ, List.eraseIdx_zero, List.tail_cons, List.forall_mem_cons, Apart,
      List.length_singleton]
    refine ⟨?_, ?_, ?_, by simp⟩ <;> omega
  · rw [region 2 rfl (Nat.le_refl 1) (by decide)]
    · rfl
    · simp only [gnuHeaderWrites, List.eraseIdx_cons_succ, List.eraseIdx_zero, List.tail_cons, List.forall_mem_cons,
        Apart]
      refine ⟨?_, ?_, ?_, by simp⟩ <;> omega
  · rw [region 3 rfl shortLink (by decide)]
    · exact take_inField linkTarget 100
    · simp only [gnuHeaderWrites, List.eraseIdx_cons_succ, List.eraseIdx_zero, List.tail_cons, List.forall_mem_cons,
        Apart, List.length_singleton]
      refine ⟨?_, ?_, ?_, by simp⟩ <;> omega
  · rw [slice_overwriteAll_apart zeroFits, slice_zeros (by decide)]
    simp only [gnuHeaderWrites, List.forall_mem_cons, Apart, List.length_singleton]
    refine ⟨?_, ?_, ?_, ?_, by simp⟩ <;> omega

def longText (type : UInt8) (text : Bytes) : Bytes :=
  if text.length ≤ 100 then [] else gnuHeader longLinkName type [] (text.length + 1) ++ dataBlocks (text ++ [0])

theorem longText_written {type : UInt8} {text : Bytes} (octal : text.length + 1 < 8 ^ 11) :
    LongTextIfNeeded type text (longText type text) := by
  rw [LongTextIfNeeded, longText]
  split
  · rfl
  · exact ⟨octal, _, gnuHeader_headed _ _ _ _, rfl⟩

def gnuBlocks (marked : Bool) (entry : TarWriteEntry) : Bytes :=
  longText longLinkType (storedLink entry) ++ (longText longNameType (gnuName marked entry) ++
    (gnuHeader (gnuName marked entry) entry.type (storedLink entry) entry.data.length ++ dataBlocks entry.data))

theorem gnuBlocks_written (link : (storedLink entry).length + 1 < 8 ^ 11)
    (name : (gnuName marked entry).length + 1 < 8 ^ 11) : GnuEntry marked entry (gnuBlocks marked entry) :=
  ⟨_, _, _, longText_written link, longText_written name, gnuHeader_headed _ _ _ _, rfl⟩

end Written

theorem gnu_archive_reads_back_tool :
    ReadsBack [toolEntry] (parseTarEntries (gnuBlocks true toolEntry ++ List.replicate (tarBlockSize * 2) 0)) := by
  have ordinary : ∀ entry ∈ [toolEntry], Ordinary entry := by
    rw [List.forall_mem_singleton]
    exact ⟨Or.inl rfl, fun other => absurd rfl other, by decide, by decide, by decide, by decide, by decide⟩
  have written : GnuArchive true [toolEntry] (gnuBlocks true toolEntry ++ List.replicate (tarBlockSize * 2) 0) :=
    .entry (gnuBlocks_written (by decide) (by decide)) (.finish 2)
  apply (gnu_archive_reads_back_iff ordinary written).2
  rw [List.forall_mem_singleton]
  exact ⟨by decide, by decide, by decide, by decide, by decide⟩

/-- A file with a path of 101 bytes. -/
def longNamedEntry : TarWriteEntry := ⟨List.replicate 101 97, fileType, [], [], 0o644⟩

/-- The path of the file is read with the zero byte that ends it in the archive. -/
theorem long_name_keeps_zero :
    ¬ ∀ (marked : Bool) (entries : List TarWriteEntry) (content : Bytes), (∀ entry ∈ entries, Ordinary entry) →
      GnuArchive marked entries content → ReadsBack entries (parseTarEntries content) := by
  intro all
  have ordinary : Ordinary longNamedEntry :=
    ⟨Or.inl rfl, fun other => absurd rfl other, by decide +kernel, by decide, by decide +kernel, by decide +kernel,
      by decide +kernel⟩
  have written : GnuEntry false longNamedEntry (gnuBlocks false longNamedEntry) :=
    gnuBlocks_written (by decide) (by decide +kernel)
  have reads := all false [longNamedEntry] _ (List.forall_mem_singleton.2 ordinary) (.entry written (.finish 2))
  have short := (recoverable_of_reads ordinary written reads).name
  exact absurd short (by decide +kernel)

end ReqPack.Rqp
