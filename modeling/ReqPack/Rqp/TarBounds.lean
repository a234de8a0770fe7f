import ReqPack.Rqp.Tar

/-! # The tar reader on 64-bit offsets

`parse_tar_entries` as it runs on a machine: sizes and offsets wrap around at 2^64, and every
access names its place in the text.  No round wraps or reads outside, so the rounds are those
of the reader on lists.
-/

namespace ReqPack.Rqp

open ReqPack.Data
open ReqPack.Data.Ascii

/-- A `std::string`: it has fewer bytes than a pointer difference can count. -/
structure StdString where
  content : Bytes
  bounded : content.length < 2 ^ 63

namespace StdString

def size (text : StdString) : UInt64 := UInt64.ofNat text.content.length

/-- The bytes of a region; nothing if the region does not lie inside the text. -/
def read (text : StdString) (position length : UInt64) : Option Bytes :=
  if position.toNat + length.toNat ≤ text.content.length then
    some (slice text.content position.toNat length.toNat)
  else none

@[simp] theorem toNat_size (text : StdString) : text.size.toNat = text.content.length := by
  have bounded := text.bounded
  rw [size, UInt64.toNat_ofNat', Nat.mod_eq_of_lt (by omega)]

end StdString

/-- `parse_tar_octal` on `std::uint64_t`. -/
def parseTarOctal64 (value : UInt64) : Bytes → UInt64
  | [] => value
  | c :: rest =>
      if c = 0 then value
      else if c = space ∨ c = 9 then parseTarOctal64 value rest
      else if c < 48 ∨ 55 < c then value
      else parseTarOctal64 (value * 8 + (c - 48).toUInt64) rest

structure TarState where
  offset : UInt64 := 0
  longPath : Bytes := []
  entries : List TarEntry := []

/-- How a call ends; `outside` is an access that is not inside the text. -/
inductive TarEnding where
  | returned (entries : List TarEntry)
  | threw (message : Bytes)
  | outside

inductive TarRound where
  | next (state : TarState)
  | ends (ending : TarEnding)

def paddedSize64 (size : UInt64) : UInt64 := (size + 512 - 1) / 512 * 512

/-- One round of the loop of `parse_tar_entries`. -/
def tarRound (text : StdString) (state : TarState) : TarRound :=
  if state.offset + 512 ≤ text.size then
    match text.read state.offset 512 with
    | none => .ends .outside
    | some header =>
        if tarBlockIsZero header then .ends (.returned state.entries)
        else
          let size := parseTarOctal64 0 (slice header 124 12)
          let type := headerType header
          let path := headerPath state.longPath header
          let offset := state.offset + 512
          if text.size < offset + size then .ends (.threw (bytes "tar entry exceeds archive size"))
          else
            match if 0 < size then text.read offset size else some [] with
            | none => .ends .outside
            | some data =>
                let offset := offset + paddedSize64 size
                if type = 76 then .next ⟨offset, trimSpaces data, state.entries⟩
                else if path.isEmpty then .next ⟨offset, [], state.entries⟩
                else
                  .next ⟨offset, [], state.entries ++
                    [⟨path, type, size.toNat, data, parseTarString (slice header 157 100)⟩]⟩
  else .ends (.returned state.entries)

/-- What comes of a round if `run` goes on from the next state. -/
def TarRound.continued (run : TarState → Option TarEnding) : TarRound → Option TarEnding
  | .next later => run later
  | .ends ending => some ending

/-- The loop, for a number of rounds; nothing if it has not ended by then. -/
def runTar (text : StdString) : Nat → TarState → Option TarEnding
  | 0, _ => none
  | rounds + 1, state => (tarRound text state).continued (runTar text rounds)

/-- The states at the head of the loop. -/
inductive TarReached (text : StdString) : TarState → Prop
  | start : TarReached text {}
  | step {state later : TarState} (reached : TarReached text state) (next : tarRound text state = .next later) :
      TarReached text later

/-- The size the header at the offset of a state gives. -/
def sizeAt (text : StdString) (state : TarState) : UInt64 :=
  parseTarOctal64 0 (slice (slice text.content state.offset.toNat 512) 124 12)

/-- Nothing that a round computes wraps around, and what it reads is inside the text. -/
structure SafeRound (text : StdString) (state : TarState) : Prop where
  header : (state.offset + 512).toNat = state.offset.toNat + 512
  octal : (sizeAt text state).toNat = parseTarOctal 0 (slice (slice text.content state.offset.toNat 512) 124 12)
  data : (state.offset + 512 + sizeAt text state).toNat = state.offset.toNat + 512 + (sizeAt text state).toNat
  padding : (paddedSize64 (sizeAt text state)).toNat = paddedSize (sizeAt text state).toNat
  advance : (state.offset + 512 + paddedSize64 (sizeAt text state)).toNat =
    state.offset.toNat + 512 + paddedSize (sizeAt text state).toNat
  headerInside : state.offset + 512 ≤ text.size → state.offset.toNat + 512 ≤ text.content.length
  dataInside : ¬ text.size < state.offset + 512 + sizeAt text state →
    state.offset.toNat + 512 + (sizeAt text state).toNat ≤ text.content.length

/-! ## Octal numbers -/

section Octal

theorem parseTarOctal_lt {value count : Nat} (small : value < 8 ^ count) (field : Bytes) :
    parseTarOctal value field < 8 ^ (count + field.length) := by
  induction field generalizing value count with
  | nil => exact small
  | cons c rest ih =>
      have wider : value < 8 ^ (count + (c :: rest).length) :=
        Nat.lt_of_lt_of_le small (Nat.pow_le_pow_right (by decide) (Nat.le_add_right _ _))
      have same : count + (c :: rest).length = count + 1 + rest.length := by
        rw [List.length_cons]
        omega
      have skipped : value < 8 ^ (count + 1) := Nat.lt_of_lt_of_le small (Nat.pow_le_pow_right (by decide) (by omega))
      simp only [parseTarOctal]
      split
      · exact wider
      · split
        · rw [same]
          exact ih skipped
        · split
          · exact wider
          · rename_i inside
            rw [same]
            apply ih
            simp only [UInt8.lt_iff_toNat_lt, not_or, not_lt] at inside
            have upper : c.toNat ≤ 55 := inside.2
            rw [Nat.pow_succ]
            omega

/-- Twelve digits do not wrap around. -/
theorem parseTarOctal64_toNat {value : UInt64} {count : Nat} (small : value.toNat < 8 ^ count) {field : Bytes}
    (room : count + field.length ≤ 21) : (parseTarOctal64 value field).toNat = parseTarOctal value.toNat field := by
  induction field generalizing value count with
  | nil => rfl
  | cons c rest ih =>
      rw [List.length_cons] at room
      have below : 8 ^ count ≤ 8 ^ 20 := Nat.pow_le_pow_right (by decide) (by omega)
      have skipped : value.toNat < 8 ^ (count + 1) :=
        Nat.lt_of_lt_of_le small (Nat.pow_le_pow_right (by decide) (by omega))
      simp only [parseTarOctal64, parseTarOctal]
      split
      · rfl
      · split
        · exact ih skipped (by omega)
        · split
          · rfl
          · rename_i inside
            simp only [UInt8.lt_iff_toNat_lt, not_or, not_lt] at inside
            have lower : 48 ≤ c.toNat := inside.1
            have upper : c.toNat ≤ 55 := inside.2
            have least : (48 : UInt8) ≤ c := UInt8.le_iff_toNat_le.2 lower
            have digit : (c - 48).toUInt64.toNat = c.toNat - 48 := by
              rw [UInt8.toNat_toUInt64, UInt8.toNat_sub_of_le _ _ least]
              rfl
            have next : (value * 8 + (c - 48).toUInt64).toNat = value.toNat * 8 + (c.toNat - 48) := by
              rw [UInt64.toNat_add, UInt64.toNat_mul, digit]
              have eight : (8 : UInt64).toNat = 8 := rfl
              rw [eight]
              omega
            rw [@ih _ (count + 1) ?_ (by omega), next]
            rw [next, Nat.pow_succ]
            omega

end Octal

/-! ## One round -/

section Rounds

variable {text : StdString} {state later : TarState}

/-- What holds of the offset and the entries at the head of the loop. -/
structure TarInvariant (text : StdString) (state : TarState) : Prop where
  offset : state.offset.toNat ≤ text.content.length + 511
  spent : (state.entries.map fun entry => entry.data.length).sum ≤ state.offset.toNat
  within : (state.entries.map fun entry => entry.data.length).sum ≤ text.content.length
  sized : ∀ entry ∈ state.entries, entry.data.length = entry.size

theorem sizeAt_toNat (text : StdString) (state : TarState) :
    (sizeAt text state).toNat = parseTarOctal 0 (slice (slice text.content state.offset.toNat 512) 124 12) := by
  have short : (slice (slice text.content state.offset.toNat 512) 124 12).length ≤ 12 := by
    rw [slice, List.length_take]
    exact Nat.min_le_left _ _
  exact @parseTarOctal64_toNat 0 0 (by decide) _ (by omega)

theorem sizeAt_lt (text : StdString) (state : TarState) : (sizeAt text state).toNat < 2 ^ 36 := by
  have short : (slice (slice text.content state.offset.toNat 512) 124 12).length ≤ 12 := by
    rw [slice, List.length_take]
    exact Nat.min_le_left _ _
  have digits := @parseTarOctal_lt 0 0 (by decide) (slice (slice text.content state.offset.toNat 512) 124 12)
  rw [sizeAt_toNat]
  refine Nat.lt_of_lt_of_le digits ?_
  have most : 8 ^ (0 + (slice (slice text.content state.offset.toNat 512) 124 12).length) ≤ 8 ^ 12 :=
    Nat.pow_le_pow_right (by decide) (by omega)
  omega

theorem paddedSize64_toNat {size : UInt64} (small : size.toNat < 2 ^ 36) :
    (paddedSize64 size).toNat = paddedSize size.toNat := by
  have block : (512 : UInt64).toNat = 512 := rfl
  have one : (1 : UInt64).toNat = 1 := rfl
  rw [paddedSize64, UInt64.toNat_mul, UInt64.toNat_div, UInt64.toNat_sub, UInt64.toNat_add, block, one, paddedSize,
    tarBlockSize]
  omega

/-- The bounds of a round follow from those of the offset. -/
theorem TarInvariant.safe (invariant : TarInvariant text state) : SafeRound text state := by
  have bounded := text.bounded
  have offset := invariant.offset
  have small := sizeAt_lt text state
  have padding := paddedSize64_toNat small
  have block : (512 : UInt64).toNat = 512 := rfl
  have header : (state.offset + 512).toNat = state.offset.toNat + 512 := by
    rw [UInt64.toNat_add, block]
    omega
  have data : (state.offset + 512 + sizeAt text state).toNat = state.offset.toNat + 512 + (sizeAt text state).toNat := by
    rw [UInt64.toNat_add, header]
    omega
  refine ⟨header, sizeAt_toNat text state, data, padding, ?_, ?_, ?_⟩
  · rw [UInt64.toNat_add, header, padding, paddedSize, tarBlockSize]
    omega
  · rw [UInt64.le_iff_toNat_le, header, text.toNat_size]
    exact id
  · rw [UInt64.lt_iff_toNat_lt, data, text.toNat_size]
    omega

/-- What a round does, in numbers. -/
theorem tarRound_eq (safe : SafeRound text state) :
    tarRound text state =
      if tarBlockSize ≤ (text.content.drop state.offset.toNat).length ∧
          tarBlockIsZero ((text.content.drop state.offset.toNat).take tarBlockSize) = false then
        let header := (text.content.drop state.offset.toNat).take tarBlockSize
        let body := (text.content.drop state.offset.toNat).drop tarBlockSize
        let offset := state.offset + 512 + paddedSize64 (sizeAt text state)
        if body.length < (sizeAt text state).toNat then .ends (.threw (bytes "tar entry exceeds archive size"))
        else if headerType header = 76 then
          .next ⟨offset, trimSpaces (body.take (sizeAt text state).toNat), state.entries⟩
        else if (headerPath state.longPath header).isEmpty then .next ⟨offset, [], state.entries⟩
        else
          .next ⟨offset, [], state.entries ++ [⟨headerPath state.longPath header, headerType header,
            (sizeAt text state).toNat, body.take (sizeAt text state).toNat, parseTarString (slice header 157 100)⟩]⟩
      else .ends (.returned state.entries) := by
  have block : (512 : UInt64).toNat = 512 := rfl
  have length : (text.content.drop state.offset.toNat).length = text.content.length - state.offset.toNat :=
    List.length_drop
  rw [tarRound]
  by_cases more : state.offset + 512 ≤ text.size
  · have inside := safe.headerInside more
    have room : tarBlockSize ≤ (text.content.drop state.offset.toNat).length := by
      rw [length, tarBlockSize]
      omega
    have reads : text.read state.offset 512 = some ((text.content.drop state.offset.toNat).take tarBlockSize) := by
      rw [StdString.read, block, if_pos inside]
      rfl
    have own : parseTarOctal64 0 (slice ((text.content.drop state.offset.toNat).take tarBlockSize) 124 12) =
        sizeAt text state := rfl
    rw [if_pos more, reads]
    simp only [room, true_and, own]
    by_cases zero : tarBlockIsZero ((text.content.drop state.offset.toNat).take tarBlockSize) = true
    · rw [if_pos zero, if_neg (by rw [zero]; decide)]
    · have shown : tarBlockIsZero ((text.content.drop state.offset.toNat).take tarBlockSize) = false := by
        simpa using zero
      rw [if_neg zero, if_pos shown]
      have tooMuch : text.size < state.offset + 512 + sizeAt text state ↔
          ((text.content.drop state.offset.toNat).drop tarBlockSize).length < (sizeAt text state).toNat := by
        rw [UInt64.lt_iff_toNat_lt, safe.data, text.toNat_size, List.length_drop, length, tarBlockSize]
        omega
      by_cases exceeds : text.size < state.offset + 512 + sizeAt text state
      · rw [if_pos exceeds, if_pos (tooMuch.1 exceeds)]
      · have dataInside := safe.dataInside exceeds
        have data : (if 0 < sizeAt text state then text.read (state.offset + 512) (sizeAt text state) else some []) =
            some (((text.content.drop state.offset.toNat).drop tarBlockSize).take (sizeAt text state).toNat) := by
          split
          · rw [StdString.read, safe.header, if_pos dataInside, slice, List.drop_drop, tarBlockSize]
          · rename_i empty
            have none : (sizeAt text state).toNat = 0 := by
              rw [UInt64.lt_iff_toNat_lt] at empty
              exact Nat.eq_zero_of_not_pos empty
            rw [none, List.take_zero]
        rw [if_neg exceeds, if_neg (fun less => exceeds (tooMuch.2 less)), data]
  · have short : ¬ tarBlockSize ≤ (text.content.drop state.offset.toNat).length := by
      rw [UInt64.le_iff_toNat_le, safe.header, text.toNat_size] at more
      rw [length, tarBlockSize]
      omega
    rw [if_neg more, if_neg fun both => short both.1]

/-- The ending of a call that has its first entries and gets the others from a reader on lists. -/
def endingWith (before : List TarEntry) : Except Bytes (List TarEntry) → TarEnding
  | .ok entries => .returned (before ++ entries)
  | .error message => .threw message

/-- How the reader on lists ends from a state. -/
def listEnding (text : StdString) (state : TarState) : TarEnding :=
  endingWith state.entries (parseTarEntriesFrom state.longPath (text.content.drop state.offset.toNat))

/-- The entry a round reads, with its data in the bytes behind the header. -/
def entryAt (text : StdString) (state : TarState) : TarEntry :=
  let header := (text.content.drop state.offset.toNat).take tarBlockSize
  let body := (text.content.drop state.offset.toNat).drop tarBlockSize
  ⟨headerPath state.longPath header, headerType header, (sizeAt text state).toNat,
    body.take (sizeAt text state).toNat, parseTarString (slice header 157 100)⟩

/-- The offset of the next header. -/
def offsetBehind (text : StdString) (state : TarState) : UInt64 :=
  state.offset + 512 + paddedSize64 (sizeAt text state)

theorem listEnding_eq (safe : SafeRound text state) :
    listEnding text state =
      if tarBlockSize ≤ (text.content.drop state.offset.toNat).length ∧
          tarBlockIsZero ((text.content.drop state.offset.toNat).take tarBlockSize) = false then
        if ((text.content.drop state.offset.toNat).drop tarBlockSize).length < (sizeAt text state).toNat then
          .threw (bytes "tar entry exceeds archive size")
        else if (entryAt text state).type = 76 then
          listEnding text ⟨offsetBehind text state, trimSpaces (entryAt text state).data, state.entries⟩
        else if (entryAt text state).path.isEmpty then
          listEnding text ⟨offsetBehind text state, [], state.entries⟩
        else listEnding text ⟨offsetBehind text state, [], state.entries ++ [entryAt text state]⟩
      else .returned state.entries := by
  have behind : ((text.content.drop state.offset.toNat).drop tarBlockSize).drop (paddedSize (sizeAt text state).toNat) =
      text.content.drop (offsetBehind text state).toNat := by
    rw [offsetBehind, safe.advance, List.drop_drop, List.drop_drop, tarBlockSize, Nat.add_assoc]
  have own : parseTarOctal 0 (slice ((text.content.drop state.offset.toNat).take tarBlockSize) 124 12) =
      (sizeAt text state).toNat := safe.octal.symm
  rw [listEnding, parseTarEntriesFrom]
  split
  · simp only [own, behind]
    split
    · rfl
    · rw [apply_ite (endingWith state.entries), apply_ite (endingWith state.entries)]
      congr 2
      rw [listEnding]
      generalize parseTarEntriesFrom [] _ = others
      cases others with
      | error message => rfl
      | ok entries =>
          simp only [endingWith, Except.map, List.append_assoc, List.singleton_append]
          rfl
  · rw [endingWith, List.append_nil]

/-- The next state behind an entry that lies inside the text, with the entry or without it. -/
structure Advances (text : StdString) (state later : TarState) : Prop where
  inside : state.offset.toNat + 512 + (sizeAt text state).toNat ≤ text.content.length
  offset : later.offset.toNat = state.offset.toNat + 512 + paddedSize (sizeAt text state).toNat
  entries : later.entries = state.entries ∨ later.entries = state.entries ++ [entryAt text state]
  ending : listEnding text state = listEnding text later

/-- A round ends as the reader on lists does, or goes on behind an entry. -/
theorem tarRound_cases (safe : SafeRound text state) :
    (tarRound text state = .ends (listEnding text state) ∧
      ∀ entries, listEnding text state = .returned entries → entries = state.entries) ∨
      ∃ later, tarRound text state = .next later ∧ Advances text state later := by
  have ending := listEnding_eq safe
  rw [tarRound_eq safe]
  by_cases more : tarBlockSize ≤ (text.content.drop state.offset.toNat).length ∧
      tarBlockIsZero ((text.content.drop state.offset.toNat).take tarBlockSize) = false
  · rw [if_pos more] at ending ⊢
    by_cases exceeds :
        ((text.content.drop state.offset.toNat).drop tarBlockSize).length < (sizeAt text state).toNat
    · rw [if_pos exceeds] at ending
      rw [ending]
      exact Or.inl ⟨if_pos exceeds, fun entries returned => nomatch returned⟩
    · rw [if_neg exceeds] at ending
      have inside : state.offset.toNat + 512 + (sizeAt text state).toNat ≤ text.content.length := by
        have room := more.1
        rw [List.length_drop, List.length_drop, tarBlockSize] at exceeds
        rw [List.length_drop, tarBlockSize] at room
        omega
      refine Or.inr ?_
      by_cases long : (entryAt text state).type = 76
      · rw [if_pos long] at ending
        exact ⟨_, (if_neg exceeds).trans (if_pos long), inside, safe.advance, Or.inl rfl, ending⟩
      · rw [if_neg long] at ending
        by_cases unnamed : (entryAt text state).path.isEmpty
        · rw [if_pos unnamed] at ending
          exact ⟨_, (if_neg exceeds).trans ((if_neg long).trans (if_pos unnamed)), inside, safe.advance, Or.inl rfl,
            ending⟩
        · rw [if_neg unnamed] at ending
          exact ⟨_, (if_neg exceeds).trans ((if_neg long).trans (if_neg unnamed)), inside, safe.advance, Or.inr rfl,
            ending⟩
  · rw [if_neg more] at ending ⊢
    rw [ending]
    refine Or.inl ⟨rfl, ?_⟩
    intro entries returned
    cases returned
    rfl

/-- An entry inside the text has the data its header says. -/
theorem entryAt_sized (inside : state.offset.toNat + 512 + (sizeAt text state).toNat ≤ text.content.length) :
    (entryAt text state).data.length = (sizeAt text state).toNat := by
  simp only [entryAt, List.length_take, List.length_drop, tarBlockSize]
  omega

theorem Advances.invariant (advances : Advances text state later) (invariant : TarInvariant text state) :
    TarInvariant text later := by
  have inside := advances.inside
  have offset := advances.offset
  have spent := invariant.spent
  have within := invariant.within
  have padded : (sizeAt text state).toNat ≤ paddedSize (sizeAt text state).toNat ∧
      paddedSize (sizeAt text state).toNat ≤ (sizeAt text state).toNat + 511 := by
    rw [paddedSize, tarBlockSize]
    omega
  have sized := entryAt_sized inside
  obtain same | added := advances.entries
  · refine ⟨by omega, ?_, ?_, ?_⟩
    · rw [same]
      omega
    · rw [same]
      omega
    · rw [same]
      exact invariant.sized
  · have sum : (later.entries.map fun entry => entry.data.length).sum =
        (state.entries.map fun entry => entry.data.length).sum + (sizeAt text state).toNat := by
      rw [added, List.map_append, List.sum_append, List.map_singleton, List.sum_singleton, sized]
    refine ⟨by omega, by omega, by omega, ?_⟩
    rw [added, List.forall_mem_append, List.forall_mem_singleton]
    exact ⟨invariant.sized, sized⟩

theorem TarReached.invariant (reached : TarReached text state) : TarInvariant text state := by
  induction reached with
  | start => exact ⟨Nat.zero_le _, Nat.le_refl _, Nat.zero_le _, List.forall_mem_nil _⟩
  | step _ next invariant =>
      obtain ⟨ends, -⟩ | ⟨later, goes, advances⟩ := tarRound_cases invariant.safe
      · rw [ends] at next
        cases next
      · rw [goes] at next
        cases next
        exact advances.invariant invariant

/-- The loop ends as the reader on lists does, and what it returns was read along the way. -/
theorem runTar_ends {rounds : Nat} (enough : text.content.length + 512 ≤ state.offset.toNat + 512 * rounds)
    (invariant : TarInvariant text state) :
    runTar text rounds state = some (listEnding text state) ∧
      ∀ entries, listEnding text state = .returned entries →
        (entries.map fun entry => entry.data.length).sum ≤ text.content.length ∧
          ∀ entry ∈ entries, entry.data.length = entry.size := by
  induction rounds generalizing state with
  | zero =>
      have late : text.content.length + 512 ≤ state.offset.toNat := enough
      exact absurd invariant.offset (Nat.not_le_of_lt late)
  | succ rounds ih =>
      obtain ⟨ends, own⟩ | ⟨later, goes, advances⟩ := tarRound_cases invariant.safe
      · rw [runTar, ends]
        refine ⟨rfl, ?_⟩
        intro entries returned
        rw [own entries returned]
        exact ⟨invariant.within, invariant.sized⟩
      · have offset := advances.offset
        rw [runTar, goes, advances.ending]
        exact ih (by omega) (advances.invariant invariant)

end Rounds

/-- On any text the loop ends after a round for each block and two more; no round wraps around
or reads outside the text; and what is returned is what the reader on lists returns, with as
much data as each header says and no more than the text holds. -/
theorem tar_reader_total (text : StdString) :
    (∀ state, TarReached text state → SafeRound text state) ∧
      runTar text (text.content.length / 512 + 2) {} = some (endingWith [] (parseTarEntries text.content)) ∧
      ∀ entries, parseTarEntries text.content = .ok entries →
        (entries.map fun entry => entry.data.length).sum ≤ text.content.length ∧
          ∀ entry ∈ entries, entry.data.length = entry.size := by
  have same : listEnding text {} = endingWith [] (parseTarEntries text.content) := rfl
  have rounds : text.content.length + 512 ≤ (0 : UInt64).toNat + 512 * (text.content.length / 512 + 2) := by
    have zero : (0 : UInt64).toNat = 0 := rfl
    omega
  obtain ⟨ends, returned⟩ := @runTar_ends text {} _ rounds TarReached.start.invariant
  rw [same] at ends returned
  refine ⟨fun state reached => reached.invariant.safe, ends, ?_⟩
  intro entries parsed
  exact returned entries (by rw [parsed]; rfl)

end ReqPack.Rqp
