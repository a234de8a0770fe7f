import ReqPack.Registry.Json
import ReqPack.Registry.Sync

/-! # Records that a further sync leaves alone

A record that was written for a registry file and is read back inherits from itself: all
a further sync of the same file could change is the payload.
-/

namespace ReqPack.Registry

open ReqPack.Data ReqPack.Core
open ReqPack.Planner (trimCopy toLowerCopy)

/-! ## Reading back lists of lines -/

theorem splitLines_joinLines_of {lines : List String}
    (formed : ∀ line ∈ lines, line.toList ≠ [] ∧ '\n' ∉ line.toList) :
    splitLines (joinLines lines) = lines := by
  cases lines with
  | nil => rfl
  | cons first rest =>
      have plain : ∀ letters ∈ (first :: rest).map String.toList, '\n' ∉ letters := by
        intro letters member
        obtain ⟨line, listed, rfl⟩ := List.mem_map.mp member
        exact (formed line listed).2
      have full : ((first :: rest).map String.toList).filter (fun line => !line.isEmpty) =
          (first :: rest).map String.toList := by
        rw [List.filter_eq_self]
        intro letters member
        obtain ⟨line, listed, rfl⟩ := List.mem_map.mp member
        simpa using (formed line listed).1
      simp only [splitLines, joinLines, String.toList_ofList]
      rw [List.splitOn_intercalate _ plain (by simp), full, List.map_map]
      simp [Function.comp_def]

theorem splitLines_formed (text : String) :
    ∀ line ∈ splitLines text, line.toList ≠ [] ∧ '\n' ∉ line.toList := by
  intro line member
  simp only [splitLines, List.mem_map, List.mem_filter] at member
  obtain ⟨letters, ⟨listed, full⟩, rfl⟩ := member
  simp only [String.toList_ofList]
  exact ⟨by simpa using full, not_mem_of_mem_splitOn listed⟩

theorem splitLines_idem (text : String) : splitLines (joinLines (splitLines text)) = splitLines text :=
  splitLines_joinLines_of (splitLines_formed text)

/-! ## What is read back -/

theorem restoredRecord_eq_some {record restored : RegistryRecord} (read : restoredRecord record = some restored) :
    restored =
      { record with
        capabilities := splitLines (joinLines record.capabilities)
        ecosystemScopes := splitLines (joinLines record.ecosystemScopes) } := by
  simp only [restoredRecord] at read
  split at read
  · cases read
  · split at read
    · cases read
    · exact (Option.some.inj read).symm

/-- A record without a script and with a source can be read back. -/
theorem restoredRecord_isSome {record : RegistryRecord} (source : record.source.isEmpty = false)
    (script : record.script = "") : (restoredRecord record).isSome = true := by
  simp [restoredRecord, source, script]

section Payload

variable {env : RegistryEnv}

/-- A sync that fetches nothing would leave the payload of this record alone. -/
structure Settled (env : RegistryEnv) (record : RegistryRecord) : Prop where
  /-- it can be read back -/
  readable : (restoredRecord record).isSome = true
  /-- the payload of an untrusted plugin was cleared -/
  untrusted : canMaterializePlugin record = true → passesThinLayerTrust env record = false →
    clearPayload record = record
  /-- the bundle of a trusted plugin was found, unless there is none -/
  located : canMaterializePlugin record = true → passesThinLayerTrust env record = true →
    record.bundleSource = true ∨ env.resolveBundlePath record.source record.name = none
  /-- the script of a trusted plugin has the hash it is pinned to -/
  pinned : canMaterializePlugin record = true → passesThinLayerTrust env record = true →
    record.script.isEmpty = true ∨ matchesExpectedHashes env record = true

theorem clearPayload_ne {record : RegistryRecord} (script : record.script.isEmpty = false)
    (same : clearPayload record = record) : False := by
  rw [← same] at script
  cases script

theorem dropMismatched_eq_self {record : RegistryRecord} (plugin : canMaterializePlugin record = true) :
    dropMismatched env record = record ↔
      record.script.isEmpty = true ∨ matchesExpectedHashes env record = true := by
  rw [dropMismatched]
  cases script : record.script.isEmpty with
  | true => simp
  | false =>
      cases matched : matchesExpectedHashes env record with
      | true => simp
      | false =>
          simp only [plugin, Bool.not_false, Bool.and_self, if_true, Bool.false_eq_true, or_self, iff_false]
          exact clearPayload_ne script

/-- Exactly the settled payloads stay. -/
theorem settlePayload_eq_self {record : RegistryRecord} (readable : (restoredRecord record).isSome = true) :
    settlePayload env false record = record ↔ Settled env record := by
  cases plugin : canMaterializePlugin record with
  | false =>
      have stays : settlePayload env false record = record := by
        simp [settlePayload, locateBundle, dropUntrusted, dropMismatched, plugin]
      simp only [stays, true_iff]
      exact ⟨readable, by simp [plugin], by simp [plugin], by simp [plugin]⟩
  | true =>
      cases trust : passesThinLayerTrust env record with
      | false =>
          have cleared : settlePayload env false record = clearPayload record := by
            have located : dropUntrusted env (locateBundle env record) = clearPayload record := by
              simp only [locateBundle]
              split
              · split
                · simp [dropUntrusted, plugin, trust]
                · rename_i path _
                  have same : canMaterializePlugin { record with bundleSource := true, bundlePath := path } =
                      canMaterializePlugin record := rfl
                  have alike : passesThinLayerTrust env { record with bundleSource := true, bundlePath := path } =
                      passesThinLayerTrust env record := rfl
                  rw [dropUntrusted, same, alike, plugin, trust]
                  rfl
              · simp [dropUntrusted, plugin, trust]
            simp only [settlePayload, located, Bool.false_eq_true, if_false]
            simp [dropMismatched, clearPayload]
          rw [cleared]
          apply Iff.intro
          · intro same
            exact ⟨readable, fun _ _ => same, by simp [trust], by simp [trust]⟩
          · intro settled
            exact settled.untrusted plugin trust
      | true =>
          by_cases found : record.bundleSource = true ∨ env.resolveBundlePath record.source record.name = none
          · have located : locateBundle env record = record := by
              rcases found with bundled | missing
              · simp [locateBundle, bundled]
              · simp [locateBundle, missing]
            have stays : settlePayload env false record = dropMismatched env record := by
              simp [settlePayload, located, dropUntrusted, trust]
            rw [stays, dropMismatched_eq_self plugin]
            apply Iff.intro
            · intro kept
              exact ⟨readable, by simp [trust], fun _ _ => found, fun _ _ => kept⟩
            · intro settled
              exact settled.pinned plugin trust
          · -- the bundle is found now, and either stays or takes the script with it
            have unsettled : ¬ Settled env record := fun settled => found (settled.located plugin trust)
            simp only [unsettled, iff_false]
            rw [not_or] at found
            cases resolved : env.resolveBundlePath record.source record.name with
            | none => exact absurd resolved found.2
            | some path =>
                have unbundled : record.bundleSource = false := Bool.eq_false_iff.mpr found.1
                have located : locateBundle env record =
                    { record with bundleSource := true, bundlePath := path } := by
                  simp [locateBundle, plugin, unbundled, resolved]
                have trusted : dropUntrusted env { record with bundleSource := true, bundlePath := path } =
                    { record with bundleSource := true, bundlePath := path } := by
                  have alike : passesThinLayerTrust env { record with bundleSource := true, bundlePath := path } =
                      passesThinLayerTrust env record := rfl
                  rw [dropUntrusted, alike, trust]
                  simp
                simp only [settlePayload, located, trusted, Bool.false_eq_true, if_false, dropMismatched]
                intro same
                split at same
                · rename_i dropped
                  simp only [Bool.and_eq_true, Bool.not_eq_true'] at dropped
                  exact clearPayload_ne dropped.1.2 same
                · have bundled := congrArg RegistryRecord.bundleSource same
                  rw [unbundled] at bundled
                  cases bundled

end Payload

section Inherited

theorem orElseText_self (value : String) : orElseText value value = value := by
  simp [orElseText]

theorem orElseText_again (value other : String) :
    orElseText value (orElseText value other) = orElseText value other := by
  by_cases empty : value.isEmpty = true
  · simp [orElseText, empty]
  · simp [orElseText, empty]

theorem orElseList_self {α : Type} (values : List α) : orElseList values values = values := by
  simp [orElseList]

theorem orElseList_again {α : Type} (values others : List α) :
    orElseList values (orElseList values others) = orElseList values others := by
  cases values with
  | nil => rfl
  | cons value values => rfl

theorem orElseList_lines (values : List String) :
    orElseList values (splitLines (joinLines values)) = values := by
  cases values with
  | nil => rfl
  | cons value values => rfl

/-- Lines that were read back once come back the same. -/
theorem orElseList_lines_again (values : List String) (text : String) :
    orElseList values (splitLines (joinLines (orElseList values (splitLines text)))) =
      orElseList values (splitLines text) := by
  cases values with
  | nil => exact splitLines_idem text
  | cons value values => rfl

/-- Records that agree in all but the payload. -/
theorem eq_with_payload {left right : RegistryRecord} (same : clearPayload left = clearPayload right) :
    left =
      { right with
        script := left.script
        bootstrapScript := left.bootstrapScript
        bundleSource := left.bundleSource
        bundlePath := left.bundlePath } := by
  cases left
  cases right
  simp only [clearPayload, RegistryRecord.mk.injEq] at same ⊢
  simp [same]

/-- A record that was written and can be read back inherits from itself. -/
theorem inheritedRecord_self {past : RegistryEnv} {fetchPayloads : Bool} {older store : RegistryStore}
    {record : RegistryRecord}
    (stored : store.get (toLowerCopy record.name) = some (desiredRecord past fetchPayloads older record))
    (readable : (restoredRecord (desiredRecord past fetchPayloads older record)).isSome = true) :
    inheritedRecord store record = desiredRecord past fetchPayloads older record := by
  have cleared : clearPayload (desiredRecord past fetchPayloads older record) =
      clearPayload (inheritedRecord older record) := by
    rw [desiredRecord_eq, settlePayload_clear]
  generalize desiredRecord past fetchPayloads older record = written at *
  obtain ⟨restored, read⟩ := Option.isSome_iff_exists.mp readable
  have again : inheritedRecord store record = inheritPayload restored
      (inheritFields restored { record with name := toLowerCopy record.name }) := by
    simp [inheritedRecord, readRecord, stored, read]
  rw [again, restoredRecord_eq_some read]
  cases existed : readRecord older (toLowerCopy record.name) with
  | none =>
      have base : inheritedRecord older record = { record with name := toLowerCopy record.name } := by
        simp [inheritedRecord, existed]
      rw [base] at cleared
      rw [eq_with_payload cleared]
      simp [inheritPayload, inheritFields, orElseText_self, orElseList_self, orElseList_lines]
  | some existing =>
      have base : clearPayload (inheritedRecord older record) =
          clearPayload (inheritFields existing { record with name := toLowerCopy record.name }) := by
        simp only [inheritedRecord, existed]
        exact inheritPayload_clear _ _
      obtain ⟨stale, _, before⟩ := Option.bind_eq_some_iff.mp existed
      have lines := restoredRecord_eq_some before
      rw [base] at cleared
      rw [eq_with_payload cleared, lines]
      simp [inheritPayload, inheritFields, orElseText_again, orElseList_again, orElseList_lines_again]

end Inherited

end ReqPack.Registry
