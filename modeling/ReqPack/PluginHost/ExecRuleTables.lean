import ReqPack.PluginHost.ExecRuleParsing

/-! # The tables that are rulesets

What a table has to hold to be read as a ruleset, in whatever order its entries come, and
that `parse_exec_rules` accepts these tables and no others.
-/

namespace ReqPack.PluginHost

open ReqPack.Data
open ReqPack.Data.Ascii

/-! ## Entries under names -/

/-- The value under a name. -/
def fieldNamed (entries : LuaEntries) (name : String) : Option LuaObject :=
  (entries.find? fun entry => entry.1.text? == some (bytes name)).map Prod.snd

/-- No two entries have the same name. -/
def NamesDistinct (entries : LuaEntries) : Prop := (entries.filterMap fun entry => entry.1.text?).Nodup

/-- The tables of Lua: no key is there twice. -/
inductive LuaObject.Distinct : LuaObject → Prop
  | nil : Distinct .nil
  | boolean (value : Bool) : Distinct (.boolean value)
  | number (index : Option Int) (text : Bytes) : Distinct (.number index text)
  | string (value : Bytes) : Distinct (.string value)
  | foreign : Distinct .foreign
  | table {entries : LuaEntries} (names : NamesDistinct entries) (values : ∀ entry ∈ entries, Distinct entry.2) :
      Distinct (.table entries)

/-- The parts are what the entries are read as. -/
abbrev ReadAs {Part : Type} (read : LuaObject × LuaObject → Except Bytes Part) (entries : LuaEntries)
    (parts : List Part) : Prop :=
  List.Forall₂ (fun entry part => read entry = .ok part) entries parts

/-- What the part of an entry gives under one name is what the entry's value gives. -/
def Picks {Part V : Type} (read : LuaObject × LuaObject → Except Bytes Part) (pick : Part → Option V)
    (value : LuaObject → Option V) (name : String) : Prop :=
  ∀ entry part, read entry = .ok part → pick part = if entry.1.text? = some (bytes name) then value entry.2 else none

section Entries

variable {Part Draft V : Type} {read : LuaObject × LuaObject → Except Bytes Part} {add : Draft → Part → Draft}
  {entries : LuaEntries} {parts : List Part} {entry : LuaObject × LuaObject} {name : String}

theorem map_eq_ok_iff {ε α β : Type} {result : Except ε α} {change : α → β} {value : β} :
    result.map change = .ok value ↔ ∃ given, result = .ok given ∧ change given = value := by
  cases result <;> simp [Except.map]

theorem bind_eq_ok_iff {ε α β : Type} {result : Except ε α} {next : α → Except ε β} {value : β} :
    result >>= next = .ok value ↔ ∃ given, result = .ok given ∧ next given = .ok value := by
  cases result with
  | error message => exact iff_of_false (fun wrong => by cases wrong) (by simp)
  | ok given => exact ⟨fun done => ⟨given, rfl, done⟩, fun ⟨_, same, done⟩ => by cases same; exact done⟩

theorem draft_eq_ok_iff {Result : Type} {start : Draft} {finish : Draft → Except Bytes Result} {result : Result} :
    (entries.foldlM (fun draft entry => (read entry).map (add draft)) start >>= finish) = .ok result ↔
      ∃ parts, ReadAs read entries parts ∧ finish (parts.foldl add start) = .ok result := by
  rw [foldlM_read, bind_eq_ok_iff]
  constructor
  · rintro ⟨draft, mapped, done⟩
    obtain ⟨parts, given, rfl⟩ := map_eq_ok_iff.1 mapped
    exact ⟨parts, mapM_eq_ok_iff.1 given, done⟩
  · rintro ⟨parts, paired, done⟩
    exact ⟨_, map_eq_ok_iff.2 ⟨parts, mapM_eq_ok_iff.2 paired, rfl⟩, done⟩

theorem exists_readAs (each : ∀ entry ∈ entries, ∃ part, read entry = .ok part) : ∃ parts, ReadAs read entries parts :=
  (exists_mapM each).imp fun _ => mapM_eq_ok_iff.1

theorem ReadAs.reads (paired : ReadAs read entries parts) : ∀ entry ∈ entries, ∃ part, read entry = .ok part := by
  intro entry member
  obtain ⟨part, -, given⟩ := exists_right_of_forall₂ paired member
  exact ⟨part, given⟩

theorem NamesDistinct.tail (distinct : NamesDistinct (entry :: entries)) : NamesDistinct entries := by
  rw [NamesDistinct, List.filterMap_cons] at distinct
  split at distinct
  · exact distinct
  · exact (List.nodup_cons.mp distinct).2

theorem fieldNamed_cons_named (named : entry.1.text? = some (bytes name)) :
    fieldNamed (entry :: entries) name = some entry.2 := by
  rw [fieldNamed, List.find?_cons_of_pos (by simp [named])]
  rfl

theorem fieldNamed_cons_other (other : entry.1.text? ≠ some (bytes name)) :
    fieldNamed (entry :: entries) name = fieldNamed entries name := by
  rw [fieldNamed, List.find?_cons_of_neg (by simpa using other), fieldNamed]

theorem fieldNamed_eq_some {value : LuaObject} (found : fieldNamed entries name = some value) :
    ∃ entry ∈ entries, entry.1.text? = some (bytes name) ∧ entry.2 = value := by
  obtain ⟨entry, here, rfl⟩ := Option.map_eq_some_iff.mp found
  exact ⟨entry, List.mem_of_find?_eq_some here, by simpa using List.find?_some here, rfl⟩

theorem NamesDistinct.fieldNamed_tail (distinct : NamesDistinct (entry :: entries))
    (named : entry.1.text? = some (bytes name)) : fieldNamed entries name = none := by
  rw [NamesDistinct, List.filterMap_cons, named, List.nodup_cons] at distinct
  cases found : fieldNamed entries name with
  | none => rfl
  | some value =>
      obtain ⟨later, member, same, -⟩ := fieldNamed_eq_some found
      exact absurd (List.mem_filterMap.mpr ⟨later, member, same⟩) distinct.1

theorem NamesDistinct.fieldNamed_of_mem (distinct : NamesDistinct entries) (member : entry ∈ entries)
    (named : entry.1.text? = some (bytes name)) : fieldNamed entries name = some entry.2 := by
  induction entries with
  | nil => cases member
  | cons first entries ih =>
      rcases List.mem_cons.mp member with rfl | behind
      · exact fieldNamed_cons_named named
      · have found := ih distinct.tail behind
        by_cases here : first.1.text? = some (bytes name)
        · rw [distinct.fieldNamed_tail here] at found
          cases found
        · rw [fieldNamed_cons_other here, found]

theorem slot_foldl {slot : Draft → V} {pick : Part → Option V} {value : LuaObject → Option V}
    (sets : ∀ draft part, slot (add draft part) = (pick part).getD (slot draft))
    (picks : Picks read pick value name)
    (distinct : NamesDistinct entries) (paired : ReadAs read entries parts)
    (draft : Draft) :
    slot (parts.foldl add draft) = ((fieldNamed entries name).bind value).getD (slot draft) := by
  induction paired generalizing draft with
  | nil => rfl
  | @cons entry part entries parts head _ ih =>
      rw [List.foldl_cons, ih distinct.tail, sets, picks entry part head]
      by_cases named : entry.1.text? = some (bytes name)
      · rw [fieldNamed_cons_named named, distinct.fieldNamed_tail named, if_pos named]
        rfl
      · rw [fieldNamed_cons_other named, if_neg named]
        rfl

theorem optional_slot_foldl {slot : Draft → Option V} {pick : Part → Option V} {value : LuaObject → Option V}
    (sets : ∀ draft part, slot (add draft part) = (pick part).or (slot draft))
    (picks : Picks read pick value name)
    (distinct : NamesDistinct entries) (paired : ReadAs read entries parts)
    (draft : Draft) :
    slot (parts.foldl add draft) = ((fieldNamed entries name).bind value).or (slot draft) := by
  have mapped := @slot_foldl Part Draft (Option V) read add entries parts name slot (fun part => (pick part).map some)
    (fun given => (value given).map some) (fun draft part => by rw [sets]; cases pick part <;> rfl)
    (fun entry part given => by simp only [picks entry part given]; split <;> rfl) distinct paired draft
  rw [mapped]
  cases fieldNamed entries name with
  | none => rfl
  | some given => cases found : value given <;> simp [found]

theorem any_picked {pick : Part → Option V} {value : LuaObject → Option V} {condition : V → Bool}
    (picks : Picks read pick value name)
    (distinct : NamesDistinct entries) (paired : ReadAs read entries parts) :
    (parts.any fun part => (pick part).any condition) = ((fieldNamed entries name).bind value).any condition := by
  induction paired with
  | nil => rfl
  | @cons entry part entries parts head _ ih =>
      rw [List.any_cons, ih distinct.tail, picks entry part head]
      by_cases named : entry.1.text? = some (bytes name)
      · rw [fieldNamed_cons_named named, distinct.fieldNamed_tail named, if_pos named]
        exact Bool.or_false _
      · rw [fieldNamed_cons_other named, if_neg named]
        rfl

end Entries

/-! ## Arrays -/

/-- The entries are those of an array with the values, in any order. -/
def ArrayTable (entries : LuaEntries) (values : List LuaObject) : Prop :=
  (entries.map fun entry => (entry.1.index?, entry.2)).Perm
    ((values.zipIdx 1).map fun value => (some (value.2 : Int), value.1))

section Arrays

variable {entries : LuaEntries} {values : List LuaObject} {context : Bytes}

/-- The entries of an array from an index on, in order. -/
def indexedFrom (first : Nat) (values : List LuaObject) : List (Int × LuaObject) :=
  (values.zipIdx first).map fun value => ((value.2 : Int), value.1)

theorem contiguousValues_eq_ok_iff {first : Nat} {sorted : List (Int × LuaObject)} :
    contiguousValues context first sorted = .ok values ↔ sorted = indexedFrom first values := by
  induction sorted generalizing first values with
  | nil =>
      cases values with
      | nil => exact iff_of_true rfl rfl
      | cons value values => exact iff_of_false (by simp [contiguousValues]) (by simp [indexedFrom])
  | cons entry sorted ih =>
      obtain ⟨index, value⟩ := entry
      rw [contiguousValues]
      split
      · next apart =>
          refine iff_of_false (by simp) fun same => ?_
          cases values with
          | nil => cases same
          | cons other values =>
              rw [indexedFrom, List.zipIdx_cons, List.map_cons, List.cons.injEq, Prod.mk.injEq] at same
              exact apart same.1.1
      · next here =>
          rw [not_not] at here
          subst here
          rw [map_eq_ok_iff, ← Nat.cast_one, ← Nat.cast_add]
          simp only [ih]
          cases values with
          | nil => simp [indexedFrom]
          | cons other values => simp [indexedFrom, and_comm]

theorem readIndexedEntry_eq_ok_iff {entry : LuaObject × LuaObject} {indexed : Int × LuaObject} :
    readIndexedEntry context entry = .ok indexed ↔
      entry.1.index? = some indexed.1 ∧ entry.2 = indexed.2 ∧ 1 ≤ indexed.1 := by
  rw [readIndexedEntry]
  cases entry.1.index? with
  | none => simp
  | some index =>
      simp only [Option.some.injEq]
      split
      · next low =>
          refine iff_of_false (by simp) ?_
          rintro ⟨rfl, -, high⟩
          omega
      · next high =>
          rw [Except.ok.injEq]
          constructor
          · rintro rfl
            exact ⟨rfl, rfl, by omega⟩
          · rintro ⟨rfl, same, -⟩
            rw [same]

theorem indexedFrom_sorted (first : Nat) (values : List LuaObject) :
    (indexedFrom first values).Pairwise fun left right => left.1 < right.1 := by
  induction values generalizing first with
  | nil => exact List.Pairwise.nil
  | cons value values ih =>
      rw [indexedFrom, List.zipIdx_cons, List.map_cons]
      refine List.Pairwise.cons ?_ (ih (first + 1))
      intro later member
      obtain ⟨⟨other, index⟩, listed, rfl⟩ := List.mem_map.mp member
      have above := (List.mem_zipIdx listed).1
      change (first : Int) < index
      omega

theorem readArrayTable_eq_ok_iff : readArrayTable entries context = .ok values ↔ ArrayTable entries values := by
  have order : ∀ indexed : List (Int × LuaObject),
      (indexed.mergeSort fun left right => decide (left.1 ≤ right.1)) = indexedFrom 1 values ↔
        indexed.Perm (indexedFrom 1 values) := by
    intro indexed
    refine ⟨fun same => same ▸ (List.mergeSort_perm indexed _).symm, fun perm => ?_⟩
    have sorted : (indexed.mergeSort fun left right => decide (left.1 ≤ right.1)).Pairwise
        fun left right => decide (left.1 ≤ right.1) = true :=
      List.pairwise_mergeSort (fun a b c ab bc => by simp only [decide_eq_true_eq] at *; omega)
        (fun a b => by simp only [Bool.or_eq_true, decide_eq_true_eq]; omega) indexed
    refine List.Perm.eq_of_pairwise ?_ sorted ((indexedFrom_sorted 1 values).imp fun below => by simpa using below.le)
      ((List.mergeSort_perm indexed _).trans perm)
    intro left right here there below above
    have listed : left ∈ indexedFrom 1 values := ((List.mergeSort_perm indexed _).trans perm).subset here
    have keys : ((indexedFrom 1 values).map Prod.fst).Nodup :=
      List.pairwise_map.mpr ((indexedFrom_sorted 1 values).imp fun below => below.ne)
    simp only [decide_eq_true_eq] at below above
    exact List.inj_on_of_nodup_map keys listed there (by omega)
  have checked : ∀ indexed : List (Int × LuaObject),
      contiguousValues context 1 (indexed.mergeSort fun left right => decide (left.1 ≤ right.1)) = .ok values ↔
        indexed.Perm (indexedFrom 1 values) := by
    intro indexed
    rw [← order]
    exact contiguousValues_eq_ok_iff
  rw [readArrayTable, bind_eq_ok_iff]
  simp only [checked]
  constructor
  · rintro ⟨indexed, mapped, sorted⟩
    have perm := sorted.map fun entry : Int × LuaObject => (some entry.1, entry.2)
    have same : (entries.map fun entry => (entry.1.index?, entry.2)) = indexed.map fun entry => (some entry.1, entry.2) := by
      have paired := mapM_eq_ok_iff.1 mapped
      clear mapped sorted perm
      induction paired with
      | nil => rfl
      | cons head _ ih =>
          obtain ⟨index, value, -⟩ := readIndexedEntry_eq_ok_iff.1 head
          rw [List.map_cons, List.map_cons, ih, index, value]
    rw [ArrayTable, same]
    refine perm.trans (List.Perm.of_eq ?_)
    rw [indexedFrom, List.map_map]
    rfl
  · intro array
    have each : ∀ entry ∈ entries, readIndexedEntry context entry = .ok (entry.1.index?.getD 0, entry.2) := by
      intro entry member
      obtain ⟨⟨value, index⟩, listed, same⟩ := List.mem_map.mp (array.subset (List.mem_map_of_mem member))
      have above := (List.mem_zipIdx listed).1
      have key : entry.1.index? = some (index : Int) := (congrArg Prod.fst same).symm
      refine readIndexedEntry_eq_ok_iff.2 ⟨?_, rfl, ?_⟩
      · rw [key]
        rfl
      · rw [key]
        change (1 : Int) ≤ index
        omega
    refine ⟨_, mapM_ok each, ?_⟩
    have perm := array.map fun entry : Option Int × LuaObject => (entry.1.getD 0, entry.2)
    rw [List.map_map, List.map_map] at perm
    exact perm

end Arrays

/-! ## Actions -/

/-- Fields of which an action of the type has one at least; none when it needs none. -/
def fieldChoices : ExecRuleActionType → List String
  | .send | .state => ["value"]
  | .log | .failed => ["message"]
  | .status => ["code"]
  | .progress => ["percent", "current", "total", "speed"]
  | .beginStep => ["label"]
  | .event => ["name"]
  | .artifact => ["payload"]
  | .success => []

def Complete (action : ExecRuleAction) : Prop :=
  fieldChoices action.type = [] ∨ ∃ name ∈ fieldChoices action.type, hasRequiredField action name = true

/-- The text of an entry that may be a field; there is none for a nil. -/
def LuaObject.fieldText? : LuaObject → Option (Option Bytes)
  | .nil => some none
  | .boolean value => some (some (bytes (if value then "true" else "false")))
  | .number _ text => some (some text)
  | .string value => some (some value)
  | .table _ | .foreign => none

/-- The field an entry of an action's table gives. -/
def actionField (entry : LuaObject × LuaObject) : Option (Bytes × Bytes) :=
  entry.1.text?.bind fun name =>
    if name = bytes "type" then none else (entry.2.fieldText?.getD none).map fun value => (name, value)

structure ActionTable (entries : LuaEntries) (action : ExecRuleAction) : Prop where
  keys : ∀ entry ∈ entries, ∃ name, entry.1.text? = some name
  type : ∃ name, fieldNamed entries "type" = some (.string name) ∧ toLowerCopy name = bytes (actionTypeName action.type)
  scalars : ∀ entry ∈ entries, entry.1.text? ≠ some (bytes "type") → ∃ text, entry.2.fieldText? = some text
  fields : action.fields = entries.filterMap actionField
  complete : Complete action

section Actions

variable {entries : LuaEntries} {parts : List ActionPart} {context : Bytes} {action : ExecRuleAction}

theorem requireField_eq_ok_iff {name message : String} :
    requireField action name message = .ok () ↔ hasRequiredField action name = true := by
  rw [requireField]
  split
  · next present => exact iff_of_true rfl present
  · next absent => exact iff_of_false (by simp) absent

theorem validateActionFields_eq_ok_iff : validateActionFields action = .ok () ↔ Complete action := by
  rw [validateActionFields, Complete]
  cases action.type with
  | progress =>
      simp only [fieldChoices, List.mem_cons, List.not_mem_nil, or_false, exists_eq_or_imp, exists_eq_left, reduceCtorEq, false_or]
      split
      · next absent =>
          simp only [Bool.and_eq_true, Bool.not_eq_true'] at absent
          exact iff_of_false (by simp) (by simp [absent])
      · next present =>
          refine iff_of_true rfl ?_
          simp only [Bool.and_eq_true, Bool.not_eq_true', not_and, Bool.not_eq_false] at present
          grind
  | success => exact iff_of_true rfl (Or.inl rfl)
  | _ => simp only [requireField_eq_ok_iff, fieldChoices, List.mem_singleton, exists_eq_left, reduceCtorEq, false_or]

theorem mem_actionTypes (type : ExecRuleActionType) : type ∈ actionTypes := by cases type <;> decide

theorem actionTypeName_injective {left right : ExecRuleActionType}
    (same : bytes (actionTypeName left) = bytes (actionTypeName right)) : left = right := by
  have all : ∀ left ∈ actionTypes, ∀ right ∈ actionTypes,
      bytes (actionTypeName left) = bytes (actionTypeName right) → left = right := by decide
  exact all left (mem_actionTypes left) right (mem_actionTypes right) same

theorem parseActionType_eq_ok_iff {name : Bytes} {type : ExecRuleActionType} :
    parseActionType name = .ok type ↔ toLowerCopy name = bytes (actionTypeName type) := by
  rw [parseActionType]
  split
  · next found here =>
      have named := List.find?_some here
      rw [beq_iff_eq] at named
      rw [Except.ok.injEq, named]
      exact ⟨fun same => same ▸ rfl, actionTypeName_injective⟩
  · next missing =>
      refine iff_of_false (by simp) fun named => ?_
      have apart := List.find?_eq_none.mp missing type (mem_actionTypes type)
      simp [named] at apart

/-- The type among the parts. -/
def ActionPart.type? : ActionPart → Option ExecRuleActionType
  | .type given => some given
  | .field _ _ | .skipped => none

def ActionPart.field? : ActionPart → Option (Bytes × Bytes)
  | .field name value => some (name, value)
  | .type _ | .skipped => none

def actionTypeOf (value : LuaObject) : Option ExecRuleActionType :=
  value.text?.bind fun name => (parseActionType name).toOption

theorem text?_eq_some_iff {value : LuaObject} {text : Bytes} : value.text? = some text ↔ value = .string text := by
  cases value <;> simp [LuaObject.text?]

theorem toOption_eq_some_iff {ε α : Type} {result : Except ε α} {value : α} :
    result.toOption = some value ↔ result = .ok value := by
  cases result <;> simp [Except.toOption]

theorem actionTypeOf_eq_some_iff {value : LuaObject} {type : ExecRuleActionType} :
    actionTypeOf value = some type ↔ ∃ name, value = .string name ∧ toLowerCopy name = bytes (actionTypeName type) := by
  simp only [actionTypeOf, Option.bind_eq_some_iff, text?_eq_some_iff, toOption_eq_some_iff, parseActionType_eq_ok_iff]

theorem readField_eq_ok_iff {name : Bytes} {value : LuaObject} {part : ActionPart} :
    readField context name value = .ok part ↔
      ∃ text, value.fieldText? = some text ∧ part = (text.elim .skipped fun text => .field name text) := by
  cases value <;> simp [readField, LuaObject.fieldText?, eq_comm]

theorem readActionEntry_cases {entry : LuaObject × LuaObject} {part : ActionPart}
    (read : readActionEntry context entry = .ok part) : ∃ name, entry.1.text? = some name ∧
      ((name = bytes "type" ∧ ∃ text type, entry.2.text? = some text ∧ parseActionType text = .ok type ∧
        part = .type type) ∨
        (name ≠ bytes "type" ∧ readField context name entry.2 = .ok part)) := by
  rw [readActionEntry] at read
  split at read
  · cases read
  · next name named =>
      refine ⟨name, named, ?_⟩
      split at read
      · next here =>
          split at read
          · cases read
          · next text given =>
              cases parsed : parseActionType text with
              | error message =>
                  rw [parsed] at read
                  cases read
              | ok type =>
                  rw [parsed] at read
                  cases read
                  exact Or.inl ⟨here, text, type, given, parsed, rfl⟩
      · next apart => exact Or.inr ⟨apart, read⟩

theorem action_type_picks {entry : LuaObject × LuaObject} {part : ActionPart}
    (read : readActionEntry context entry = .ok part) :
    part.type? = if entry.1.text? = some (bytes "type") then actionTypeOf entry.2 else none := by
  obtain ⟨name, named, ⟨rfl, text, type, given, parsed, rfl⟩ | ⟨apart, field⟩⟩ := readActionEntry_cases read
  · rw [if_pos named, actionTypeOf, given, Option.bind_some, parsed]
    rfl
  · rw [if_neg (by simpa [named] using apart)]
    obtain ⟨text, -, rfl⟩ := readField_eq_ok_iff.1 field
    cases text <;> rfl

theorem action_field_picks {entry : LuaObject × LuaObject} {part : ActionPart}
    (read : readActionEntry context entry = .ok part) : part.field? = actionField entry := by
  obtain ⟨name, named, ⟨rfl, text, type, given, parsed, rfl⟩ | ⟨apart, field⟩⟩ := readActionEntry_cases read
  · rw [actionField, named, Option.bind_some, if_pos rfl]
    rfl
  · rw [actionField, named, Option.bind_some, if_neg apart]
    obtain ⟨text, given, rfl⟩ := readField_eq_ok_iff.1 field
    rw [given]
    cases text <;> rfl

theorem setField_fresh {fields : List (Bytes × Bytes)} {name value : Bytes} (fresh : ∀ field ∈ fields, field.1 ≠ name) :
    setField fields name value = fields ++ [(name, value)] := by
  rw [setField, List.filter_eq_self.mpr fun field member => by simpa using fresh field member]

theorem fields_foldl (distinct : NamesDistinct entries)
    (paired : ReadAs (readActionEntry context) entries parts) (draft : ActionDraft)
    (fresh : ∀ field ∈ draft.fields, ∀ entry ∈ entries, entry.1.text? ≠ some field.1) :
    (parts.foldl ActionDraft.add draft).fields = draft.fields ++ entries.filterMap actionField := by
  induction paired generalizing draft with
  | nil => exact (List.append_nil _).symm
  | @cons entry part entries parts head _ ih =>
      have added : (draft.add part).fields = draft.fields ++ part.field?.toList := by
        cases part with
        | field name value =>
            refine setField_fresh fun field member same => ?_
            obtain ⟨given, named, ⟨-, _, _, _, _, wrong⟩ | ⟨-, read⟩⟩ := readActionEntry_cases head
            · cases wrong
            · obtain ⟨text, -, part⟩ := readField_eq_ok_iff.1 read
              cases text with
              | none => cases part
              | some text =>
                  cases part
                  exact fresh field member entry List.mem_cons_self (same ▸ named)
        | type type => exact (List.append_nil _).symm
        | skipped => exact (List.append_nil _).symm
      rw [List.foldl_cons, ih distinct.tail, added, action_field_picks head, List.filterMap_cons]
      · cases actionField entry with
        | none => simp
        | some field => simp
      · intro field member later behind same
        rw [added, action_field_picks head] at member
        rcases List.mem_append.mp member with old | new
        · exact fresh field old later (List.mem_cons_of_mem _ behind) same
        · have named : entry.1.text? = some field.1 := by
            rw [Option.mem_toList, actionField, Option.bind_eq_some_iff] at new
            obtain ⟨name, named, given⟩ := new
            split at given
            · cases given
            · obtain ⟨_, _, rfl⟩ := Option.map_eq_some_iff.mp given
              exact named
          rw [NamesDistinct, List.filterMap_cons, named, List.nodup_cons] at distinct
          exact distinct.1 (List.mem_filterMap.mpr ⟨later, behind, same⟩)

theorem parseAction_eq_ok_iff {ruleIndex actionIndex : Nat} (distinct : NamesDistinct entries) :
    parseAction ruleIndex actionIndex (.table entries) = .ok action ↔ ActionTable entries action := by
  have drafts : ∀ parts, ReadAs (readActionEntry (actionContext ruleIndex actionIndex)) entries parts →
      (parts.foldl ActionDraft.add {}).type = (fieldNamed entries "type").bind actionTypeOf ∧
        (parts.foldl ActionDraft.add {}).fields = entries.filterMap actionField := by
    intro parts paired
    refine ⟨?_, fields_foldl distinct paired {} fun field member => by cases member⟩
    have types := @optional_slot_foldl _ _ _ _ ActionDraft.add _ _ _ ActionDraft.type ActionPart.type? actionTypeOf
      (fun draft part => by cases part <;> rfl) (fun _ _ read => action_type_picks read) distinct paired {}
    rwa [Option.or_none] at types
  rw [parseAction, draft_eq_ok_iff]
  constructor
  · rintro ⟨parts, paired, finished⟩
    obtain ⟨typed, fields⟩ := drafts parts paired
    rw [ActionDraft.finish] at finished
    split at finished
    · cases finished
    · next type some =>
        split at finished
        · next valid =>
            cases finished
            refine ⟨fun entry member => ?_, ?_, fun entry member apart => ?_, fields, validateActionFields_eq_ok_iff.1 valid⟩
            · obtain ⟨part, read⟩ := paired.reads entry member
              obtain ⟨name, named, -⟩ := readActionEntry_cases read
              exact ⟨name, named⟩
            · rw [some] at typed
              obtain ⟨value, found, given⟩ := Option.bind_eq_some_iff.mp typed.symm
              obtain ⟨name, rfl, named⟩ := actionTypeOf_eq_some_iff.1 given
              exact ⟨name, found, named⟩
            · obtain ⟨part, read⟩ := paired.reads entry member
              obtain ⟨name, named, ⟨rfl, -⟩ | ⟨-, field⟩⟩ := readActionEntry_cases read
              · exact absurd named apart
              · obtain ⟨text, given, -⟩ := readField_eq_ok_iff.1 field
                exact ⟨text, given⟩
        · cases finished
  · intro table
    obtain ⟨typeName, typed, lowered⟩ := table.type
    have each : ∀ entry ∈ entries, ∃ part, readActionEntry (actionContext ruleIndex actionIndex) entry = .ok part := by
      intro entry member
      obtain ⟨name, named⟩ := table.keys entry member
      rw [readActionEntry, named]
      by_cases here : name = bytes "type"
      · subst here
        rw [distinct.fieldNamed_of_mem member named, Option.some.injEq] at typed
        exact ⟨.type action.type, by simp [typed, LuaObject.text?, parseActionType_eq_ok_iff.2 lowered, Except.map]⟩
      · obtain ⟨text, given⟩ := table.scalars entry member fun same => here (Option.some.inj (named.symm.trans same))
        refine ⟨text.elim .skipped fun text => .field name text, ?_⟩
        simp only [here, if_false]
        exact readField_eq_ok_iff.2 ⟨text, given, rfl⟩
    obtain ⟨parts, paired⟩ := exists_readAs each
    obtain ⟨typed', fields⟩ := drafts parts paired
    rw [typed, Option.bind_some, actionTypeOf_eq_some_iff.2 ⟨typeName, rfl, lowered⟩] at typed'
    refine ⟨parts, paired, ?_⟩
    rw [ActionDraft.finish, typed']
    have whole : (⟨action.type, (parts.foldl ActionDraft.add {}).fields⟩ : ExecRuleAction) = action := by
      rw [fields, ← table.fields]
    simp only [whole, validateActionFields_eq_ok_iff.2 table.complete]

end Actions

/-! ## Rules -/

def sourceName : ExecRuleSource → String
  | .line => "line"
  | .screen => "screen"

def ruleKeys : List String := ["state", "source", "regex", "actions", "repeat", "stop"]

/-- The value is the table of the action. -/
def IsAction (object : LuaObject) (action : ExecRuleAction) : Prop :=
  ∃ entries, object = .table entries ∧ ActionTable entries action

/-- A flag that is given, or is not and has its default. -/
def FlagField (entries : LuaEntries) (name : String) (absent value : Bool) : Prop :=
  fieldNamed entries name = some (.boolean value) ∨ (fieldNamed entries name = none ∧ value = absent)

structure RuleTable (compile : Bytes → Except Bytes Unit) (entries : LuaEntries) (rule : ExecRule) : Prop where
  keys : ∀ entry ∈ entries, ∃ name ∈ ruleKeys, entry.1.text? = some (bytes name)
  state : fieldNamed entries "state" = rule.state.map .string
  source : ∃ text, fieldNamed entries "source" = some (.string text) ∧ toLowerCopy text = bytes (sourceName rule.source)
  regex : fieldNamed entries "regex" = some (.string rule.regexText) ∧ compile rule.regexText = .ok ()
  actions : rule.actions ≠ [] ∧ ∃ actionEntries objects, fieldNamed entries "actions" = some (.table actionEntries) ∧
    ArrayTable actionEntries objects ∧ List.Forall₂ IsAction objects rule.actions
  repeats : FlagField entries "repeat" true rule.repeats
  stop : FlagField entries "stop" false rule.stop

def requiresPty (rule : ExecRule) : Bool := rule.source == .screen || sends rule.actions

section Rules

variable {compile : Bytes → Except Bytes Unit} {entries : LuaEntries} {parts : List RulePart} {context : Bytes}
  {ruleIndex : Nat} {rule : ExecRule} {entry : LuaObject × LuaObject} {part : RulePart}

theorem distinct_table (distinct : (LuaObject.table entries).Distinct) :
    NamesDistinct entries ∧ ∀ entry ∈ entries, entry.2.Distinct := by
  cases distinct with
  | table names values => exact ⟨names, values⟩

theorem arrayTable_values {values : List LuaObject} (array : ArrayTable entries values) :
    (entries.map Prod.snd).Perm values := by
  have perm := array.map Prod.snd
  rw [List.map_map, List.map_map] at perm
  exact perm.trans (List.Perm.of_eq (List.zipIdx_map_fst 1 values))

theorem arrayTable_distinct {values : List LuaObject} (array : ArrayTable entries values)
    (distinct : ∀ entry ∈ entries, entry.2.Distinct) : ∀ value ∈ values, value.Distinct := by
  intro value member
  obtain ⟨entry, listed, rfl⟩ := List.mem_map.mp ((arrayTable_values array).symm.subset member)
  exact distinct entry listed

theorem parseAction_isAction_iff {actionIndex : Nat} {object : LuaObject} {action : ExecRuleAction} (distinct : object.Distinct) :
    parseAction ruleIndex actionIndex object = .ok action ↔ IsAction object action := by
  cases object with
  | table entries =>
      rw [parseAction_eq_ok_iff (distinct_table distinct).1]
      exact ⟨fun table => ⟨entries, rfl, table⟩, fun ⟨_, same, table⟩ => by cases same; exact table⟩
  | _ => exact iff_of_false (by simp [parseAction]) (by simp [IsAction])

theorem zipIdx_mapM_eq_ok_iff {α β : Type} {values : List α} {results : List β} {first : Nat}
    {read : α × Nat → Except Bytes β} {reads : α → β → Prop}
    (each : ∀ value ∈ values, ∀ index result, read (value, index) = .ok result ↔ reads value result) :
    (values.zipIdx first).mapM read = .ok results ↔ List.Forall₂ reads values results := by
  rw [mapM_eq_ok_iff]
  induction values generalizing first results with
  | nil => rw [List.zipIdx_nil, List.forall₂_nil_left_iff, List.forall₂_nil_left_iff]
  | cons value values ih =>
      rw [List.forall_mem_cons] at each
      cases results with
      | nil => exact iff_of_false (by simp) (by simp)
      | cons result results => rw [List.zipIdx_cons, List.forall₂_cons, List.forall₂_cons, ih each.2, each.1]

theorem parseActions_eq_ok_iff {value : LuaObject} {actions : List ExecRuleAction} (distinct : value.Distinct) :
    parseActions ruleIndex value = .ok actions ↔ actions ≠ [] ∧ ∃ actionEntries objects, value = .table actionEntries ∧
      ArrayTable actionEntries objects ∧ List.Forall₂ IsAction objects actions := by
  cases value with
  | table entries =>
      have values := (distinct_table distinct).2
      have read : ∀ objects, ArrayTable entries objects →
          ((objects.zipIdx 1).mapM (fun object => parseAction ruleIndex object.2 object.1) = .ok actions ↔
            List.Forall₂ IsAction objects actions) := fun objects array =>
        zipIdx_mapM_eq_ok_iff fun object member _ _ => parseAction_isAction_iff (arrayTable_distinct array values object member)
      rw [parseActions, bind_eq_ok_iff]
      simp only [readArrayTable_eq_ok_iff]
      constructor
      · rintro ⟨objects, array, parsed⟩
        split at parsed
        · cases parsed
        · next filled =>
            have paired := (read objects array).1 parsed
            refine ⟨fun empty => filled ?_, entries, objects, rfl, array, paired⟩
            rw [empty, List.forall₂_nil_right_iff] at paired
            rw [paired]
            rfl
      · rintro ⟨filled, _, objects, same, array, paired⟩
        cases same
        refine ⟨objects, array, ?_⟩
        rw [if_neg, read objects array]
        · exact paired
        · intro empty
          rw [List.isEmpty_iff.mp empty, List.forall₂_nil_left_iff] at paired
          exact filled paired
  | _ => exact iff_of_false (by simp [parseActions]) (by simp)

/-! ### The entries of a rule -/

def RulePart.name : RulePart → String
  | .state _ => "state"
  | .source _ => "source"
  | .regex _ => "regex"
  | .actions _ => "actions"
  | .repeats _ => "repeat"
  | .stop _ => "stop"

/-- The value that is read as the part. -/
def RulePart.Reads (compile : Bytes → Except Bytes Unit) (ruleIndex : Nat) (value : LuaObject) : RulePart → Prop
  | .state text => value = .string text
  | .source given => ∃ text, value = .string text ∧ toLowerCopy text = bytes (sourceName given)
  | .regex text => value = .string text ∧ compile text = .ok ()
  | .actions given => parseActions ruleIndex value = .ok given
  | .repeats flag | .stop flag => value = .boolean flag

theorem readText_eq_ok_iff {name : String} {value : LuaObject} {text : Bytes} :
    readText context name value = .ok text ↔ value = .string text := by
  cases value <;> simp [readText, LuaObject.text?]

theorem readFlag_eq_ok_iff {name : String} {value : LuaObject} {flag : Bool} :
    readFlag context name value = .ok flag ↔ value = .boolean flag := by
  cases value <;> simp [readFlag]

theorem parseSource_eq_ok_iff {text : Bytes} {source : ExecRuleSource} :
    parseSource context text = .ok source ↔ toLowerCopy text = bytes (sourceName source) := by
  have apart : bytes "line" ≠ bytes "screen" := by decide
  rw [parseSource]
  split
  · next here =>
      rw [here]
      cases source <;> simp [sourceName, apart]
  · next other =>
      split
      · next here =>
          rw [here]
          cases source <;> simp [sourceName, apart.symm]
      · next neither => cases source <;> simp [sourceName, other, neither]

theorem parseRegex_eq_ok_iff {text given : Bytes} :
    parseRegex compile context text = .ok given ↔ text = given ∧ compile given = .ok () := by
  rw [parseRegex]
  split
  · next compiled =>
      rw [Except.ok.injEq]
      exact ⟨fun same => ⟨same, same ▸ compiled⟩, And.left⟩
  · next message failed =>
      refine iff_of_false (by simp) ?_
      rintro ⟨rfl, compiled⟩
      rw [failed] at compiled
      cases compiled

theorem mem_ruleKeys (part : RulePart) : part.name ∈ ruleKeys := by
  cases part <;> simp [RulePart.name, ruleKeys]

theorem ruleKeys_injective {left right : String} (here : left ∈ ruleKeys) (there : right ∈ ruleKeys) :
    bytes left = bytes right ↔ left = right := by
  have all : ∀ left ∈ ruleKeys, ∀ right ∈ ruleKeys, bytes left = bytes right → left = right := by decide
  exact ⟨all left here right there, fun same => by rw [same]⟩

theorem readRuleEntry_eq_ok_iff : readRuleEntry compile ruleIndex entry = .ok part ↔
    entry.1.text? = some (bytes part.name) ∧ part.Reads compile ruleIndex entry.2 := by
  simp only [readRuleEntry]
  cases named : entry.1.text? with
  | none => simp
  | some name =>
      simp only [Option.some.injEq]
      by_cases state : name = bytes "state"
      · rw [if_pos state, state, ruleKeys_injective (by decide) (mem_ruleKeys part)]
        cases part <;> simp [RulePart.name, RulePart.Reads, map_eq_ok_iff, readText_eq_ok_iff]
      rw [if_neg state]
      by_cases source : name = bytes "source"
      · rw [if_pos source, source, ruleKeys_injective (by decide) (mem_ruleKeys part)]
        cases part <;> simp [RulePart.name, RulePart.Reads, map_eq_ok_iff, bind_eq_ok_iff, readText_eq_ok_iff, parseSource_eq_ok_iff]
      rw [if_neg source]
      by_cases regex : name = bytes "regex"
      · rw [if_pos regex, regex, ruleKeys_injective (by decide) (mem_ruleKeys part)]
        cases part <;> simp [RulePart.name, RulePart.Reads, map_eq_ok_iff, bind_eq_ok_iff, readText_eq_ok_iff, parseRegex_eq_ok_iff]
      rw [if_neg regex]
      by_cases actions : name = bytes "actions"
      · rw [if_pos actions, actions, ruleKeys_injective (by decide) (mem_ruleKeys part)]
        cases part <;> simp [RulePart.name, RulePart.Reads, map_eq_ok_iff]
      rw [if_neg actions]
      by_cases repeats : name = bytes "repeat"
      · rw [if_pos repeats, repeats, ruleKeys_injective (by decide) (mem_ruleKeys part)]
        cases part <;> simp [RulePart.name, RulePart.Reads, map_eq_ok_iff, readFlag_eq_ok_iff]
      rw [if_neg repeats]
      by_cases stop : name = bytes "stop"
      · rw [if_pos stop, stop, ruleKeys_injective (by decide) (mem_ruleKeys part)]
        cases part <;> simp [RulePart.name, RulePart.Reads, map_eq_ok_iff, readFlag_eq_ok_iff]
      rw [if_neg stop]
      refine iff_of_false (by simp) ?_
      rintro ⟨same, -⟩
      cases part
      · exact state same
      · exact source same
      · exact regex same
      · exact actions same
      · exact repeats same
      · exact stop same

/-! ### What the entries of a rule leave -/

def RulePart.state? : RulePart → Option Bytes
  | .state name => some name
  | _ => none

def RulePart.source? : RulePart → Option ExecRuleSource
  | .source given => some given
  | _ => none

def RulePart.regex? : RulePart → Option Bytes
  | .regex text => some text
  | _ => none

def RulePart.actions? : RulePart → Option (List ExecRuleAction)
  | .actions given => some given
  | _ => none

def RulePart.repeats? : RulePart → Option Bool
  | .repeats value => some value
  | _ => none

def RulePart.stop? : RulePart → Option Bool
  | .stop value => some value
  | _ => none

def LuaObject.flag? : LuaObject → Option Bool
  | .boolean value => some value
  | _ => none

def sourceOf (value : LuaObject) : Option ExecRuleSource := value.text?.bind fun text => (parseSource [] text).toOption

def actionsOf (ruleIndex : Nat) (value : LuaObject) : Option (List ExecRuleAction) := (parseActions ruleIndex value).toOption

/-- The draft that a table with distinct names gives. -/
def tableDraft (ruleIndex : Nat) (entries : LuaEntries) : RuleDraft where
  state := (fieldNamed entries "state").bind LuaObject.text?
  source := (fieldNamed entries "source").bind sourceOf
  regexText := (fieldNamed entries "regex").bind LuaObject.text?
  actions := (fieldNamed entries "actions").bind (actionsOf ruleIndex)
  repeats := ((fieldNamed entries "repeat").bind LuaObject.flag?).getD true
  stop := ((fieldNamed entries "stop").bind LuaObject.flag?).getD false
  requiresPty := ((fieldNamed entries "source").bind sourceOf).any (· == .screen) ||
    ((fieldNamed entries "actions").bind (actionsOf ruleIndex)).any sends

theorem rule_picks {V : Type} {pick : RulePart → Option V} {value : LuaObject → Option V} {name : String}
    (key : name ∈ ruleKeys)
    (inside : ∀ part given, part.name = name → part.Reads compile ruleIndex given → pick part = value given)
    (outside : ∀ part, part.name ≠ name → pick part = none := by
      intro part other; cases part <;> first | rfl | exact absurd rfl other) :
    Picks (readRuleEntry compile ruleIndex) pick value name := by
  intro entry part read
  obtain ⟨named, reads⟩ := readRuleEntry_eq_ok_iff.1 read
  simp only [named, Option.some.injEq, ruleKeys_injective (mem_ruleKeys part) key]
  split
  · next here => exact inside part entry.2 here reads
  · next other => exact outside part other

theorem state_picks : Picks (readRuleEntry compile ruleIndex) RulePart.state? LuaObject.text? "state" := by
  refine rule_picks (by decide) fun part given here reads => ?_
  cases part <;> simp [RulePart.name] at here
  rw [show given = _ from reads]
  rfl

theorem source_picks : Picks (readRuleEntry compile ruleIndex) RulePart.source? sourceOf "source" := by
  refine rule_picks (by decide) fun part given here reads => ?_
  cases part <;> simp [RulePart.name] at here
  obtain ⟨text, rfl, lowered⟩ := reads
  exact (toOption_eq_some_iff.2 (parseSource_eq_ok_iff.2 lowered)).symm

theorem regex_picks : Picks (readRuleEntry compile ruleIndex) RulePart.regex? LuaObject.text? "regex" := by
  refine rule_picks (by decide) fun part given here reads => ?_
  cases part <;> simp [RulePart.name] at here
  rw [reads.1]
  rfl

theorem actions_picks : Picks (readRuleEntry compile ruleIndex) RulePart.actions? (actionsOf ruleIndex) "actions" := by
  refine rule_picks (by decide) fun part given here reads => ?_
  cases part <;> simp [RulePart.name] at here
  exact (toOption_eq_some_iff.2 reads).symm

theorem repeats_picks : Picks (readRuleEntry compile ruleIndex) RulePart.repeats? LuaObject.flag? "repeat" := by
  refine rule_picks (by decide) fun part given here reads => ?_
  cases part <;> simp [RulePart.name] at here
  rw [show given = _ from reads]
  rfl

theorem stop_picks : Picks (readRuleEntry compile ruleIndex) RulePart.stop? LuaObject.flag? "stop" := by
  refine rule_picks (by decide) fun part given here reads => ?_
  cases part <;> simp [RulePart.name] at here
  rw [show given = _ from reads]
  rfl

theorem RuleDraft.add_slots (draft : RuleDraft) (part : RulePart) :
    (draft.add part).state = part.state?.or draft.state ∧ (draft.add part).source = part.source?.or draft.source ∧
      (draft.add part).regexText = part.regex?.or draft.regexText ∧ (draft.add part).actions = part.actions?.or draft.actions ∧
      (draft.add part).repeats = part.repeats?.getD draft.repeats ∧ (draft.add part).stop = part.stop?.getD draft.stop := by
  cases part <;> exact ⟨rfl, rfl, rfl, rfl, rfl, rfl⟩

theorem requiresPty_foldl (parts : List RulePart) (draft : RuleDraft) :
    (parts.foldl RuleDraft.add draft).requiresPty =
      (draft.requiresPty || ((parts.any fun part => part.source?.any (· == .screen)) ||
        parts.any fun part => part.actions?.any sends)) := by
  induction parts generalizing draft with
  | nil => simp
  | cons part parts ih =>
      rw [List.foldl_cons, ih, List.any_cons, List.any_cons]
      cases part <;> simp [RuleDraft.add, RulePart.source?, RulePart.actions?, Bool.or_assoc, Bool.or_left_comm]

theorem ruleDraft_foldl (distinct : NamesDistinct entries)
    (paired : ReadAs (readRuleEntry compile ruleIndex) entries parts) :
    parts.foldl RuleDraft.add {} = tableDraft ruleIndex entries := by
  have state : (parts.foldl RuleDraft.add {}).state = _ :=
    optional_slot_foldl (fun (draft : RuleDraft) part => (draft.add_slots part).1) state_picks distinct paired {}
  have source : (parts.foldl RuleDraft.add {}).source = _ :=
    optional_slot_foldl (fun (draft : RuleDraft) part => (draft.add_slots part).2.1) source_picks distinct paired {}
  have regex : (parts.foldl RuleDraft.add {}).regexText = _ :=
    optional_slot_foldl (fun (draft : RuleDraft) part => (draft.add_slots part).2.2.1) regex_picks distinct paired {}
  have actions : (parts.foldl RuleDraft.add {}).actions = _ :=
    optional_slot_foldl (fun (draft : RuleDraft) part => (draft.add_slots part).2.2.2.1) actions_picks distinct paired {}
  have repeats : (parts.foldl RuleDraft.add {}).repeats = _ :=
    slot_foldl (fun (draft : RuleDraft) part => (draft.add_slots part).2.2.2.2.1) repeats_picks distinct paired {}
  have stop : (parts.foldl RuleDraft.add {}).stop = _ :=
    slot_foldl (fun (draft : RuleDraft) part => (draft.add_slots part).2.2.2.2.2) stop_picks distinct paired {}
  have pty := requiresPty_foldl parts {}
  rw [any_picked source_picks distinct paired, any_picked actions_picks distinct paired] at pty
  simp only [Option.or_none, Bool.false_or] at state source regex actions repeats stop pty
  exact RuleDraft.ext state source regex actions repeats stop pty

theorem finish_eq_ok_iff {draft : RuleDraft} {pty : Bool} : draft.finish context = .ok (rule, pty) ↔
    draft.state = rule.state ∧ draft.source = some rule.source ∧ draft.regexText = some rule.regexText ∧
      draft.actions = some rule.actions ∧ draft.repeats = rule.repeats ∧ draft.stop = rule.stop ∧ draft.requiresPty = pty := by
  obtain ⟨state, source, regexText, actions, repeats, stop, requires⟩ := draft
  obtain ⟨ruleState, ruleSource, ruleRegex, ruleActions, ruleRepeats, ruleStop⟩ := rule
  cases source with
  | none => simp [RuleDraft.finish]
  | some source =>
      cases regexText with
      | none => simp [RuleDraft.finish]
      | some regexText =>
          cases actions with
          | none => simp [RuleDraft.finish]
          | some actions => simp [RuleDraft.finish, and_assoc]

/-- Every value under a key is one that the key's entry accepts. -/
def Readable (compile : Bytes → Except Bytes Unit) (ruleIndex : Nat) (entries : LuaEntries) : Prop :=
  ∀ name ∈ ruleKeys, ∀ value, fieldNamed entries name = some value →
    ∃ part : RulePart, part.name = name ∧ part.Reads compile ruleIndex value

theorem Readable.read {name : String} {value : LuaObject} (readable : Readable compile ruleIndex entries)
    (key : name ∈ ruleKeys) (found : fieldNamed entries name = some value) :
    ∃ part : RulePart, part.name = name ∧ part.Reads compile ruleIndex value := readable name key value found

theorem state_field_iff (readable : Readable compile ruleIndex entries) {state : Option Bytes} :
    (fieldNamed entries "state").bind LuaObject.text? = state ↔ fieldNamed entries "state" = state.map .string := by
  cases found : fieldNamed entries "state" with
  | none => cases state <;> simp
  | some value =>
      obtain ⟨part, here, reads⟩ := readable.read (by decide) found
      cases part <;> simp [RulePart.name] at here
      rw [show value = _ from reads]
      cases state <;> simp [LuaObject.text?]

theorem flag_field_iff {name : String} {absent flag : Bool} (readable : Readable compile ruleIndex entries)
    (key : name = "repeat" ∨ name = "stop") :
    ((fieldNamed entries name).bind LuaObject.flag?).getD absent = flag ↔ FlagField entries name absent flag := by
  rw [FlagField]
  cases found : fieldNamed entries name with
  | none => simp [eq_comm]
  | some value =>
      obtain ⟨part, here, reads⟩ := readable.read (by rcases key with rfl | rfl <;> decide) found
      rcases key with rfl | rfl <;> cases part <;> simp [RulePart.name] at here <;>
        rw [show value = _ from reads] <;> simp [LuaObject.flag?]

theorem source_field_iff {source : ExecRuleSource} :
    (fieldNamed entries "source").bind sourceOf = some source ↔
      ∃ text, fieldNamed entries "source" = some (.string text) ∧ toLowerCopy text = bytes (sourceName source) := by
  simp only [sourceOf, Option.bind_eq_some_iff, text?_eq_some_iff, toOption_eq_some_iff, parseSource_eq_ok_iff]
  constructor
  · rintro ⟨_, found, text, rfl, lowered⟩
    exact ⟨text, found, lowered⟩
  · rintro ⟨text, found, lowered⟩
    exact ⟨_, found, text, rfl, lowered⟩

theorem regex_field_iff (readable : Readable compile ruleIndex entries) {text : Bytes} :
    (fieldNamed entries "regex").bind LuaObject.text? = some text ↔
      fieldNamed entries "regex" = some (.string text) ∧ compile text = .ok () := by
  simp only [Option.bind_eq_some_iff, text?_eq_some_iff]
  constructor
  · rintro ⟨_, found, rfl⟩
    obtain ⟨part, here, reads⟩ := readable.read (by decide) found
    cases part <;> simp [RulePart.name] at here
    cases reads.1
    exact ⟨found, reads.2⟩
  · rintro ⟨found, -⟩
    exact ⟨_, found, rfl⟩

theorem actions_field_iff (distinct : ∀ entry ∈ entries, entry.2.Distinct) {actions : List ExecRuleAction} :
    (fieldNamed entries "actions").bind (actionsOf ruleIndex) = some actions ↔
      actions ≠ [] ∧ ∃ actionEntries objects, fieldNamed entries "actions" = some (.table actionEntries) ∧
        ArrayTable actionEntries objects ∧ List.Forall₂ IsAction objects actions := by
  simp only [actionsOf, Option.bind_eq_some_iff, toOption_eq_some_iff]
  have value : ∀ value, fieldNamed entries "actions" = some value → value.Distinct := by
    intro value found
    obtain ⟨entry, member, -, rfl⟩ := fieldNamed_eq_some found
    exact distinct entry member
  constructor
  · rintro ⟨given, found, parsed⟩
    obtain ⟨filled, actionEntries, objects, rfl, array, paired⟩ := (parseActions_eq_ok_iff (value given found)).1 parsed
    exact ⟨filled, actionEntries, objects, found, array, paired⟩
  · rintro ⟨filled, actionEntries, objects, found, array, paired⟩
    exact ⟨_, found, (parseActions_eq_ok_iff (value _ found)).2 ⟨filled, actionEntries, objects, rfl, array, paired⟩⟩

theorem tableDraft_finish_iff {pty : Bool} (readable : Readable compile ruleIndex entries)
    (keys : ∀ entry ∈ entries, ∃ name ∈ ruleKeys, entry.1.text? = some (bytes name))
    (distinct : ∀ entry ∈ entries, entry.2.Distinct) :
    (tableDraft ruleIndex entries).finish context = .ok (rule, pty) ↔
      RuleTable compile entries rule ∧ requiresPty rule = pty := by
  rw [finish_eq_ok_iff]
  simp only [tableDraft]
  rw [state_field_iff readable, flag_field_iff readable (Or.inl rfl), flag_field_iff readable (Or.inr rfl),
    regex_field_iff readable]
  constructor
  · rintro ⟨state, source, regex, actions, repeats, stop, pty⟩
    rw [source, actions] at pty
    exact ⟨⟨keys, state, source_field_iff.1 source, regex, (actions_field_iff distinct).1 actions, repeats, stop⟩, pty⟩
  · rintro ⟨table, rfl⟩
    have source := source_field_iff.2 table.source
    have actions : (fieldNamed entries "actions").bind (actionsOf ruleIndex) = some rule.actions :=
      (actions_field_iff distinct).2 table.actions
    refine ⟨table.state, source, table.regex, actions, table.repeats, table.stop, ?_⟩
    rw [source, actions]
    rfl

theorem RuleTable.readable (table : RuleTable compile entries rule) (distinct : ∀ entry ∈ entries, entry.2.Distinct) :
    Readable compile ruleIndex entries := by
  intro name key value found
  simp only [ruleKeys, List.mem_cons, List.not_mem_nil, or_false] at key
  rcases key with rfl | rfl | rfl | rfl | rfl | rfl
  · rw [table.state, Option.map_eq_some_iff] at found
    obtain ⟨state, -, rfl⟩ := found
    exact ⟨.state state, rfl, rfl⟩
  · obtain ⟨text, given, lowered⟩ := table.source
    rw [given, Option.some.injEq] at found
    exact ⟨.source rule.source, rfl, text, found.symm, lowered⟩
  · rw [table.regex.1, Option.some.injEq] at found
    exact ⟨.regex rule.regexText, rfl, found.symm, table.regex.2⟩
  · have actions : (fieldNamed entries "actions").bind (actionsOf ruleIndex) = some rule.actions :=
      (actions_field_iff distinct).2 table.actions
    obtain ⟨given, same, parsed⟩ := Option.bind_eq_some_iff.mp actions
    rw [same, Option.some.injEq] at found
    exact ⟨.actions rule.actions, rfl, found ▸ toOption_eq_some_iff.1 parsed⟩
  · rcases table.repeats with given | ⟨absent, -⟩
    · rw [given, Option.some.injEq] at found
      exact ⟨.repeats rule.repeats, rfl, found.symm⟩
    · rw [absent] at found
      cases found
  · rcases table.stop with given | ⟨absent, -⟩
    · rw [given, Option.some.injEq] at found
      exact ⟨.stop rule.stop, rfl, found.symm⟩
    · rw [absent] at found
      cases found

theorem readable_of_read (paired : ReadAs (readRuleEntry compile ruleIndex) entries parts) :
    Readable compile ruleIndex entries := by
  intro name key value found
  obtain ⟨entry, member, named, rfl⟩ := fieldNamed_eq_some found
  obtain ⟨part, -, read⟩ := exists_right_of_forall₂ paired member
  obtain ⟨same, reads⟩ := readRuleEntry_eq_ok_iff.1 read
  rw [named, Option.some.injEq, ruleKeys_injective key (mem_ruleKeys part)] at same
  exact ⟨part, same.symm, reads⟩

/-- Rules are read from the tables that are rules, and from no others. -/
theorem parseRule_eq_ok_iff {pty : Bool} {object : LuaObject} (distinct : object.Distinct) :
    parseRule compile ruleIndex object = .ok (rule, pty) ↔
      ∃ entries, object = .table entries ∧ RuleTable compile entries rule ∧ requiresPty rule = pty := by
  cases object with
  | table entries =>
      obtain ⟨names, values⟩ := distinct_table distinct
      rw [parseRule, draft_eq_ok_iff]
      constructor
      · rintro ⟨parts, paired, finished⟩
        rw [ruleDraft_foldl names paired, tableDraft_finish_iff (readable_of_read paired) ?_ values] at finished
        · exact ⟨entries, rfl, finished⟩
        · intro entry member
          obtain ⟨part, read⟩ := paired.reads entry member
          exact ⟨part.name, mem_ruleKeys part, (readRuleEntry_eq_ok_iff.1 read).1⟩
      · rintro ⟨_, same, table, given⟩
        cases same
        have readable : Readable compile ruleIndex entries := table.readable values
        have each : ∀ entry ∈ entries, ∃ part, readRuleEntry compile ruleIndex entry = .ok part := by
          intro entry member
          obtain ⟨name, key, named⟩ := table.keys entry member
          obtain ⟨part, rfl, reads⟩ := readable.read key (names.fieldNamed_of_mem member named)
          exact ⟨part, readRuleEntry_eq_ok_iff.2 ⟨named, reads⟩⟩
        obtain ⟨parts, paired⟩ := exists_readAs each
        refine ⟨parts, paired, ?_⟩
        rw [ruleDraft_foldl names paired]
        exact (tableDraft_finish_iff readable table.keys values).2 ⟨table, given⟩
  | _ => exact iff_of_false (by simp [parseRule]) (by simp)

end Rules

/-! ## Rulesets -/

/-- The value is the table of the rule. -/
def IsRule (compile : Bytes → Except Bytes Unit) (object : LuaObject) (rule : ExecRule) : Prop :=
  ∃ entries, object = .table entries ∧ RuleTable compile entries rule

structure RulesetTable (compile : Bytes → Except Bytes Unit) (entries : LuaEntries) (parsed : ParsedRuleset) : Prop where
  keys : ∀ entry ∈ entries, entry.1.text? = some (bytes "initial") ∨ entry.1.text? = some (bytes "rules")
  initial : fieldNamed entries "initial" = some (.string parsed.ruleset.initialState) ∨
    (fieldNamed entries "initial" = none ∧ parsed.ruleset.initialState = bytes "default")
  rules : ∃ ruleEntries objects, fieldNamed entries "rules" = some (.table ruleEntries) ∧
    ArrayTable ruleEntries objects ∧ List.Forall₂ (IsRule compile) objects parsed.ruleset.rules
  requiresPty : parsed.requiresPty = parsed.ruleset.rules.any requiresPty

section Rulesets

variable {compile : Bytes → Except Bytes Unit} {entries : LuaEntries} {parts : List RulesetPart} {parsed : ParsedRuleset}

def RulesetPart.initial? : RulesetPart → Option Bytes
  | .initial state => some state
  | .rules _ => none

def RulesetPart.rules? : RulesetPart → Option LuaObject
  | .initial _ => none
  | .rules value => some value

theorem readRulesetEntry_eq_ok_iff {entry : LuaObject × LuaObject} {part : RulesetPart} :
    readRulesetEntry entry = .ok part ↔
      (entry.1.text? = some (bytes "initial") ∧ ∃ state, entry.2 = .string state ∧ part = .initial state) ∨
        (entry.1.text? = some (bytes "rules") ∧ part = .rules entry.2) := by
  have apart : bytes "rules" ≠ bytes "initial" := by decide
  rw [readRulesetEntry]
  cases entry.1.text? with
  | none => simp
  | some name =>
      simp only [Option.some.injEq]
      split
      · next here =>
          rw [map_eq_ok_iff]
          simp [here, apart.symm, readText_eq_ok_iff, eq_comm (a := part)]
      · next other =>
          split
          · next here => simp [here, apart, eq_comm]
          · next neither => simp [other, neither]

theorem initial_picks : Picks readRulesetEntry RulesetPart.initial? LuaObject.text? "initial" := by
  have apart : bytes "rules" ≠ bytes "initial" := by decide
  intro entry part read
  obtain ⟨named, state, value, rfl⟩ | ⟨named, rfl⟩ := readRulesetEntry_eq_ok_iff.1 read
  · rw [if_pos named, value]
    rfl
  · rw [if_neg (by simpa [named] using apart)]
    rfl

theorem rules_picks : Picks readRulesetEntry RulesetPart.rules? some "rules" := by
  have apart : bytes "initial" ≠ bytes "rules" := by decide
  intro entry part read
  obtain ⟨named, state, value, rfl⟩ | ⟨named, rfl⟩ := readRulesetEntry_eq_ok_iff.1 read
  · rw [if_neg (by simpa [named] using apart)]
    rfl
  · rw [if_pos named]
    rfl

theorem RulesetDraft.add_initialState (draft : RulesetDraft) (part : RulesetPart) :
    (draft.add part).initialState = part.initial?.getD draft.initialState := by
  cases part <;> rfl

theorem RulesetDraft.add_rules (draft : RulesetDraft) (part : RulesetPart) :
    (draft.add part).rules = part.rules?.or draft.rules := by
  cases part <;> rfl

theorem parseRules_eq_ok_iff {ruleEntries : LuaEntries} {objects : List LuaObject} {rules : List (ExecRule × Bool)}
    (distinct : ∀ entry ∈ ruleEntries, entry.2.Distinct) (array : ArrayTable ruleEntries objects) :
    (objects.zipIdx 1).mapM (fun object => parseRule compile object.2 object.1) = .ok rules ↔
      List.Forall₂ (fun object rule => IsRule compile object rule.1 ∧ requiresPty rule.1 = rule.2) objects rules := by
  refine zipIdx_mapM_eq_ok_iff fun object member index rule => ?_
  rw [parseRule_eq_ok_iff (arrayTable_distinct array distinct object member)]
  exact ⟨fun ⟨entries, same, table, pty⟩ => ⟨⟨entries, same, table⟩, pty⟩,
    fun ⟨⟨entries, same, table⟩, pty⟩ => ⟨entries, same, table, pty⟩⟩

theorem marked_of_rules {objects : List LuaObject} {rules : List ExecRule} (paired : List.Forall₂ (IsRule compile) objects rules) :
    List.Forall₂ (fun object rule => IsRule compile object rule.1 ∧ requiresPty rule.1 = rule.2) objects
      (rules.map fun rule => (rule, requiresPty rule)) :=
  List.forall₂_map_right_iff.2 (paired.imp fun _ _ rule => ⟨rule, rfl⟩)

theorem rules_of_marked {objects : List LuaObject} {rules : List (ExecRule × Bool)}
    (paired : List.Forall₂ (fun object rule => IsRule compile object rule.1 ∧ requiresPty rule.1 = rule.2) objects rules) :
    List.Forall₂ (IsRule compile) objects (rules.map Prod.fst) ∧ rules.any Prod.snd = (rules.map Prod.fst).any requiresPty := by
  refine ⟨List.forall₂_map_right_iff.2 (paired.imp fun _ _ rule => rule.1), ?_⟩
  induction paired with
  | nil => rfl
  | cons head _ ih => rw [List.any_cons, List.map_cons, List.any_cons, ih, head.2]

theorem rulesetDraft_foldl (distinct : NamesDistinct entries)
    (paired : ReadAs readRulesetEntry entries parts) :
    (parts.foldl RulesetDraft.add {}).initialState = ((fieldNamed entries "initial").bind LuaObject.text?).getD (bytes "default") ∧
      (parts.foldl RulesetDraft.add {}).rules = fieldNamed entries "rules" := by
  refine ⟨slot_foldl RulesetDraft.add_initialState initial_picks distinct paired {}, ?_⟩
  have rules : (parts.foldl RulesetDraft.add {}).rules = _ :=
    optional_slot_foldl RulesetDraft.add_rules rules_picks distinct paired {}
  rw [rules, Option.bind_fun_some]
  exact Option.or_none

theorem initial_field_iff {state : Bytes}
    (texts : ∀ value, fieldNamed entries "initial" = some value → ∃ text, value = .string text) :
    ((fieldNamed entries "initial").bind LuaObject.text?).getD (bytes "default") = state ↔
      fieldNamed entries "initial" = some (.string state) ∨ (fieldNamed entries "initial" = none ∧ state = bytes "default") := by
  cases found : fieldNamed entries "initial" with
  | none => simp [eq_comm]
  | some value =>
      obtain ⟨text, rfl⟩ := texts value found
      simp [LuaObject.text?]

theorem initial_text (reads : ∀ entry ∈ entries, ∃ part, readRulesetEntry entry = .ok part) :
    ∀ value, fieldNamed entries "initial" = some value → ∃ text, value = .string text := by
  have apart : bytes "initial" ≠ bytes "rules" := by decide
  intro value found
  obtain ⟨entry, member, named, rfl⟩ := fieldNamed_eq_some found
  obtain ⟨part, read⟩ := reads entry member
  obtain ⟨-, state, value, -⟩ | ⟨other, -⟩ := readRulesetEntry_eq_ok_iff.1 read
  · exact ⟨state, value⟩
  · rw [named, Option.some.injEq] at other
    exact absurd other apart

theorem rulesetTable_of_read (names : NamesDistinct entries) (values : ∀ entry ∈ entries, entry.2.Distinct)
    (read : parseExecRules compile (.table entries) = .ok parsed) : RulesetTable compile entries parsed := by
  rw [parseExecRules, draft_eq_ok_iff] at read
  obtain ⟨parts, paired, finished⟩ := read
  obtain ⟨initial, rules⟩ := rulesetDraft_foldl names paired
  rw [RulesetDraft.finish, rules] at finished
  split at finished
  · next ruleEntries found =>
      obtain ⟨entry, member, -, same⟩ := fieldNamed_eq_some found
      have inner := (distinct_table (same ▸ values entry member)).2
      obtain ⟨objects, listed, mapped⟩ := bind_eq_ok_iff.1 finished
      have array := readArrayTable_eq_ok_iff.1 listed
      obtain ⟨rules, parsed, given⟩ := bind_eq_ok_iff.1 mapped
      obtain ⟨table, pty⟩ := rules_of_marked ((parseRules_eq_ok_iff inner array).1 parsed)
      cases given
      refine ⟨fun entry member => ?_, (initial_field_iff (initial_text paired.reads)).1 initial.symm,
        ⟨ruleEntries, objects, found, array, table⟩, pty⟩
      obtain ⟨part, read⟩ := paired.reads entry member
      obtain ⟨named, -⟩ | ⟨named, -⟩ := readRulesetEntry_eq_ok_iff.1 read
      · exact Or.inl named
      · exact Or.inr named
  · cases finished

theorem read_of_rulesetTable (names : NamesDistinct entries) (values : ∀ entry ∈ entries, entry.2.Distinct)
    (table : RulesetTable compile entries parsed) : parseExecRules compile (.table entries) = .ok parsed := by
  rw [parseExecRules, draft_eq_ok_iff]
  obtain ⟨ruleEntries, objects, found, array, paired⟩ := table.rules
  have reads : ∀ entry ∈ entries, ∃ part, readRulesetEntry entry = .ok part := by
    intro entry member
    rcases table.keys entry member with named | named
    · have first := names.fieldNamed_of_mem member named
      rcases table.initial with given | ⟨absent, -⟩
      · rw [given, Option.some.injEq] at first
        exact ⟨_, readRulesetEntry_eq_ok_iff.2 (Or.inl ⟨named, _, first.symm, rfl⟩)⟩
      · rw [absent] at first
        cases first
    · exact ⟨_, readRulesetEntry_eq_ok_iff.2 (Or.inr ⟨named, rfl⟩)⟩
  obtain ⟨parts, readAs⟩ := exists_readAs reads
  obtain ⟨initial, rules⟩ := rulesetDraft_foldl names readAs
  obtain ⟨entry, member, -, same⟩ := fieldNamed_eq_some found
  have inner := (distinct_table (same ▸ values entry member)).2
  refine ⟨parts, readAs, ?_⟩
  rw [RulesetDraft.finish, rules, found]
  refine bind_eq_ok_iff.2 ⟨objects, readArrayTable_eq_ok_iff.2 array, ?_⟩
  refine bind_eq_ok_iff.2 ⟨_, (parseRules_eq_ok_iff inner array).2 (marked_of_rules paired), ?_⟩
  rw [initial, (initial_field_iff (initial_text reads)).2 table.initial, List.map_map, List.any_map]
  change Except.ok (⟨⟨_, parsed.ruleset.rules.map id⟩, parsed.ruleset.rules.any requiresPty⟩ : ParsedRuleset) = _
  rw [List.map_id, ← table.requiresPty]

/-- Rulesets are read from the tables that are rulesets, in whatever order their entries
come, and from no others. -/
theorem parseExecRules_eq_ok_iff (object : LuaObject) (parsed : ParsedRuleset) (distinct : object.Distinct) :
    parseExecRules compile object = .ok parsed ↔ ∃ entries, object = .table entries ∧ RulesetTable compile entries parsed := by
  cases object with
  | table entries =>
      obtain ⟨names, values⟩ := distinct_table distinct
      constructor
      · intro read
        exact ⟨entries, rfl, rulesetTable_of_read names values read⟩
      · rintro ⟨_, same, table⟩
        cases same
        exact read_of_rulesetTable names values table
  | _ => exact iff_of_false (by simp [parseExecRules]) (by simp)

/-- A rule whose keys come in another order than the source reads them. -/
def answerEntries : LuaEntries :=
  [(.string (bytes "rules"), .table [(.number (some 1) (bytes "1"), .table
    [(.string (bytes "actions"), .table [(.number (some 1) (bytes "1"),
        .table [(.string (bytes "value"), .string (bytes "y")), (.string (bytes "type"), .string (bytes "SEND"))])]),
      (.string (bytes "regex"), .string (bytes "continue")), (.string (bytes "source"), .string (bytes "Line"))])])]

def answerRules : ParsedRuleset where
  ruleset := ⟨bytes "default", [⟨none, .line, bytes "continue", [⟨.send, [(bytes "value", bytes "y")]⟩], true, false⟩]⟩
  requiresPty := true

theorem answerEntries_distinct : (LuaObject.table answerEntries).Distinct := by
  have one : ∀ (index : Option Int) (text : Bytes) (value : LuaObject), value.Distinct →
      (LuaObject.table [(.number index text, value)]).Distinct :=
    fun _ _ _ distinct => .table List.nodup_nil (by simpa using distinct)
  have action : ∀ value type : Bytes, (LuaObject.table
      [(.string (bytes "value"), .string value), (.string (bytes "type"), .string type)]).Distinct :=
    fun value type => .table (by simp [NamesDistinct, LuaObject.text?]; decide) (by simp [LuaObject.Distinct.string])
  refine .table (by simp [answerEntries, NamesDistinct, LuaObject.text?]) ?_
  rw [answerEntries, List.forall_mem_singleton]
  refine one _ _ _ (.table (by simp [NamesDistinct, LuaObject.text?]; decide) ?_)
  simp [one, action, LuaObject.Distinct.string]

theorem answerRules_table : RulesetTable (fun _ => .ok ()) answerEntries answerRules := by
  have action : ActionTable [(.string (bytes "value"), .string (bytes "y")), (.string (bytes "type"), .string (bytes "SEND"))]
      ⟨.send, [(bytes "value", bytes "y")]⟩ :=
    ⟨by simp [LuaObject.text?], ⟨_, rfl, by decide⟩, by simp [LuaObject.text?, LuaObject.fieldText?], rfl,
      .inr ⟨"value", by decide⟩⟩
  refine ⟨by simp [answerEntries, LuaObject.text?], .inr ⟨rfl, rfl⟩,
    ⟨_, [_], rfl, .refl _, .cons ⟨_, rfl, ?_⟩ .nil⟩, rfl⟩
  exact ⟨by simp [LuaObject.text?, ruleKeys], rfl, ⟨_, rfl, by decide⟩, ⟨rfl, rfl⟩,
    ⟨List.cons_ne_nil _ _, _, [_], rfl, .refl _, .cons ⟨_, rfl, action⟩ .nil⟩, .inr ⟨rfl, rfl⟩, .inr ⟨rfl, rfl⟩⟩

theorem parseExecRules_answer : parseExecRules (fun _ => .ok ()) (.table answerEntries) = .ok answerRules :=
  (parseExecRules_eq_ok_iff _ _ answerEntries_distinct).2 ⟨answerEntries, rfl, answerRules_table⟩

end Rulesets

end ReqPack.PluginHost
