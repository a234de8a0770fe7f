import Mathlib.Data.List.Lex
import Mathlib.Order.Lattice

/-! # An ordered key-value store

A database whose cursor walks the keys in order.  A scan for all keys that start
with given letters jumps to the first key not below them and stops at the first
key that does not start with them: in the order of words those keys form one block.
-/

namespace ReqPack.Data

universe u v

theorem KeyValue.sorted_nil {κ : Type u} {ν : Type v} [LinearOrder κ] :
    ([] : List (κ × ν)).Pairwise fun left right => left.1 < right.1 :=
  List.Pairwise.nil

/-- Entries in the order of their keys, each key once. -/
structure KeyValue (κ : Type u) (ν : Type v) [LinearOrder κ] where
  entries : List (κ × ν) := []
  sorted : entries.Pairwise fun left right => left.1 < right.1 := by exact KeyValue.sorted_nil

namespace KeyValue

section Entries

variable {κ : Type u} {ν : Type v} [LinearOrder κ]

def insertEntry (key : κ) (value : ν) : List (κ × ν) → List (κ × ν)
  | [] => [(key, value)]
  | head :: tail =>
      if key < head.1 then (key, value) :: head :: tail
      else if key = head.1 then (key, value) :: tail
      else head :: insertEntry key value tail

theorem mem_insertEntry {key : κ} {value : ν} {entries : List (κ × ν)}
    (sorted : entries.Pairwise fun left right => left.1 < right.1) {entry : κ × ν} :
    entry ∈ insertEntry key value entries ↔
      entry = (key, value) ∨ (entry ∈ entries ∧ entry.1 ≠ key) := by
  induction entries with
  | nil => simp [insertEntry]
  | cons head tail ih =>
      obtain ⟨below, rest⟩ := List.pairwise_cons.mp sorted
      unfold insertEntry
      by_cases before : key < head.1
      · have apart : ∀ other ∈ head :: tail, other.1 ≠ key := by
          intro other member
          rcases List.mem_cons.mp member with rfl | later
          · exact before.ne'
          · exact (before.trans (below other later)).ne'
        rw [if_pos before, List.mem_cons]
        exact or_congr_right ⟨fun member => ⟨member, apart entry member⟩, fun found => found.1⟩
      · rw [if_neg before]
        by_cases same : key = head.1
        · have apart : ∀ other ∈ tail, other.1 ≠ key := by
            intro other member
            rw [same]
            exact (below other member).ne'
          rw [if_pos same, List.mem_cons]
          refine or_congr_right ⟨fun member => ⟨List.mem_cons_of_mem _ member, apart entry member⟩, ?_⟩
          intro found
          rcases List.mem_cons.mp found.1 with rfl | later
          · exact absurd same.symm found.2
          · exact later
        · rw [if_neg same, List.mem_cons, ih rest, List.mem_cons]
          constructor
          · intro found
            rcases found with rfl | new | old
            · exact Or.inr ⟨Or.inl rfl, Ne.symm same⟩
            · exact Or.inl new
            · exact Or.inr ⟨Or.inr old.1, old.2⟩
          · intro found
            rcases found with new | ⟨first | later, apart⟩
            · exact Or.inr (Or.inl new)
            · exact Or.inl first
            · exact Or.inr (Or.inr ⟨later, apart⟩)

theorem insertEntry_sorted {key : κ} {value : ν} {entries : List (κ × ν)}
    (sorted : entries.Pairwise fun left right => left.1 < right.1) :
    (insertEntry key value entries).Pairwise fun left right => left.1 < right.1 := by
  induction entries with
  | nil => simp [insertEntry]
  | cons head tail ih =>
      obtain ⟨below, rest⟩ := List.pairwise_cons.mp sorted
      unfold insertEntry
      by_cases before : key < head.1
      · rw [if_pos before, List.pairwise_cons]
        refine ⟨fun other member => ?_, sorted⟩
        rcases List.mem_cons.mp member with rfl | later
        · exact before
        · exact before.trans (below other later)
      · rw [if_neg before]
        by_cases same : key = head.1
        · rw [if_pos same, List.pairwise_cons]
          refine ⟨fun other member => ?_, rest⟩
          rw [same]
          exact below other member
        · rw [if_neg same, List.pairwise_cons]
          refine ⟨fun other member => ?_, ih rest⟩
          rcases (mem_insertEntry rest).mp member with rfl | old
          · exact lt_of_le_of_ne (not_lt.mp before) (Ne.symm same)
          · exact below other old.1

theorem value_unique {entries : List (κ × ν)}
    (sorted : entries.Pairwise fun left right => left.1 < right.1) {left right : κ × ν}
    (leftMember : left ∈ entries) (rightMember : right ∈ entries) (same : left.1 = right.1) :
    left = right := by
  induction entries with
  | nil => cases leftMember
  | cons head tail ih =>
      obtain ⟨below, rest⟩ := List.pairwise_cons.mp sorted
      rcases List.mem_cons.mp leftMember with rfl | leftLater
      · rcases List.mem_cons.mp rightMember with rfl | rightLater
        · rfl
        · exact absurd same (below right rightLater).ne
      · rcases List.mem_cons.mp rightMember with rfl | rightLater
        · exact absurd same (below left leftLater).ne'
        · exact ih rest leftLater rightLater

end Entries

section Operations

variable {κ : Type u} {ν : Type v} [LinearOrder κ] (store : KeyValue κ ν)

def empty : KeyValue κ ν := {}

def get (key : κ) : Option ν :=
  (store.entries.find? fun entry => decide (entry.1 = key)).map Prod.snd

def put (key : κ) (value : ν) : KeyValue κ ν where
  entries := insertEntry key value store.entries
  sorted := insertEntry_sorted store.sorted

def erase (key : κ) : KeyValue κ ν where
  entries := store.entries.filter fun entry => decide (entry.1 ≠ key)
  sorted := store.sorted.filter _

def eraseKeys (keys : List κ) : KeyValue κ ν := keys.foldl erase store

variable {store}

theorem get_eq_some {key : κ} {value : ν} :
    store.get key = some value ↔ (key, value) ∈ store.entries := by
  unfold get
  constructor
  · intro found
    obtain ⟨entry, first, rfl⟩ := Option.map_eq_some_iff.mp found
    have same : entry.1 = key := by simpa using List.find?_some first
    exact same ▸ List.mem_of_find?_eq_some first
  · intro member
    cases first : store.entries.find? fun entry => decide (entry.1 = key) with
    | none =>
        have apart := List.find?_eq_none.mp first (key, value) member
        simp at apart
    | some entry =>
        have same : entry.1 = key := by simpa using List.find?_some first
        have found : entry = (key, value) :=
          value_unique store.sorted (List.mem_of_find?_eq_some first) member same
        simp [found]

theorem get_put (store : KeyValue κ ν) (key other : κ) (value : ν) :
    (store.put key value).get other = if other = key then some value else store.get other := by
  apply Option.ext
  intro found
  rw [get_eq_some]
  simp only [put, mem_insertEntry store.sorted, Prod.mk.injEq]
  by_cases same : other = key
  · simp [same, eq_comm]
  · simp [same, get_eq_some]

theorem get_erase (store : KeyValue κ ν) (key other : κ) :
    (store.erase key).get other = if other = key then none else store.get other := by
  apply Option.ext
  intro found
  rw [get_eq_some]
  simp only [erase, List.mem_filter, decide_eq_true_eq]
  by_cases same : other = key
  · simp [same]
  · simp [same, get_eq_some]

theorem get_eraseKeys (store : KeyValue κ ν) (keys : List κ) (other : κ) :
    (store.eraseKeys keys).get other = if other ∈ keys then none else store.get other := by
  induction keys generalizing store with
  | nil => simp [eraseKeys]
  | cons key keys ih =>
      have step := ih (store.erase key)
      simp only [eraseKeys, List.foldl_cons] at step ⊢
      rw [step, get_erase]
      by_cases same : other = key
      · simp [same]
      · simp [same]

theorem ext_get {left right : KeyValue κ ν} (same : ∀ key, left.get key = right.get key) : left = right := by
  have members : ∀ entry, entry ∈ left.entries ↔ entry ∈ right.entries := by
    intro entry
    have here : left.get entry.1 = some entry.2 ↔ right.get entry.1 = some entry.2 := by rw [same]
    rwa [get_eq_some, get_eq_some] at here
  have apart : ∀ {store : KeyValue κ ν}, store.entries.Nodup := fun {store} =>
    List.Pairwise.imp (fun before => fun equal => before.ne (congrArg Prod.fst equal)) store.sorted
  have equal : left.entries = right.entries :=
    ((List.perm_ext_iff_of_nodup apart apart).mpr members).eq_of_pairwise
      (fun _ _ _ _ less greater => absurd greater less.asymm) left.sorted right.sorted
  cases left
  cases right
  cases equal
  rfl

/-- The last entry written under a key is the one found there. -/
theorem get_foldl_putBy {β : Type*} (keyOf : β → κ) (valueOf : β → ν) (written : List β) (store : KeyValue κ ν)
    (key : κ) :
    (written.foldl (fun store entry => store.put (keyOf entry) (valueOf entry)) store).get key =
      ((written.reverse.find? fun entry => decide (keyOf entry = key)).map valueOf).or (store.get key) := by
  induction written generalizing store with
  | nil => rfl
  | cons entry written ih =>
      rw [List.foldl_cons, ih, get_put, List.reverse_cons, List.find?_append]
      cases later : written.reverse.find? fun entry => decide (keyOf entry = key) with
      | some last => rfl
      | none =>
          by_cases same : key = keyOf entry
          · simp [same]
          · simp [same, Ne.symm same]

/-- Entries written over a store hide what was there. -/
theorem get_foldl_put {entries : List (κ × ν)} (sorted : entries.Pairwise fun left right => left.1 < right.1)
    (store : KeyValue κ ν) (key : κ) :
    (entries.foldl (fun written entry => written.put entry.1 entry.2) store).get key =
      ((entries.find? fun entry => decide (entry.1 = key)).map Prod.snd).or (store.get key) := by
  induction entries generalizing store with
  | nil => rfl
  | cons head tail ih =>
      obtain ⟨below, rest⟩ := List.pairwise_cons.mp sorted
      rw [List.foldl_cons, ih rest, get_put, List.find?_cons]
      by_cases same : head.1 = key
      · have nowhere : (tail.find? fun entry => decide (entry.1 = key)) = none := by
          rw [List.find?_eq_none]
          intro entry member found
          have later := below entry member
          rw [same, of_decide_eq_true found] at later
          exact lt_irrefl _ later
        simp [same, nowhere]
      · simp [same, Ne.symm same]

end Operations

section Scans

variable {α : Type u} {ν : Type v} [LinearOrder α]

/-- Words that start alike are neighbours. -/
theorem starts_of_between {start first second : List α} (above : ¬ first < start)
    (ordered : first < second) (starts : start <+: second) : start <+: first := by
  induction start generalizing first second with
  | nil => exact List.nil_prefix
  | cons letter start ih =>
      obtain ⟨rest, rfl⟩ := starts
      cases first with
      | nil => exact absurd (List.nil_lt_cons letter start) above
      | cons other first =>
          simp only [List.cons_append, List.cons_lt_cons_iff, not_or, not_and] at above ordered
          have same : other = letter := by
            rcases ordered with low | ⟨same, _⟩
            · exact absurd low above.1
            · exact same
          subst other
          rcases ordered with low | ⟨_, behind⟩
          · exact absurd low (lt_irrefl _)
          · exact (List.prefix_cons_inj letter).mpr (ih (above.2 rfl) behind ⟨rest, rfl⟩)

theorem not_lt_of_starts {start word : List α} (starts : start <+: word) : ¬ word < start := by
  induction start generalizing word with
  | nil => simp
  | cons letter start ih =>
      obtain ⟨rest, rfl⟩ := starts
      simp only [List.cons_append, List.cons_lt_cons_iff, lt_self_iff_false, true_and, false_or]
      exact ih ⟨rest, rfl⟩

variable (store : KeyValue (List α) ν)

/-- `scan_prefix`: from the first key that is not below the given letters on, as long as
the keys start with them; empty letters find nothing. -/
def scan (start : List α) : List (List α × ν) :=
  if start.isEmpty then []
  else
    (store.entries.dropWhile fun entry => decide (entry.1 < start)).takeWhile fun entry =>
      start.isPrefixOf entry.1

def keysFrom (start : List α) : List (List α) := (store.scan start).map Prod.fst

/-- Jumping to the first key and stopping behind the last finds every key that starts
with the letters and nothing else. -/
theorem scan_eq_filter {start : List α} (named : start ≠ []) :
    store.scan start = store.entries.filter fun entry => start.isPrefixOf entry.1 := by
  have sorted := store.sorted
  rw [scan, if_neg (by simpa using named)]
  generalize store.entries = entries at sorted
  induction entries with
  | nil => rfl
  | cons head tail ih =>
      obtain ⟨below, rest⟩ := List.pairwise_cons.mp sorted
      by_cases low : head.1 < start
      · have skipped : ¬ start.isPrefixOf head.1 = true := by
          rw [List.isPrefixOf_iff_prefix]
          exact fun starts => not_lt_of_starts starts low
        rw [List.dropWhile_cons_of_pos (by simpa using low), ih rest, List.filter_cons, if_neg skipped]
      · have high : ∀ entry ∈ tail, ¬ entry.1 < start := by
          intro entry member lower
          exact low ((below entry member).trans lower)
        have dropped : (head :: tail).dropWhile (fun entry => decide (entry.1 < start)) = head :: tail :=
          List.dropWhile_cons_of_neg (by simpa using low)
        have kept : tail.dropWhile (fun entry => decide (entry.1 < start)) = tail := by
          cases tail with
          | nil => rfl
          | cons second tail => exact List.dropWhile_cons_of_neg (by simpa using high second List.mem_cons_self)
        rw [kept] at ih
        rw [dropped]
        by_cases starts : start.isPrefixOf head.1 = true
        · simp only [List.takeWhile_cons, List.filter_cons, starts, if_true, ih rest]
        · -- a later key with these letters would stand between this one and itself
          have nothing : tail.filter (fun entry => start.isPrefixOf entry.1) = [] := by
            rw [List.filter_eq_nil_iff]
            intro entry member found
            rw [List.isPrefixOf_iff_prefix] at found starts
            exact starts (starts_of_between low (below entry member) found)
          simp only [List.takeWhile_cons, List.filter_cons, starts, Bool.false_eq_true, if_false, nothing]

variable {store}

theorem mem_scan {start : List α} (named : start ≠ []) {entry : List α × ν} :
    entry ∈ store.scan start ↔ store.get entry.1 = some entry.2 ∧ start <+: entry.1 := by
  rw [scan_eq_filter store named, List.mem_filter, get_eq_some, List.isPrefixOf_iff_prefix]

theorem mem_keysFrom {start : List α} (named : start ≠ []) {key : List α} :
    key ∈ store.keysFrom start ↔ (∃ value, store.get key = some value) ∧ start <+: key := by
  simp only [keysFrom, List.mem_map, mem_scan named]
  constructor
  · intro found
    obtain ⟨entry, ⟨present, starts⟩, rfl⟩ := found
    exact ⟨⟨entry.2, present⟩, starts⟩
  · intro found
    obtain ⟨⟨value, present⟩, starts⟩ := found
    exact ⟨(key, value), ⟨present, starts⟩, rfl⟩

end Scans

end KeyValue

end ReqPack.Data
