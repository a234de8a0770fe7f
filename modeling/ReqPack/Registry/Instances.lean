import Mathlib.Logic.Relation
import ReqPack.Registry.Runtime

/-! # What the registry does to its plugin table

Every operation is a chain of small changes of the three maps.  Two more, the strikes,
take the record that a plugin is active away from a live instance.
-/

namespace ReqPack.Registry

open ReqPack.Data ReqPack.Core

namespace PluginTable

variable {δ : Type} {env : RuntimeEnv δ} {table after : PluginTable δ} {name other : String} {held : Nat}

inductive Change (env : RuntimeEnv δ) : PluginTable δ → PluginTable δ → Prop
  | world (table : PluginTable δ) (world : δ) : Change env table { table with world := world }
  | found (table : PluginTable δ) {name : String} (path : String) (external : name ≠ builtInRqpPluginId) :
      Change env table { table with paths := Function.update table.paths name (some path) }
  | marked (table : PluginTable δ) {name : String} {state : PluginState} (inactive : table.stateOf name ≠ .active)
      (idle : state ≠ .active) (keeps : table.stateOf name = .failed → state = .failed) :
      Change env table (table.setState name state)
  | touched (table : PluginTable δ) (name : String) : Change env table (table.touchState name)
  | written (table : PluginTable δ) (name : String) : Change env table (table.log (.materialized name))
  | added (table : PluginTable δ) {name path : String} (missing : table.plugins.get name = none)
      (known : table.paths name = some path) : Change env table (table.addInstance env name path)
  | dropped (table : PluginTable δ) {name : String} (inactive : table.stateOf name ≠ .active) :
      Change env table (table.eraseInstance name)
  | refused (table : PluginTable δ) (held : Nat) : Change env table (table.log (.initialised held false))
  | started (table : PluginTable δ) {name : String} {held : Nat} (found : table.plugins.get name = some held)
      (inactive : table.stateOf name ≠ .active) (sound : table.stateOf name ≠ .failed) :
      Change env table ((table.log (.initialised held true)).setState name .active)
  | stopped (table : PluginTable δ) {name : String} {held : Nat} (found : table.plugins.get name = some held)
      (active : table.stateOf name = .active) :
      Change env table ((table.log (.shutDown held)).setState name .shutDown)
  | unloaded (table : PluginTable δ) {name : String} {held : Nat} (found : table.plugins.get name = some held)
      (active : table.stateOf name = .active) : Change env table ((table.log (.shutDown held)).forget name)
  | forgotten (table : PluginTable δ) {name : String} (inactive : table.stateOf name ≠ .active) :
      Change env table (table.forget name)

/-- An active plugin is marked as failed, or forgotten, and not shut down. -/
inductive Strike : PluginTable δ → PluginTable δ → Prop
  | failed (table : PluginTable δ) {name : String} (active : table.stateOf name = .active) :
      Strike table (table.setState name .failed)
  | torn (table : PluginTable δ) {name : String} (active : table.stateOf name = .active) :
      Strike table (table.forget name)

/-- A run of changes without strikes. -/
def Chain (env : RuntimeEnv δ) : PluginTable δ → PluginTable δ → Prop := Relation.ReflTransGen (Change env)

theorem Change.chain (change : Change env table after) : Chain env table after := Relation.ReflTransGen.single change

theorem Chain.refl (table : PluginTable δ) : Chain env table table := Relation.ReflTransGen.refl

theorem Chain.trans {last : PluginTable δ} (chain : Chain env table after) (more : Chain env after last) :
    Chain env table last := Relation.ReflTransGen.trans chain more

/-! ## The maps after a change -/

section Maps

variable {state : PluginState}

theorem stateOf_setState :
    (table.setState name state).stateOf other = if other = name then state else table.stateOf other := by
  simp only [stateOf, setState, Function.update_apply]
  split <;> rfl

@[simp] theorem stateOf_touchState : (table.touchState name).stateOf other = table.stateOf other := by
  rw [touchState, stateOf_setState]
  split
  · next here => rw [here]
  · rfl

theorem get_eraseInstance :
    (table.eraseInstance name).plugins.get other = if other = name then none else table.plugins.get other := by
  rw [eraseInstance]
  cases found : table.plugins.get name with
  | none =>
      by_cases here : other = name
      · rw [if_pos here, here, found]
      · rw [if_neg here]
  | some held => exact KeyValue.get_erase _ _ _

@[simp] theorem stateOf_eraseInstance : (table.eraseInstance name).stateOf other = table.stateOf other := by
  rw [eraseInstance]
  split <;> rfl

@[simp] theorem paths_eraseInstance : (table.eraseInstance name).paths = table.paths := by
  rw [eraseInstance]
  split <;> rfl

@[simp] theorem nextInstance_eraseInstance : (table.eraseInstance name).nextInstance = table.nextInstance := by
  rw [eraseInstance]
  split <;> rfl

theorem get_addInstance {path : String} : (table.addInstance env name path).plugins.get other =
    if other = name then some table.nextInstance else table.plugins.get other :=
  KeyValue.get_put _ _ _ _

theorem get_forget :
    (table.forget name).plugins.get other = if other = name then none else table.plugins.get other :=
  get_eraseInstance

theorem stateOf_forget :
    (table.forget name).stateOf other = if other = name then .notFound else table.stateOf other := by
  have same : (table.eraseInstance name).stateOf other = table.stateOf other := stateOf_eraseInstance
  rw [stateOf] at same
  simp only [forget, erasePath, eraseState, stateOf, Function.update_apply]
  split
  · rfl
  · exact same

theorem paths_forget : (table.forget name).paths other = if other = name then none else table.paths other := by
  simp only [forget, erasePath, eraseState, Function.update_apply, paths_eraseInstance]

theorem nextInstance_forget : (table.forget name).nextInstance = table.nextInstance := nextInstance_eraseInstance

end Maps

/-! ## What always holds of the maps -/

structure Kept (table : PluginTable δ) : Prop where
  fresh : ∀ name held, table.plugins.get name = some held → held < table.nextInstance
  unique : ∀ name other held, table.plugins.get name = some held → table.plugins.get other = some held → name = other
  absent : ∀ name, table.plugins.get name = none → table.stateOf name ≠ .active
  pathed : ∀ name held, table.plugins.get name = some held →
    name = builtInRqpPluginId ∨ (table.paths name).isSome = true
  builtIn : table.paths builtInRqpPluginId = none

theorem Kept.setState (kept : Kept table) {state : PluginState}
    (idle : table.plugins.get name = none → state ≠ .active) : Kept (table.setState name state) where
  fresh := kept.fresh
  unique := kept.unique
  absent := by
    intro other missing
    rw [stateOf_setState]
    by_cases here : other = name
    · rw [if_pos here]
      exact idle (here ▸ missing)
    · rw [if_neg here]
      exact kept.absent other missing
  pathed := kept.pathed
  builtIn := kept.builtIn

theorem Kept.log (kept : Kept table) (event : RegistryEvent) : Kept (table.log event) := { kept with }

theorem Kept.addInstance (kept : Kept table) {path : String} (missing : table.plugins.get name = none)
    (known : table.paths name = some path) : Kept (table.addInstance env name path) := by
  have held : ∀ other kept, (table.addInstance env name path).plugins.get other = some kept →
      other = name ∧ kept = table.nextInstance ∨ other ≠ name ∧ table.plugins.get other = some kept := by
    intro other kept present
    rw [get_addInstance] at present
    by_cases here : other = name
    · rw [if_pos here] at present
      exact Or.inl ⟨here, (Option.some.inj present).symm⟩
    · rw [if_neg here] at present
      exact Or.inr ⟨here, present⟩
  refine ⟨?_, ?_, ?_, ?_, kept.builtIn⟩
  · intro other number present
    rcases held other number present with ⟨-, rfl⟩ | ⟨-, old⟩
    · exact Nat.lt_succ_self _
    · exact Nat.lt_succ_of_lt (kept.fresh other number old)
  · intro first second number one two
    rcases held first number one with ⟨rfl, rfl⟩ | ⟨-, oldFirst⟩
    · rcases held second _ two with ⟨rfl, -⟩ | ⟨-, oldSecond⟩
      · rfl
      · exact absurd (kept.fresh second _ oldSecond) (Nat.lt_irrefl _)
    · rcases held second number two with ⟨-, rfl⟩ | ⟨-, oldSecond⟩
      · exact absurd (kept.fresh first _ oldFirst) (Nat.lt_irrefl _)
      · exact kept.unique first second number oldFirst oldSecond
  · intro other absent
    rw [get_addInstance] at absent
    by_cases here : other = name
    · rw [if_pos here] at absent
      cases absent
    · rw [if_neg here] at absent
      exact kept.absent other absent
  · intro other number present
    rcases held other number present with ⟨rfl, rfl⟩ | ⟨-, old⟩
    · exact Or.inr (by rw [show (table.addInstance env other path).paths = table.paths from rfl, known]; rfl)
    · exact kept.pathed other number old

/-- A plugin that has no instance any more. -/
theorem Kept.without (kept : Kept table)
    (plugins : ∀ other, after.plugins.get other = if other = name then none else table.plugins.get other)
    (paths : ∀ other, other ≠ name → after.paths other = table.paths other)
    (states : ∀ other, other ≠ name → after.stateOf other = table.stateOf other)
    (idle : after.stateOf name ≠ .active) (builtIn : after.paths builtInRqpPluginId = none)
    (number : after.nextInstance = table.nextInstance) : Kept after := by
  have held : ∀ other kept, after.plugins.get other = some kept → other ≠ name ∧ table.plugins.get other = some kept := by
    intro other kept present
    rw [plugins] at present
    by_cases here : other = name
    · rw [if_pos here] at present
      cases present
    · rw [if_neg here] at present
      exact ⟨here, present⟩
  refine ⟨?_, ?_, ?_, ?_, builtIn⟩
  · intro other kept' present
    rw [number]
    exact kept.fresh other kept' (held other kept' present).2
  · intro first second kept' one two
    exact kept.unique first second kept' (held first kept' one).2 (held second kept' two).2
  · intro other missing
    by_cases here : other = name
    · exact here ▸ idle
    · rw [states other here]
      refine kept.absent other ?_
      rw [← missing, plugins, if_neg here]
  · intro other kept' present
    obtain ⟨here, old⟩ := held other kept' present
    rw [paths other here]
    exact kept.pathed other kept' old

theorem Kept.forget (kept : Kept table) (name : String) : Kept (table.forget name) := by
  refine kept.without (fun other => get_forget) (fun other apart => ?_) (fun other apart => ?_) ?_ ?_ nextInstance_forget
  · rw [paths_forget, if_neg apart]
  · rw [stateOf_forget, if_neg apart]
  · rw [stateOf_forget, if_pos rfl]
    simp
  · rw [paths_forget]
    split
    · rfl
    · exact kept.builtIn

theorem Kept.eraseInstance (kept : Kept table) (inactive : table.stateOf name ≠ .active) :
    Kept (table.eraseInstance name) := by
  refine kept.without (fun other => get_eraseInstance) (fun _ _ => by rw [paths_eraseInstance])
    (fun _ _ => stateOf_eraseInstance) ?_ ?_ nextInstance_eraseInstance
  · rw [stateOf_eraseInstance]
    exact inactive
  · rw [paths_eraseInstance]
    exact kept.builtIn

theorem Kept.found (kept : Kept table) (path : String) (external : name ≠ builtInRqpPluginId) :
    Kept { table with paths := Function.update table.paths name (some path) } := by
  refine { kept with
    pathed := fun other held present => ?_
    builtIn := (Function.update_of_ne (Ne.symm external) ..).trans kept.builtIn }
  by_cases here : other = name
  · exact Or.inr (by simp [here])
  · refine (kept.pathed other held present).imp_right fun known => ?_
    simpa only [Function.update_of_ne here] using known

theorem Kept.change (kept : Kept table) (change : Change env table after) : Kept after := by
  cases change with
  | world world => exact { kept with }
  | found path external => exact kept.found path external
  | marked inactive idle keeps => exact kept.setState fun _ => idle
  | touched name => exact kept.setState (kept.absent name)
  | written name => exact kept.log _
  | added missing known => exact kept.addInstance missing known
  | dropped inactive => exact kept.eraseInstance inactive
  | refused held => exact kept.log _
  | started found inactive sound =>
      refine (kept.log _).setState fun missing => ?_
      rw [show (table.log (.initialised _ true)).plugins = table.plugins from rfl, found] at missing
      cases missing
  | stopped found active => exact (kept.log _).setState fun _ => by simp
  | unloaded found active => exact (kept.log _).forget _
  | forgotten inactive => exact kept.forget _

theorem Kept.strike (kept : Kept table) (strike : Strike table after) : Kept after := by
  cases strike with
  | failed active => exact kept.setState fun _ => by simp
  | torn active => exact kept.forget _

theorem Kept.chain (kept : Kept table) (chain : Chain env table after) : Kept after := by
  induction chain with
  | refl => exact kept
  | tail _ change ih => exact ih.change change

end PluginTable

theorem initialTable_kept {δ : Type} (world : δ) : PluginTable.Kept (initialTable world) := by
  have lookup : ∀ name, (initialTable world).plugins.get name = if name = builtInRqpPluginId then some 0 else none := by
    intro name
    exact KeyValue.get_put _ _ _ _
  have held : ∀ name number, (initialTable world).plugins.get name = some number →
      name = builtInRqpPluginId ∧ number = 0 := by
    intro name number present
    rw [lookup] at present
    by_cases here : name = builtInRqpPluginId
    · rw [if_pos here] at present
      exact ⟨here, (Option.some.inj present).symm⟩
    · rw [if_neg here] at present
      cases present
  refine ⟨?_, ?_, ?_, ?_, rfl⟩
  · intro name number present
    rw [(held name number present).2]
    exact Nat.zero_lt_one
  · intro first second number one two
    rw [(held first number one).1, (held second number two).1]
  · intro name missing
    have apart : name ≠ builtInRqpPluginId := by
      rintro rfl
      rw [lookup, if_pos rfl] at missing
      cases missing
    simp [PluginTable.stateOf, initialTable, Function.update_of_ne apart]
  · intro name number present
    exact Or.inl (held name number present).1

end ReqPack.Registry
