import Mathlib.Data.List.Forall2
import Mathlib.Data.List.Nodup
import ReqPack.Planner.Resolution

/-! # Where a proxy leads

A request that was resolved has come to a system that is no proxy, by different systems
each of which was allowed to pass it on.
-/

namespace ReqPack.Planner

open ReqPack.Data ReqPack.Core

/-- No proxy, or none that can be asked. -/
def Settled (proxies : Proxies) (system : String) : Prop :=
  system.isEmpty = true ∨ proxies.loadPlugin system = false ∨ proxies.supportsProxyResolution system = false

/-- The request under the name its system resolves to. -/
def named (proxies : Proxies) (request : Request) : Request :=
  { request with system := proxies.resolvePluginName request.system }

/-- A proxy that passed a request on, and the target that it named. -/
structure Hop where
  system : String
  target : String
deriving DecidableEq, Repr

def hopOf (proxies : Proxies) (current : Request) (answer : ProxyResolution) : Hop where
  system := current.system
  target := proxies.resolvePluginName (toLowerCopy answer.targetSystem)

/-- Away from the proxy itself, and to a configured target if there are any. -/
structure Allowed (proxies : Proxies) (hop : Hop) : Prop where
  away : hop.target ≠ hop.system
  configured : proxies.targets hop.system ≠ [] → hop.target ∈ proxies.targets hop.system

/-- The way of a request, from proxy to proxy. -/
inductive Journey (proxies : Proxies) : Request → List Hop → Request → Prop
  | settled {request : Request} (there : Settled proxies (named proxies request).system) :
      Journey proxies request [] (named proxies request)
  | passed {request resolved : Request} {answer : ProxyResolution} {hops : List Hop}
      (proxy : ¬Settled proxies (named proxies request).system)
      (answered : proxies.resolveProxyRequest (named proxies request).system (named proxies request) = some answer)
      (journey : Journey proxies
        (passedOn (named proxies request) (hopOf proxies (named proxies request) answer).target answer) hops resolved) :
      Journey proxies request (hopOf proxies (named proxies request) answer :: hops) resolved

section Soundness

variable {proxies : Proxies} {request resolved : Request} {remaining : Nat} {visitedSystems : List String}

/-- The request has settled, or a proxy that was not visited passed it on. -/
theorem resolveRequestRecursive_cases
    (resolves : resolveRequestRecursive proxies remaining request visitedSystems = .ok resolved) :
    (resolved = named proxies request ∧ Settled proxies (named proxies request).system) ∨
      ∃ later answer, remaining = later + 1 ∧ ¬Settled proxies (named proxies request).system ∧
        (named proxies request).system ∉ visitedSystems ∧
        proxies.resolveProxyRequest (named proxies request).system (named proxies request) = some answer ∧
        Allowed proxies (hopOf proxies (named proxies request) answer) ∧
        resolveRequestRecursive proxies later
          (passedOn (named proxies request) (hopOf proxies (named proxies request) answer).target answer)
          (visitedSystems ++ [(named proxies request).system]) = .ok resolved := by
  cases remaining with
  | zero =>
      simp only [resolveRequestRecursive] at resolves
      split at resolves
      · next empty =>
          cases resolves
          exact Or.inl ⟨rfl, Or.inl empty⟩
      · cases resolves
  | succ later =>
      simp only [resolveRequestRecursive] at resolves
      split at resolves
      · next empty =>
          cases resolves
          exact Or.inl ⟨rfl, Or.inl empty⟩
      next filled =>
      split at resolves
      · next absent =>
          cases resolves
          exact Or.inl ⟨rfl, Or.inr (Or.inl ((Bool.not_eq_true' _).mp absent))⟩
      next loaded =>
      split at resolves
      · next plain =>
          cases resolves
          exact Or.inl ⟨rfl, Or.inr (Or.inr ((Bool.not_eq_true' _).mp plain))⟩
      next supported =>
      split at resolves
      · cases resolves
      next fresh =>
      split at resolves
      · cases resolves
      next answer answered =>
      split at resolves
      · cases resolves
      split at resolves
      · cases resolves
      next away =>
      split at resolves
      · cases resolves
      next configured =>
      split at resolves
      · cases resolves
      refine Or.inr ⟨later, answer, rfl, ?_, ?_, answered, ⟨?_, ?_⟩, resolves⟩
      · rintro (empty | absent | plain)
        · exact filled empty
        · exact loaded ((Bool.not_eq_true' _).mpr absent)
        · exact supported ((Bool.not_eq_true' _).mpr plain)
      · rw [List.contains_iff_mem] at fresh
        exact fresh
      · rw [beq_iff_eq] at away
        exact away
      · intro some
        rw [Bool.and_eq_true, not_and, Bool.not_eq_true', Bool.not_eq_true', Bool.not_eq_false, List.contains_iff_mem,
          List.isEmpty_eq_false_iff] at configured
        exact configured some

theorem resolveRequestRecursive_journey
    (resolves : resolveRequestRecursive proxies remaining request visitedSystems = .ok resolved) :
    ∃ hops, Journey proxies request hops resolved ∧ hops.length ≤ remaining ∧ (∀ hop ∈ hops, Allowed proxies hop) ∧
      (∀ hop ∈ hops, ¬Settled proxies hop.system ∧ hop.system ∉ visitedSystems) ∧ (hops.map Hop.system).Nodup ∧
      Settled proxies resolved.system := by
  induction remaining generalizing request visitedSystems with
  | zero =>
      rcases resolveRequestRecursive_cases resolves with ⟨rfl, there⟩ | ⟨later, answer, none, -⟩
      · exact ⟨[], Journey.settled there, Nat.le_refl _, by simp, by simp, List.nodup_nil, there⟩
      · cases none
  | succ remaining ih =>
      rcases resolveRequestRecursive_cases resolves with ⟨rfl, there⟩ | ⟨later, answer, same, proxy, fresh, answered, allowed, rest⟩
      · exact ⟨[], Journey.settled there, Nat.zero_le _, by simp, by simp, List.nodup_nil, there⟩
      · obtain rfl : remaining = later := Nat.succ.inj same
        obtain ⟨hops, journey, short, each, apart, nodup, settled⟩ := ih rest
        refine ⟨hopOf proxies (named proxies request) answer :: hops, Journey.passed proxy answered journey, ?_, ?_, ?_, ?_,
          settled⟩
        · rw [List.length_cons]
          omega
        · intro hop member
          rcases List.mem_cons.mp member with rfl | later
          · exact allowed
          · exact each hop later
        · intro hop member
          rcases List.mem_cons.mp member with rfl | later
          · exact ⟨proxy, fresh⟩
          · obtain ⟨unsettled, unvisited⟩ := apart hop later
            exact ⟨unsettled, fun visited => unvisited (List.mem_append_left _ visited)⟩
        · rw [List.map_cons, List.nodup_cons]
          refine ⟨fun again => ?_, nodup⟩
          obtain ⟨hop, member, same⟩ := List.mem_map.mp again
          exact (apart hop member).2 (List.mem_append_right _ (List.mem_singleton.mpr same))

theorem resolveRequestRecursive_named (there : Settled proxies (named proxies request).system) (remaining : Nat)
    (visitedSystems : List String) :
    resolveRequestRecursive proxies (remaining + 1) request visitedSystems = .ok (named proxies request) := by
  simp only [resolveRequestRecursive]
  rcases there with empty | absent | plain
  · rw [if_pos]
    · rfl
    · exact empty
  · split
    · rfl
    · rw [if_pos]
      · rfl
      · exact (Bool.not_eq_true' _).mpr absent
  · split
    · rfl
    · split
      · rfl
      · rw [if_pos]
        · rfl
        · exact (Bool.not_eq_true' _).mpr plain

/-- What names are resolved to, they are resolved to again. -/
def Idempotent (proxies : Proxies) : Prop :=
  ∀ name, proxies.resolvePluginName (proxies.resolvePluginName name) = proxies.resolvePluginName name

theorem Journey.resolved_named {hops : List Hop} (journey : Journey proxies request hops resolved) :
    ∃ name, resolved.system = proxies.resolvePluginName name := by
  induction journey with
  | settled there => exact ⟨_, rfl⟩
  | passed proxy answered journey ih => exact ih

theorem append_ne_empty {front back : String} (filled : front ≠ "") : front ++ back ≠ "" := by
  intro empty
  exact filled (String.append_eq_empty_iff.mp empty).1

theorem resolveRequestRecursive_message {message : String}
    (fails : resolveRequestRecursive proxies remaining request visitedSystems = .error message) : message ≠ "" := by
  induction remaining generalizing request visitedSystems with
  | zero =>
      simp only [resolveRequestRecursive] at fails
      split at fails
      · cases fails
      · cases fails
        exact append_ne_empty (append_ne_empty (by decide))
  | succ remaining ih =>
      simp only [resolveRequestRecursive] at fails
      split at fails
      · cases fails
      split at fails
      · cases fails
      split at fails
      · cases fails
      split at fails
      · cases fails
        decide
      split at fails
      · cases fails
        exact append_ne_empty (append_ne_empty (by decide))
      split at fails
      · cases fails
        exact append_ne_empty (append_ne_empty (by decide))
      split at fails
      · cases fails
        exact append_ne_empty (append_ne_empty (by decide))
      split at fails
      · cases fails
        exact append_ne_empty (append_ne_empty (append_ne_empty (append_ne_empty (by decide))))
      split at fails
      · cases fails
        exact append_ne_empty (append_ne_empty (by decide))
      · exact ih fails

theorem resolveRequest_message {message : String} (fails : resolveRequest proxies request = .error message) :
    message ≠ "" := by
  rw [resolveRequest] at fails
  split at fails
  · cases fails
  · exact resolveRequestRecursive_message fails

/-- All requests are resolved, or there is a message and none of them. -/
theorem resolveRequests_all {requests : List Request} :
    (∀ expanded, resolveRequests proxies requests = .ok expanded →
        List.Forall₂ (fun request resolved => resolveRequest proxies request = .ok resolved) requests expanded) ∧
      ∀ message, resolveRequests proxies requests = .error message → message ≠ "" := by
  induction requests with
  | nil =>
      refine ⟨fun expanded resolves => ?_, fun message fails => by cases fails⟩
      cases resolves
      exact List.Forall₂.nil
  | cons request requests ih =>
      obtain ⟨each, fails⟩ := ih
      constructor
      · intro expanded resolves
        simp only [resolveRequests] at resolves
        split at resolves
        · cases resolves
        next resolved first =>
        split at resolves
        · cases resolves
        next others rest =>
        cases resolves
        exact List.Forall₂.cons first (each others rest)
      · intro message failed
        simp only [resolveRequests] at failed
        split at failed
        · next first =>
            cases failed
            exact resolveRequest_message first
        · split at failed
          · next rest =>
              cases failed
              exact fails message rest
          · cases failed

/-- A resolved request keeps its action and is resolved to itself.  With the expansion of
proxies it has come, in at most four hops and by different systems, to one that is no
proxy. -/
theorem proxy_resolution_sound (proxies : Proxies) (request : Request) (requests : List Request) :
    (∀ resolved, resolveRequest proxies request = .ok resolved →
        resolved.action = request.action ∧
          (Idempotent proxies → resolveRequest proxies resolved = .ok resolved) ∧
          (proxies.enableProxyExpansion = false ∨ request.system = "" → resolved = request) ∧
          (proxies.enableProxyExpansion = true → request.system ≠ "" → Settled proxies resolved.system ∧
            ∃ hops, Journey proxies request hops resolved ∧ hops.length ≤ maxProxyResolutionDepth ∧
              (∀ hop ∈ hops, Allowed proxies hop) ∧ (hops.map Hop.system ++ [resolved.system]).Nodup)) ∧
      (∀ message, resolveRequest proxies request = .error message → message ≠ "") ∧
      (∀ expanded, resolveRequests proxies requests = .ok expanded →
        List.Forall₂ (fun request resolved => resolveRequest proxies request = .ok resolved) requests expanded) ∧
      ∀ message, resolveRequests proxies requests = .error message → message ≠ "" := by
  refine ⟨fun resolved resolves => ⟨resolveRequest_action resolves, ?_⟩, fun message => resolveRequest_message,
    resolveRequests_all⟩
  rw [resolveRequest] at resolves
  by_cases direct : (!proxies.enableProxyExpansion || request.system.isEmpty) = true
  · rw [if_pos direct] at resolves
    cases resolves
    refine ⟨fun _ => by rw [resolveRequest, if_pos direct], fun _ => rfl, fun enabled filled => ?_⟩
    rw [enabled, Bool.not_true, Bool.false_or, String.isEmpty_iff] at direct
    exact absurd direct filled
  · rw [if_neg direct] at resolves
    obtain ⟨hops, journey, short, each, apart, nodup, settled⟩ := resolveRequestRecursive_journey resolves
    refine ⟨fun idempotent => ?_, fun unexpanded => ?_, fun _ _ => ⟨settled, hops, journey, short, each, ?_⟩⟩
    · obtain ⟨name, same⟩ := journey.resolved_named
      have unchanged : named proxies resolved = resolved := by
        rw [named, same, idempotent, ← same]
      rw [resolveRequest]
      split
      · rfl
      · have again := @resolveRequestRecursive_named proxies resolved (by rw [unchanged]; exact settled) 3 []
        rw [unchanged] at again
        exact again
    · exfalso
      apply direct
      rcases unexpanded with disabled | empty
      · rw [disabled]
        rfl
      · rw [empty, Bool.or_eq_true]
        exact Or.inr rfl
    · rw [List.nodup_append]
      refine ⟨nodup, List.nodup_singleton _, fun system listed final member => ?_⟩
      rintro rfl
      obtain ⟨hop, listed, same⟩ := List.mem_map.mp listed
      rw [List.mem_singleton.mp member] at same
      exact (apart hop listed).1 (same ▸ settled)

/-! ### A proxy that is left alone -/

/-- A proxy, to be used with and without the expansion. -/
def mirrorProxies (enabled : Bool) : Proxies where
  enableProxyExpansion := enabled
  resolvePluginName name := name
  loadPlugin _ := true
  supportsProxyResolution system := system == "mirror"
  resolveProxyRequest _ _ := some { targetSystem := "apt" }
  targets _ := ["apt"]

def mirrorRequest : Request := { action := .install, system := "mirror", packages := ["curl"] }

end Soundness

/-- Without the expansion the request stays with the proxy. -/
theorem unexpanded_stays_with_proxy :
    ¬∀ resolved, resolveRequest (mirrorProxies false) mirrorRequest = .ok resolved →
      Settled (mirrorProxies false) resolved.system := by
  intro sound
  rcases sound mirrorRequest rfl with empty | absent | plain
  · exact absurd empty (by decide)
  · cases absent
  · exact absurd plain (by decide)

/-- With it the request goes to the proxy's target. -/
example : resolveRequest (mirrorProxies true) mirrorRequest = .ok { mirrorRequest with system := "apt" } := by
  decide +kernel

end ReqPack.Planner
