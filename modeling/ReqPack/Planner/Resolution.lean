import ReqPack.Planner.Bundle

/-! # Resolving proxies

`RequestResolutionService`: a request to a proxy plugin is passed on to the system
the proxy names, at most four times and never twice through the same proxy.
-/

namespace ReqPack.Planner

open ReqPack.Data ReqPack.Core

/-- What a proxy answers; fields it leaves out are kept from the request. -/
structure ProxyResolution where
  targetSystem : String
  packages : Option (List String) := none
  localPath : Option String := none
  flags : Option (List String) := none
deriving Repr, DecidableEq

/-- The registry and the configuration as the resolution sees them. -/
structure Proxies where
  enableProxyExpansion : Bool
  resolvePluginName : String → String
  loadPlugin : String → Bool
  /-- the plugin is there and is a proxy -/
  supportsProxyResolution : String → Bool
  resolveProxyRequest : String → Request → Option ProxyResolution
  /-- the targets configured for a proxy, if there are any -/
  targets : String → List String

def maxProxyResolutionDepth : Nat := 4

/-- The request behind a proxy. -/
def passedOn (current : Request) (resolvedTarget : String) (resolution : ProxyResolution) : Request :=
  let next := { current with
    system := resolvedTarget
    flags := resolution.flags.getD current.flags }
  match resolution.localPath, resolution.packages with
  | some localPath, _ => { next with localPath := localPath, usesLocalTarget := true, packages := [] }
  | none, some packages => { next with packages := packages, localPath := "", usesLocalTarget := false }
  | none, none => next

section Resolve

variable (proxies : Proxies)

/-- `resolveRequestRecursive`; the number counts how deep it may still go. -/
def resolveRequestRecursive : Nat → Request → List String → Except String Request
  | remaining, request, visitedSystems =>
      let current := { request with system := proxies.resolvePluginName request.system }
      if current.system.isEmpty then .ok current
      else
        match remaining with
        | 0 => .error ("proxy resolution depth exceeded for '" ++ current.system ++ "'")
        | remaining + 1 =>
            if !proxies.loadPlugin current.system then .ok current
            else if !proxies.supportsProxyResolution current.system then .ok current
            else if visitedSystems.contains current.system then .error "proxy resolution cycle detected"
            else
              match proxies.resolveProxyRequest current.system current with
              | none => .error ("proxy '" ++ current.system ++ "' could not resolve request")
              | some resolution =>
                  let resolvedTarget := proxies.resolvePluginName (toLowerCopy resolution.targetSystem)
                  if resolvedTarget.isEmpty then
                    .error ("proxy '" ++ current.system ++ "' resolved to empty target")
                  else if resolvedTarget == current.system then
                    .error ("proxy '" ++ current.system ++ "' resolved to itself")
                  else if !(proxies.targets current.system).isEmpty &&
                      !(proxies.targets current.system).contains resolvedTarget then
                    .error ("proxy '" ++ current.system ++ "' resolved to unknown target '" ++
                      resolvedTarget ++ "'")
                  else if resolution.packages.isSome && resolution.localPath.isSome then
                    .error ("proxy '" ++ current.system ++ "' returned both packages and localPath")
                  else
                    resolveRequestRecursive remaining (passedOn current resolvedTarget resolution)
                      (visitedSystems ++ [current.system])

/-- `RequestResolutionService::resolveRequest`. -/
def resolveRequest (request : Request) : Except String Request :=
  if !proxies.enableProxyExpansion || request.system.isEmpty then .ok request
  else resolveRequestRecursive proxies maxProxyResolutionDepth request []

/-- `RequestResolutionService::resolveRequests`. -/
def resolveRequests : List Request → Except String (List Request)
  | [] => .ok []
  | request :: requests =>
      match resolveRequest proxies request with
      | .error message => .error message
      | .ok resolved =>
          match resolveRequests requests with
          | .error message => .error message
          | .ok others => .ok (resolved :: others)

end Resolve

section Actions

variable {proxies : Proxies} {request resolved : Request}

theorem passedOn_action (current : Request) (resolvedTarget : String) (resolution : ProxyResolution) :
    (passedOn current resolvedTarget resolution).action = current.action := by
  unfold passedOn
  split <;> rfl

/-- Proxies pass requests on, they do not change what is asked for. -/
theorem resolveRequestRecursive_action {remaining : Nat} {visitedSystems : List String}
    (resolves : resolveRequestRecursive proxies remaining request visitedSystems = .ok resolved) :
    resolved.action = request.action := by
  induction remaining generalizing request visitedSystems with
  | zero =>
      simp only [resolveRequestRecursive] at resolves
      split at resolves
      · cases resolves
        rfl
      · cases resolves
  | succ remaining ih =>
      simp only [resolveRequestRecursive] at resolves
      split at resolves
      · cases resolves
        rfl
      split at resolves
      · cases resolves
        rfl
      split at resolves
      · cases resolves
        rfl
      split at resolves
      · cases resolves
      split at resolves
      · cases resolves
      split at resolves
      · cases resolves
      split at resolves
      · cases resolves
      split at resolves
      · cases resolves
      split at resolves
      · cases resolves
      exact (ih resolves).trans (passedOn_action _ _ _)

theorem resolveRequest_action (resolves : resolveRequest proxies request = .ok resolved) :
    resolved.action = request.action := by
  unfold resolveRequest at resolves
  split at resolves
  · cases resolves
    rfl
  · exact resolveRequestRecursive_action resolves

theorem resolveRequests_action {action : ActionType} {requests expanded : List Request}
    (all : ∀ request ∈ requests, request.action = action)
    (resolves : resolveRequests proxies requests = .ok expanded) :
    ∀ request ∈ expanded, request.action = action := by
  induction requests generalizing expanded with
  | nil =>
      cases resolves
      simp
  | cons request requests ih =>
      simp only [resolveRequests] at resolves
      split at resolves
      · cases resolves
      · rename_i first firstResolves
        split at resolves
        · cases resolves
        · rename_i others othersResolve
          cases resolves
          intro other member
          rcases List.mem_cons.mp member with rfl | later
          · exact (resolveRequest_action firstResolves).trans (all request List.mem_cons_self)
          · exact ih (fun later member => all later (List.mem_cons_of_mem _ member)) othersResolve other later

end Actions

end ReqPack.Planner
