import ReqPack.Data.Backtracking
import ReqPack.Data.KeyValue
import ReqPack.Data.Text
import ReqPack.Rqp.Metadata

/-! # Which hosts a package is for

`rq_package`: an alias names a family of systems.  A package fits a host when one of its
systems and one of the host's expand to a common token; families are followed both ways.
-/

namespace ReqPack.Rqp

open ReqPack.Data
open scoped ReqPack.Data.Octets

abbrev SystemAliases := KeyValue Bytes (List Bytes)

section Expansion

/-- The alias is configured with the member. -/
def Lists (aliases : SystemAliases) (family member : Bytes) : Prop :=
  ∃ members, aliases.get family = some members ∧ member ∈ members

def knownTokens (aliases : SystemAliases) : List Bytes :=
  aliases.entries.flatMap fun entry => entry.1 :: entry.2

theorem lists_iff {aliases : SystemAliases} {family member : Bytes} :
    Lists aliases family member ↔ ∃ entry ∈ aliases.entries, entry.1 = family ∧ member ∈ entry.2 := by
  apply Iff.intro
  · rintro ⟨members, configured, listed⟩
    exact ⟨(family, members), KeyValue.get_eq_some.1 configured, rfl, listed⟩
  · rintro ⟨entry, member, rfl, listed⟩
    exact ⟨entry.2, KeyValue.get_eq_some.2 member, listed⟩

theorem Lists.known {aliases : SystemAliases} {family member : Bytes} (lists : Lists aliases family member) :
    family ∈ knownTokens aliases ∧ member ∈ knownTokens aliases := by
  obtain ⟨entry, listed, rfl, inside⟩ := lists_iff.1 lists
  exact ⟨List.mem_flatMap.mpr ⟨entry, listed, by simp⟩, List.mem_flatMap.mpr ⟨entry, listed, by simp [inside]⟩⟩

/-- The members configured under a name. -/
def membersOf (aliases : SystemAliases) (family : Bytes) : List Bytes := (aliases.get family).getD []

theorem mem_membersOf {aliases : SystemAliases} {family member : Bytes} :
    member ∈ membersOf aliases family ↔ Lists aliases family member := by
  cases configured : aliases.get family with
  | none => simp [membersOf, Lists, configured]
  | some members => simp [membersOf, Lists, configured]

/-- `expand_system_token`; a set of the source is the list of what is in it. -/
def expandSystemToken (aliases : SystemAliases) (visiting : List Bytes) (token : Bytes) : List Bytes :=
  if token.isEmpty then []
  else if token ∈ visiting then [token]
  else
    token ::
      ((membersOf aliases token).attach.flatMap fun member =>
          expandSystemToken aliases (token :: visiting) member.1) ++
        aliases.entries.attach.flatMap fun entry =>
          if token ∈ entry.1.2 then entry.1.1 :: expandSystemToken aliases (token :: visiting) entry.1.1 else []
termination_by (unmarked (knownTokens aliases) visiting).length
decreasing_by
  · have lists : Lists aliases token member.1 := mem_membersOf.1 member.2
    exact length_unmarked_cons lists.known.1 ‹_›
  · have lists : Lists aliases entry.1.1 token := lists_iff.2 ⟨entry.1, entry.2, rfl, ‹_›⟩
    exact length_unmarked_cons lists.known.2 ‹_›

end Expansion

/-! ## What a token expands to -/

section Connected

variable {aliases : SystemAliases} {token found : Bytes} {visiting : List Bytes}

/-- The tokens, each alias next to its members; the empty text is no token. -/
def aliasGraph (aliases : SystemAliases) : SimpleGraph Bytes :=
  SimpleGraph.fromRel fun family member => family ≠ [] ∧ member ≠ [] ∧ Lists aliases family member

/-- What one step of the expansion from a token adds. -/
def Adds (aliases : SystemAliases) (token found : Bytes) : Prop :=
  found ≠ [] ∧ Lists aliases token found ∨ Lists aliases found token

theorem aliasGraph_adj {other : Bytes} :
    (aliasGraph aliases).Adj token other ↔ token ≠ other ∧ token ≠ [] ∧ other ≠ [] ∧ Adds aliases token other := by
  rw [aliasGraph, SimpleGraph.fromRel_adj, Adds]
  tauto

theorem mem_expand_of_fresh (present : token ≠ []) (fresh : token ∉ visiting) :
    found ∈ expandSystemToken aliases visiting token ↔
      found = token ∨
      (∃ member, Lists aliases token member ∧ found ∈ expandSystemToken aliases (token :: visiting) member) ∨
      ∃ family, Lists aliases family token ∧
        (found = family ∨ found ∈ expandSystemToken aliases (token :: visiting) family) := by
  rw [expandSystemToken, if_neg (by simpa using present), if_neg fresh]
  simp only [List.cons_append, List.mem_cons, List.mem_append, List.mem_flatMap, List.mem_attach, true_and,
    Subtype.exists, List.mem_ite_nil_right, exists_prop, mem_membersOf]
  have families : (∃ entry ∈ aliases.entries, token ∈ entry.2 ∧
        (found = entry.1 ∨ found ∈ expandSystemToken aliases (token :: visiting) entry.1)) ↔
      ∃ family, Lists aliases family token ∧
        (found = family ∨ found ∈ expandSystemToken aliases (token :: visiting) family) := by
    apply Iff.intro
    · rintro ⟨entry, listed, inside, found⟩
      exact ⟨entry.1, lists_iff.2 ⟨entry, listed, rfl, inside⟩, found⟩
    · rintro ⟨family, lists, found⟩
      obtain ⟨entry, listed, rfl, inside⟩ := lists_iff.1 lists
      exact ⟨entry, listed, inside, found⟩
  rw [families]

/-- Something the search adds behind the marked tokens. -/
def Ahead (aliases : SystemAliases) (visiting : List Bytes) (token found : Bytes) : Prop :=
  ∃ last, Visits (aliasGraph aliases) visiting token last ∧ Adds aliases last found

theorem ahead_iff (present : token ≠ []) (fresh : token ∉ visiting) :
    Ahead aliases visiting token found ↔
      ∃ next, Adds aliases token next ∧ (found = next ∨ next ≠ [] ∧ Ahead aliases (token :: visiting) next found) := by
  apply Iff.intro
  · rintro ⟨last, visits, adds⟩
    cases visits with
    | here => exact ⟨found, adds, Or.inl rfl⟩
    | along _ edge further =>
        obtain ⟨_, _, named, step⟩ := aliasGraph_adj.1 edge
        exact ⟨_, step, Or.inr ⟨named, last, further, adds⟩⟩
  · rintro ⟨next, step, same | ⟨named, last, further, adds⟩⟩
    · exact ⟨token, Visits.here fresh, same ▸ step⟩
    · have other : token ≠ next := by
        intro same
        exact further.fresh (same ▸ List.mem_cons_self)
      exact ⟨last, Visits.along fresh (aliasGraph_adj.2 ⟨other, present, named, step⟩) further, adds⟩

/-- A token expands to itself and to what the tokens add that the search enters. -/
theorem mem_expandSystemToken :
    found ∈ expandSystemToken aliases visiting token ↔
      token ≠ [] ∧ (found = token ∨ Ahead aliases visiting token found) := by
  induction visiting, token using expandSystemToken.induct aliases generalizing found with
  | case1 visiting token empty =>
      rw [List.isEmpty_iff] at empty
      simp [expandSystemToken, empty]
  | case2 visiting token present visited =>
      have nothing : ¬ Ahead aliases visiting token found := by
        rintro ⟨last, visits, _⟩
        exact visits.fresh visited
      simp only [nothing, or_false]
      rw [expandSystemToken, if_neg present, if_pos visited, List.mem_singleton]
      simp_all
  | case3 visiting token present fresh members families =>
      rw [List.isEmpty_iff] at present
      rw [mem_expand_of_fresh present fresh, ahead_iff present fresh]
      apply Iff.intro
      · rintro (same | ⟨member, lists, inside⟩ | ⟨family, lists, same | inside⟩)
        · exact ⟨present, Or.inl same⟩
        · rw [members ⟨member, mem_membersOf.2 lists⟩] at inside
          exact ⟨present, Or.inr ⟨member, Or.inl ⟨inside.1, lists⟩, inside.2.imp_right fun ahead => ⟨inside.1, ahead⟩⟩⟩
        · exact ⟨present, Or.inr ⟨family, Or.inr lists, Or.inl same⟩⟩
        · obtain ⟨entry, listed, rfl, within⟩ := lists_iff.1 lists
          rw [families ⟨entry, listed⟩ within] at inside
          exact ⟨present, Or.inr ⟨entry.1, Or.inr lists, inside.2.imp_right fun ahead => ⟨inside.1, ahead⟩⟩⟩
      · rintro ⟨_, same | ⟨next, ⟨named, lists⟩ | lists, further⟩⟩
        · exact Or.inl same
        · refine Or.inr (Or.inl ⟨next, lists, ?_⟩)
          rw [members ⟨next, mem_membersOf.2 lists⟩]
          exact ⟨named, further.imp_right And.right⟩
        · refine Or.inr (Or.inr ⟨next, lists, ?_⟩)
          obtain ⟨entry, listed, rfl, within⟩ := lists_iff.1 lists
          rw [families ⟨entry, listed⟩ within]
          rcases further with same | ⟨named, ahead⟩
          · exact Or.inl same
          · exact Or.inr ⟨named, Or.inr ahead⟩

/-- Two tokens that aliases lead from one to the other. -/
def Connected (aliases : SystemAliases) (token other : Bytes) : Prop :=
  token ≠ [] ∧ (aliasGraph aliases).Reachable token other

/-- The alias without a name lists a token that the token is connected to. -/
def UnderUnnamed (aliases : SystemAliases) (token : Bytes) : Prop :=
  ∃ member, Connected aliases token member ∧ Lists aliases [] member

theorem Connected.refl (present : token ≠ []) : Connected aliases token token :=
  ⟨present, SimpleGraph.Reachable.refl _⟩

theorem Connected.present (connected : Connected aliases token found) : found ≠ [] := by
  obtain ⟨present, ⟨path⟩⟩ := connected
  induction path with
  | nil => exact present
  | cons edge _ ih => exact ih (aliasGraph_adj.1 edge).2.2.1

theorem Connected.symm (connected : Connected aliases token found) : Connected aliases found token :=
  ⟨connected.present, connected.2.symm⟩

theorem Connected.trans {other : Bytes} (first : Connected aliases token other)
    (second : Connected aliases other found) : Connected aliases token found :=
  ⟨first.1, first.2.trans second.2⟩

theorem Connected.adds {last : Bytes} (connected : Connected aliases token last) (named : found ≠ [])
    (adds : Adds aliases last found) : Connected aliases token found := by
  by_cases same : last = found
  · rw [← same]
    exact connected
  · have edge : (aliasGraph aliases).Adj last found := aliasGraph_adj.2 ⟨same, connected.present, named, adds⟩
    exact ⟨connected.1, connected.2.trans edge.reachable⟩

/-- A connected token is the token itself or is added by a connected one. -/
theorem Connected.last (connected : Connected aliases token found) :
    found = token ∨ ∃ last, Connected aliases token last ∧ Adds aliases last found := by
  obtain ⟨_, ⟨path⟩⟩ := connected.symm
  cases path with
  | nil => exact Or.inl rfl
  | cons edge path =>
      obtain ⟨_, _, _, adds⟩ := aliasGraph_adj.1 edge.symm
      exact Or.inr ⟨_, ⟨connected.1, path.reachable.symm⟩, adds⟩

theorem ahead_nil_iff (present : token ≠ []) :
    Ahead aliases [] token found ↔ ∃ last, Connected aliases token last ∧ Adds aliases last found := by
  simp only [Ahead, visits_nil_iff, Connected, present, ne_eq, not_false_eq_true, true_and]

/-- A token expands to the tokens it is connected to, and to the empty text if the alias
without a name is one of their families. -/
theorem mem_expandSystemToken_iff :
    found ∈ expandSystemToken aliases [] token ↔
      Connected aliases token found ∨ found = [] ∧ UnderUnnamed aliases token := by
  rw [mem_expandSystemToken]
  apply Iff.intro
  · rintro ⟨present, same | ahead⟩
    · rw [same]
      exact Or.inl (Connected.refl present)
    · obtain ⟨last, connected, adds⟩ := (ahead_nil_iff present).1 ahead
      by_cases named : found = []
      · rcases adds with ⟨other, _⟩ | lists
        · exact absurd named other
        · exact Or.inr ⟨named, last, connected, named ▸ lists⟩
      · exact Or.inl (connected.adds named adds)
  · rintro (connected | ⟨rfl, last, connected, lists⟩)
    · refine ⟨connected.1, connected.last.imp_right fun ahead => ?_⟩
      exact (ahead_nil_iff connected.1).2 ahead
    · exact ⟨connected.1, Or.inr ((ahead_nil_iff connected.1).2 ⟨last, connected, Or.inr lists⟩)⟩

end Connected

/-! ## Packages and hosts -/

section Hosts

variable {aliases : SystemAliases}

/-- `rq_system_matches`; the system `nosys` fits every host. -/
def rqSystemMatches (packageSystems hostSystems : List Bytes) (aliases : SystemAliases) : Bool :=
  (rqNormalizeSystems packageSystems).any fun packageSystem =>
    packageSystem = bytes "nosys" ||
      hostSystems.any fun hostSystem =>
        (expandSystemToken aliases [] packageSystem).contains hostSystem ||
          (expandSystemToken aliases [] packageSystem).any (expandSystemToken aliases [] hostSystem).contains

/-- The two tokens expand to a common one. -/
def SharesToken (aliases : SystemAliases) (packageSystem hostSystem : Bytes) : Prop :=
  Connected aliases packageSystem hostSystem ∨
    UnderUnnamed aliases packageSystem ∧ (hostSystem = [] ∨ UnderUnnamed aliases hostSystem)

theorem sharesToken_iff {packageSystem hostSystem : Bytes} :
    (hostSystem ∈ expandSystemToken aliases [] packageSystem ∨
      ∃ token ∈ expandSystemToken aliases [] packageSystem, token ∈ expandSystemToken aliases [] hostSystem) ↔
      SharesToken aliases packageSystem hostSystem := by
  simp only [mem_expandSystemToken_iff, SharesToken]
  apply Iff.intro
  · rintro ((connected | ⟨unnamed, under⟩) | ⟨token, left | ⟨empty, under⟩, right | ⟨_, other⟩⟩)
    · exact Or.inl connected
    · exact Or.inr ⟨under, Or.inl unnamed⟩
    · exact Or.inl (left.trans right.symm)
    · exact absurd ‹token = []› left.present
    · exact absurd empty right.present
    · exact Or.inr ⟨under, Or.inr other⟩
  · rintro (connected | ⟨under, unnamed | other⟩)
    · exact Or.inl (Or.inl connected)
    · exact Or.inl (Or.inr ⟨unnamed, under⟩)
    · exact Or.inr ⟨[], Or.inr ⟨rfl, under⟩, Or.inr ⟨rfl, other⟩⟩

theorem rqSystemMatches_iff {packageSystems hostSystems : List Bytes} :
    rqSystemMatches packageSystems hostSystems aliases = true ↔
      bytes "nosys" ∈ rqNormalizeSystems packageSystems ∨
        ∃ packageSystem ∈ rqNormalizeSystems packageSystems, ∃ hostSystem ∈ hostSystems,
          SharesToken aliases packageSystem hostSystem := by
  simp only [rqSystemMatches, List.any_eq_true, Bool.or_eq_true, decide_eq_true_eq, List.contains_iff_mem,
    sharesToken_iff, and_or_left, exists_or, exists_eq_right]

theorem Connected.mono {larger : SystemAliases} {token found : Bytes}
    (kept : ∀ family member, Lists aliases family member → Lists larger family member)
    (connected : Connected aliases token found) : Connected larger token found := by
  refine ⟨connected.1, connected.2.mono ?_⟩
  intro first second edge
  obtain ⟨other, named, present, adds⟩ := aliasGraph_adj.1 edge
  refine aliasGraph_adj.2 ⟨other, named, present, ?_⟩
  exact adds.imp (fun added => ⟨added.1, kept _ _ added.2⟩) (kept _ _)

theorem UnderUnnamed.mono {larger : SystemAliases} {token : Bytes}
    (kept : ∀ family member, Lists aliases family member → Lists larger family member)
    (under : UnderUnnamed aliases token) : UnderUnnamed larger token := by
  obtain ⟨member, connected, lists⟩ := under
  exact ⟨member, connected.mono kept, kept _ _ lists⟩

theorem SharesToken.mono {larger : SystemAliases} {packageSystem hostSystem : Bytes}
    (kept : ∀ family member, Lists aliases family member → Lists larger family member)
    (shares : SharesToken aliases packageSystem hostSystem) : SharesToken larger packageSystem hostSystem := by
  rcases shares with connected | ⟨under, unnamed | other⟩
  · exact Or.inl (connected.mono kept)
  · exact Or.inr ⟨under.mono kept, Or.inl unnamed⟩
  · exact Or.inr ⟨under.mono kept, Or.inr (other.mono kept)⟩

/-- The tokens a token expands to are those the aliases connect it to.  Unless an alias
has no name, nothing else is found, and a package fits a host when a system of the one is
connected to a token of the other.  More aliases never make a package unfit. -/
theorem systems_match_along_aliases (aliases : SystemAliases) :
    (∀ token found, found ≠ [] →
      (found ∈ expandSystemToken aliases [] token ↔ Connected aliases token found)) ∧
    ((∀ member, ¬ Lists aliases [] member) →
      (∀ token found, found ∈ expandSystemToken aliases [] token ↔ Connected aliases token found) ∧
      ∀ packageSystems hostSystems, rqSystemMatches packageSystems hostSystems aliases = true ↔
        bytes "nosys" ∈ rqNormalizeSystems packageSystems ∨
          ∃ packageSystem ∈ rqNormalizeSystems packageSystems, ∃ hostSystem ∈ hostSystems,
            Connected aliases packageSystem hostSystem) ∧
    (∀ larger, (∀ family member, Lists aliases family member → Lists larger family member) →
      ∀ packageSystems hostSystems, rqSystemMatches packageSystems hostSystems aliases = true →
        rqSystemMatches packageSystems hostSystems larger = true) := by
  refine ⟨?_, ?_, ?_⟩
  · intro token found named
    rw [mem_expandSystemToken_iff]
    exact or_iff_left fun unnamed => named unnamed.1
  · intro noUnnamed
    have named : ∀ token, ¬ UnderUnnamed aliases token := by
      rintro token ⟨member, _, lists⟩
      exact noUnnamed member lists
    refine ⟨?_, ?_⟩
    · intro token found
      rw [mem_expandSystemToken_iff]
      exact or_iff_left fun unnamed => named token unnamed.2
    · intro packageSystems hostSystems
      rw [rqSystemMatches_iff]
      simp only [SharesToken, named, false_and, or_false]
  · intro larger kept packageSystems hostSystems fits
    rw [rqSystemMatches_iff] at fits ⊢
    apply fits.imp_right
    rintro ⟨packageSystem, wanted, hostSystem, offered, shares⟩
    exact ⟨packageSystem, wanted, hostSystem, offered, shares.mono kept⟩

/-- A family without a name puts the empty text among what its members expand to. -/
theorem unnamed_family_is_found :
    ¬ ∀ (aliases : SystemAliases) (token found : Bytes), token ≠ [] →
      (found ∈ expandSystemToken aliases [] token ↔
        found ≠ [] ∧ (SimpleGraph.fromRel (Lists aliases)).Reachable token found) := by
  intro all
  have lists : Lists (KeyValue.empty.put [] [bytes "apt"]) [] (bytes "apt") :=
    ⟨[bytes "apt"], by simp [KeyValue.get_put], by simp⟩
  have present : bytes "apt" ≠ [] := by decide
  have inside := (all (KeyValue.empty.put [] [bytes "apt"]) (bytes "apt") [] present).1
    (mem_expandSystemToken_iff.2 (Or.inr ⟨rfl, _, Connected.refl present, lists⟩))
  exact inside.1 rfl

end Hosts

/-! ## The aliases of a configuration -/

section Merged

/-- `rq_builtin_system_aliases`. -/
def rqBuiltinSystemAliases : List (Bytes × List Bytes) :=
  [(bytes "darwin-family", [bytes "darwin", bytes "macos"]),
    (bytes "debian-family",
      [bytes "debian", bytes "ubuntu", bytes "linuxmint", bytes "pop", bytes "dpkg", bytes "apt"]),
    (bytes "rhel-family",
      [bytes "almalinux", bytes "centos", bytes "fedora", bytes "rhel", bytes "rocky", bytes "rpm", bytes "dnf",
        bytes "yum"]),
    (bytes "nix-family", [bytes "nix", bytes "linux", bytes "fedora", bytes "debian", bytes "ubuntu"])]

/-- The members join those the name already has. -/
def mergeSystemAlias (aliases : SystemAliases) (entry : Bytes × List Bytes) : SystemAliases :=
  aliases.put entry.1 (normalizeStringValues (membersOf aliases entry.1 ++ entry.2))

/-- `rq_merged_system_aliases`. -/
def rqMergedSystemAliases (configured : SystemAliases) : SystemAliases :=
  configured.entries.foldl mergeSystemAlias
    (rqBuiltinSystemAliases.foldl (fun aliases entry => aliases.put entry.1 entry.2) KeyValue.empty)

theorem get_foldl_put_of_ne {entries : List (Bytes × List Bytes)} {family : Bytes}
    {value : SystemAliases → Bytes × List Bytes → List Bytes} (other : ∀ entry ∈ entries, entry.1 ≠ family)
    (aliases : SystemAliases) :
    (entries.foldl (fun aliases entry => aliases.put entry.1 (value aliases entry)) aliases).get family =
      aliases.get family := by
  induction entries generalizing aliases with
  | nil => rfl
  | cons entry entries ih =>
      have different : family ≠ entry.1 := (other entry (by simp)).symm
      rw [List.foldl_cons, ih (fun entry member => other entry (List.mem_cons_of_mem _ member)), KeyValue.get_put]
      simp [different]

/-- Only the configuration can bring in a family without a name. -/
theorem unnamed_merged {configured : SystemAliases} (named : configured.get [] = none) (member : Bytes) :
    ¬ Lists (rqMergedSystemAliases configured) [] member := by
  have listed : ∀ entry ∈ configured.entries, entry.1 ≠ [] := by
    intro entry inside empty
    have found : configured.get entry.1 = some entry.2 := KeyValue.get_eq_some.2 inside
    rw [empty, named] at found
    cases found
  have builtIn : ∀ entry ∈ rqBuiltinSystemAliases, entry.1 ≠ [] := by
    simp [rqBuiltinSystemAliases, bytes]
  rintro ⟨members, found, _⟩
  rw [rqMergedSystemAliases] at found
  unfold mergeSystemAlias at found
  rw [get_foldl_put_of_ne listed, get_foldl_put_of_ne builtIn] at found
  cases found

/-- A host check of a configuration whose aliases all have names. -/
theorem merged_systems_match {configured : SystemAliases} (named : configured.get [] = none)
    (packageSystems hostSystems : List Bytes) :
    rqSystemMatches packageSystems hostSystems (rqMergedSystemAliases configured) = true ↔
      bytes "nosys" ∈ rqNormalizeSystems packageSystems ∨
        ∃ packageSystem ∈ rqNormalizeSystems packageSystems, ∃ hostSystem ∈ hostSystems,
          Connected (rqMergedSystemAliases configured) packageSystem hostSystem := by
  have alone : ∀ token, ¬ UnderUnnamed (rqMergedSystemAliases configured) token := by
    rintro token ⟨member, _, lists⟩
    exact unnamed_merged named member lists
  rw [rqSystemMatches_iff]
  simp only [SharesToken, alone, false_and, or_false]

end Merged

end ReqPack.Rqp
