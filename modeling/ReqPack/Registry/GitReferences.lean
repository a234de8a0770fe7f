import ReqPack.Data.Lists
import ReqPack.Registry.Payload

/-! # References of git sources

A reference stands in the query of a source, behind its fragment mark, or behind an `@` in its
path.  A source is given another reference by writing a query behind its URL, so the URL has to
be found again there.
-/

namespace ReqPack.Registry

open ReqPack.Data ReqPack.Core

section Finding

variable {part letters rest : List Char}

theorem behindFirst_append_self (part other : List Char) : behindFirst part (part ++ other) = some other := by
  cases together : part ++ other with
  | nil =>
      obtain ⟨rfl, rfl⟩ := List.append_eq_nil_iff.1 together
      rfl
  | cons letter letters =>
      have begins : part.isPrefixOf (letter :: letters) = true := by
        rw [← together, List.isPrefixOf_iff_prefix]
        exact List.prefix_append part other
      rw [behindFirst, if_pos begins, ← together, List.drop_left]

/-- What stands in front decides where a part is found first. -/
theorem behindFirst_eq_some (found : behindFirst part letters = some rest) :
    ∃ front, letters = front ++ part ++ rest ∧ ∀ other, behindFirst part (front ++ part ++ other) = some other := by
  induction letters with
  | nil =>
      rw [behindFirst] at found
      split at found
      · rename_i empty
        cases found
        obtain rfl := List.isEmpty_iff.1 empty
        exact ⟨[], rfl, behindFirst_append_self []⟩
      · cases found
  | cons letter letters ih =>
      rw [behindFirst] at found
      split at found
      · rename_i begins
        obtain ⟨back, same⟩ := List.isPrefixOf_iff_prefix.1 begins
        rw [← same, List.drop_left, Option.some.injEq] at found
        subst found
        exact ⟨[], same.symm, behindFirst_append_self part⟩
      · rename_i elsewhere
        obtain ⟨front, same, others⟩ := ih found
        refine ⟨letter :: front, ?_, ?_⟩
        · rw [List.cons_append, List.cons_append, ← same]
        · intro other
          rw [List.cons_append, List.cons_append, behindFirst, if_neg, others]
          -- An earlier place would end within the first one.
          rw [List.isPrefixOf_iff_prefix] at elsewhere ⊢
          intro earlier
          apply elsewhere
          have within : part <+: letter :: (front ++ part) := by
            apply List.prefix_of_prefix_length_le earlier
            · exact ⟨other, rfl⟩
            · simp only [List.length_cons, List.length_append]
              omega
          rw [same]
          exact within.trans ⟨rest, rfl⟩

/-- The path of a URL, if it has a scheme. -/
def pathOf (letters : List Char) : List Char :=
  match behindFirst "://".toList letters with
  | none => []
  | some behindScheme => behindScheme.dropWhile (· != '/')

theorem dropWhile_authority {authority path : List Char} (unbroken : ∀ letter ∈ authority, (letter != '/') = true)
    (absolute : path.head? = some '/') : (authority ++ path).dropWhile (· != '/') = path := by
  rw [List.dropWhile_append_of_pos unbroken]
  cases path with
  | nil => cases absolute
  | cons letter path =>
      cases absolute
      exact List.dropWhile_cons_of_neg (by simp)

/-- Another path can stand behind the scheme and the authority. -/
theorem pathOf_split (present : pathOf letters ≠ []) :
    ∃ front, letters = front ++ pathOf letters ∧ (pathOf letters).head? = some '/' ∧
      ∀ other : List Char, other.head? = some '/' → pathOf (front ++ other) = other := by
  rw [pathOf] at present ⊢
  split at present
  · exact absurd rfl present
  · rename_i behindScheme found
    obtain ⟨front, same, others⟩ := behindFirst_eq_some found
    have cut := List.takeWhile_append_dropWhile (p := (· != '/')) (l := behindScheme)
    refine ⟨front ++ "://".toList ++ behindScheme.takeWhile (· != '/'), ?_, ?_, ?_⟩
    · rw [List.append_assoc, cut]
      exact same
    · cases rest : behindScheme.dropWhile (· != '/') with
      | nil => exact absurd rest present
      | cons letter path =>
          have stops := List.head?_dropWhile_not (· != '/') behindScheme
          simpa [rest] using stops
    · intro other absolute
      rw [pathOf, List.append_assoc, others]
      exact dropWhile_authority (fun letter member => List.mem_takeWhile_imp (p := (· != '/')) member) absolute

end Finding

section Urls

variable {source ref : String} {letters : List Char}

/-- A source without its git scheme. -/
def rawLetters (source : String) : List Char := (withoutGitScheme source).toList

/-- A source without its git scheme, query and fragment. -/
def strippedLetters (source : String) : List Char := (stripQueryFragment (withoutGitScheme source)).toList

/-- What stands before the last `@` of the path, if there is one. -/
def urlLetters (letters : List Char) : List Char :=
  if '@' ∈ pathOf letters then ((letters.reverse.dropWhile (· != '@')).drop 1).reverse else letters

theorem gitSourceUrl_toList (source : String) : (gitSourceUrl source).toList = urlLetters (strippedLetters source) := by
  delta gitSourceUrl urlLetters strippedLetters pathOf
  simp only
  cases behindFirst "://".toList (stripQueryFragment (withoutGitScheme source)).toList with
  | none =>
      simp only
      rw [if_neg List.not_mem_nil]
  | some behindScheme =>
      simp only
      split
      · exact String.toList_ofList
      · rfl

theorem cut_last (front : List Char) {back : List Char} (last : '@' ∉ back) :
    (((front ++ '@' :: back).reverse.dropWhile (· != '@')).drop 1).reverse = front := by
  have unbroken : '@' ∉ back.reverse := by
    rw [List.mem_reverse]
    exact last
  rw [List.reverse_append, List.reverse_cons, List.append_assoc, List.dropWhile_append_of_pos (all_ne unbroken)]
  simp

/-- A URL is cut inside its path or not at all. -/
theorem urlLetters_cases (letters : List Char) :
    ('@' ∉ pathOf letters ∧ urlLetters letters = letters) ∨
      ∃ front head tail, letters = front ++ head ++ '@' :: tail ∧ pathOf letters = head ++ '@' :: tail ∧ '@' ∉ tail ∧
        urlLetters letters = front ++ head ∧ pathOf (front ++ head) = head := by
  by_cases inside : '@' ∈ pathOf letters
  · obtain ⟨front, same, absolute, others⟩ := pathOf_split (List.ne_nil_of_mem inside)
    obtain ⟨head, tail, path, last⟩ := exists_last_of_mem inside
    rw [path] at same absolute
    refine Or.inr ⟨front, head, tail, ?_, path, last, ?_, ?_⟩
    · rw [same, List.append_assoc]
    · rw [urlLetters, if_pos inside, same, ← List.append_assoc, cut_last _ last]
    · apply others
      cases head with
      | nil => cases absolute
      | cons letter head => exact absolute
  · exact Or.inl ⟨inside, if_neg inside⟩

theorem urlLetters_eq_self_iff : urlLetters letters = letters ↔ '@' ∉ pathOf letters := by
  obtain ⟨outside, same⟩ | ⟨front, head, tail, same, path, last, url, rest⟩ := urlLetters_cases letters
  · exact iff_of_true same outside
  · refine iff_of_false ?_ ?_
    · rw [url, same]
      intro equal
      have lengths := congrArg List.length equal
      simp only [List.length_append, List.length_cons] at lengths
      omega
    · simp [path]

/-- A URL stays as it is if there was at most one `@` to cut at. -/
theorem urlLetters_idem_iff : urlLetters (urlLetters letters) = urlLetters letters ↔ (pathOf letters).count '@' ≤ 1 := by
  rw [urlLetters_eq_self_iff]
  obtain ⟨outside, same⟩ | ⟨front, head, tail, same, path, last, url, rest⟩ := urlLetters_cases letters
  · rw [same, List.count_eq_zero_of_not_mem outside]
    exact iff_of_true outside (Nat.zero_le _)
  · rw [url, rest, path, List.count_append, List.count_cons_self, List.count_eq_zero_of_not_mem last,
      ← List.count_eq_zero]
    omega

theorem strippedLetters_eq (source : String) :
    strippedLetters source = (rawLetters source).takeWhile fun letter => letter != '?' && letter != '#' := by
  rw [strippedLetters, stripQueryFragment, String.toList_ofList, rawLetters]

theorem urlLetters_lead (letters : List Char) : urlLetters letters <+: letters := by
  obtain ⟨outside, same⟩ | ⟨front, head, tail, same, path, last, url, rest⟩ := urlLetters_cases letters
  · exact ⟨[], by rw [same, List.append_nil]⟩
  · rw [url]
    exact ⟨'@' :: tail, same.symm⟩

/-- A URL has neither a query nor a fragment. -/
theorem gitSourceUrl_plain {letter : Char} (member : letter ∈ (gitSourceUrl source).toList) :
    letter ≠ '?' ∧ letter ≠ '#' := by
  rw [gitSourceUrl_toList] at member
  have stripped := (urlLetters_lead _).mem member
  rw [strippedLetters_eq] at stripped
  simpa using List.mem_takeWhile_imp stripped

end Urls

/-! ## Giving a source another reference -/

/-- A reference that can be written into a query. -/
structure PlainRef (ref : String) : Prop where
  present : ref ≠ ""
  noQuery : '?' ∉ ref.toList
  noFragment : '#' ∉ ref.toList
  noAmpersand : '&' ∉ ref.toList

section References

variable {source ref next : String}

def schemeOf (source : String) : String := if startsWith source "git+" then "git+" else ""

theorem gitSourceWithRef_eq (present : ref ≠ "") :
    gitSourceWithRef source ref = schemeOf source ++ gitSourceUrl source ++ "?ref=" ++ ref := by
  rw [gitSourceWithRef, if_neg (by simpa using present), schemeOf]

theorem gitSourceUrl_leads (unschemed : startsWith source "git+" = false) :
    (gitSourceUrl source).toList <+: source.toList := by
  rw [gitSourceUrl_toList]
  apply (urlLetters_lead _).trans
  rw [strippedLetters_eq, rawLetters, withoutGitScheme, unschemed]
  exact List.takeWhile_prefix _

/-- The scheme is there again, and not twice. -/
theorem startsWith_withRef (present : ref ≠ "") :
    startsWith (gitSourceWithRef source ref) "git+" = startsWith source "git+" := by
  rw [gitSourceWithRef_eq present, schemeOf]
  cases schemed : startsWith source "git+" with
  | true =>
      rw [startsWith, List.isPrefixOf_iff_prefix]
      simp only [if_true, String.toList_append, List.append_assoc]
      exact List.prefix_append _ _
  | false =>
      rw [startsWith, ← Bool.not_eq_true, List.isPrefixOf_iff_prefix]
      simp only [Bool.false_eq_true, if_false, String.toList_append]
      intro leading
      have url : "git+".toList <+: (gitSourceUrl source).toList := by
        apply @prefix_of_prefix_cut _ '?' _ _ ("ref=".toList ++ ref.toList)
        · simpa using leading
        · decide
      have begins := url.trans (gitSourceUrl_leads schemed)
      rw [← List.isPrefixOf_iff_prefix, ← startsWith, schemed] at begins
      cases begins

theorem rawLetters_withRef (present : ref ≠ "") :
    rawLetters (gitSourceWithRef source ref) = (gitSourceUrl source).toList ++ '?' :: ("ref=".toList ++ ref.toList) := by
  have mark : "?ref=".toList = '?' :: "ref=".toList := by decide
  rw [rawLetters, withoutGitScheme, startsWith_withRef present, gitSourceWithRef_eq present, schemeOf]
  cases schemed : startsWith source "git+" with
  | true =>
      rw [if_pos rfl, if_pos rfl, String.toList_ofList]
      simp only [String.toList_append, List.append_assoc, mark, List.cons_append]
      exact List.drop_left' (by decide)
  | false =>
      rw [if_neg Bool.false_ne_true, if_neg Bool.false_ne_true]
      simp only [String.toList_append, List.append_assoc, mark, List.cons_append, String.toList_empty, List.nil_append]

theorem strippedLetters_withRef (present : ref ≠ "") :
    strippedLetters (gitSourceWithRef source ref) = urlLetters (strippedLetters source) := by
  rw [strippedLetters_eq, rawLetters_withRef present, List.takeWhile_append_of_pos]
  · rw [List.takeWhile_cons_of_neg (by simp), List.append_nil, gitSourceUrl_toList]
  · intro letter member
    simpa using gitSourceUrl_plain member

theorem gitSourceUrl_withRef_iff (present : ref ≠ "") :
    gitSourceUrl (gitSourceWithRef source ref) = gitSourceUrl source ↔
      (pathOf (strippedLetters source)).count '@' ≤ 1 := by
  rw [← urlLetters_idem_iff, ← String.toList_inj, gitSourceUrl_toList, gitSourceUrl_toList,
    strippedLetters_withRef present]

theorem withRef_withRef_iff (present : ref ≠ "") (again : next ≠ "") :
    gitSourceWithRef (gitSourceWithRef source ref) next = gitSourceWithRef source next ↔
      gitSourceUrl (gitSourceWithRef source ref) = gitSourceUrl source := by
  rw [gitSourceWithRef_eq again, @gitSourceWithRef_eq source next again, schemeOf, startsWith_withRef present, ← schemeOf]
  simp only [String.append_left_inj, String.append_right_inj]

theorem refOfQuery_of_plain (plain : '&' ∉ ref.toList) : refOfQuery ("ref=".toList ++ ref.toList) = some ref := by
  have unbroken : '&' ∉ "ref=".toList ++ ref.toList := by
    rw [List.mem_append, not_or]
    exact ⟨by decide, plain⟩
  have begins : ("ref=".toList).isPrefixOf ("ref=".toList ++ ref.toList) = true :=
    List.isPrefixOf_iff_prefix.2 (List.prefix_append _ _)
  rw [refOfQuery, List.splitOn_eq_singleton unbroken, List.find?_cons_of_pos begins, Option.map_some]
  exact congrArg some String.ofList_toList

/-- The letters behind the fragment mark. -/
def fragmentOf (raw : List Char) : List Char := (raw.dropWhile (· != '#')).drop 1

/-- The query as `gitSourceRef` cuts it out. -/
def queryOf (raw : List Char) : List Char :=
  if '?' ∈ raw.takeWhile (· != '#') then ((raw.dropWhile (· != '?')).drop 1).takeWhile (· != '#')
  else (raw.dropWhile (· != '?')).drop 1

theorem gitSourceRef_eq (source : String) :
    gitSourceRef source =
      (refOfQuery (queryOf (rawLetters source))).getD
        (if (fragmentOf (rawLetters source)).isEmpty then refBehindPath (stripQueryFragment (withoutGitScheme source))
        else String.ofList (fragmentOf (rawLetters source))) := by
  delta gitSourceRef queryOf fragmentOf rawLetters
  simp only
  generalize refOfQuery _ = found
  cases found with
  | none => rfl
  | some ref => rfl

/-- The reference that was given is the one that is found. -/
theorem gitSourceRef_withRef (plain : PlainRef ref) : gitSourceRef (gitSourceWithRef source ref) = ref := by
  have unasked : '?' ∉ (gitSourceUrl source).toList := fun member => (gitSourceUrl_plain member).1 rfl
  have unmarked : '#' ∉ (gitSourceUrl source).toList ++ '?' :: ("ref=".toList ++ ref.toList) := by
    simp only [List.mem_append, List.mem_cons, not_or]
    exact ⟨fun member => (gitSourceUrl_plain member).2 rfl, by decide, by decide, plain.noFragment⟩
  have unmarkedQuery : '#' ∉ "ref=".toList ++ ref.toList :=
    fun member => unmarked (List.mem_append_right _ (List.mem_cons_of_mem _ member))
  rw [gitSourceRef_eq, rawLetters_withRef plain.present, queryOf, takeWhile_ne_eq_self unmarked,
    drop_dropWhile_ne unasked, if_pos (by simp), takeWhile_ne_eq_self unmarkedQuery,
    refOfQuery_of_plain plain.noAmpersand, Option.getD_some]

end References

/-! ## Where a reference stands -/

section Places

variable {source ref : String} {raw front back part : List Char}

/-- The reference is a part of the source behind its URL. -/
def OutsideUrl (source : String) : Prop :=
  ∃ leading between rest, source = leading ++ gitSourceUrl source ++ between ++ gitSourceRef source ++ rest

/-- `queryEnd` in the source. -/
def queryEnd (raw : List Char) : Nat := (raw.idxOf? '#').getD raw.length

/-- The length of the query, computed as `queryEnd - queryStart - 1`, is below zero. -/
def Underflows (source : String) : Prop :=
  ∃ queryStart, (rawLetters source).idxOf? '?' = some queryStart ∧ (queryEnd (rawLetters source) : Int) - queryStart - 1 < 0

theorem idxOf?_append_cons {mark : Char} (unmarked : mark ∉ front) :
    (front ++ mark :: back).idxOf? mark = some front.length := by
  induction front with
  | nil => rw [List.nil_append, List.idxOf?_cons, if_pos (beq_self_eq_true mark), List.length_nil]
  | cons letter front ih =>
      rw [List.mem_cons, not_or] at unmarked
      rw [List.cons_append, List.idxOf?_cons, if_neg (by simpa using Ne.symm unmarked.1), ih unmarked.2,
        Option.map_some, List.length_cons]

theorem queryEnd_of_marked (unmarked : '#' ∉ front) : queryEnd (front ++ '#' :: back) = front.length := by
  rw [queryEnd, idxOf?_append_cons unmarked, Option.getD_some]

theorem queryEnd_of_unmarked (unmarked : '#' ∉ raw) : queryEnd raw = raw.length := by
  rw [queryEnd, List.idxOf?_eq_none_iff.2 unmarked, Option.getD_none]

/-- A fragment mark in front of the query comes before it, any other one behind it. -/
theorem queryEnd_cases (front back : List Char) :
    (∃ before after, front = before ++ '#' :: after ∧ queryEnd (front ++ '?' :: back) = before.length) ∨
      ('#' ∉ front ∧ ∃ query rest, back = query ++ rest ∧ query = back.takeWhile (· != '#') ∧
        queryEnd (front ++ '?' :: back) = front.length + 1 + query.length) := by
  by_cases early : '#' ∈ front
  · obtain ⟨before, after, same, unmarked⟩ := List.eq_append_cons_of_mem early
    refine Or.inl ⟨before, after, same, ?_⟩
    rw [same, List.append_assoc, List.cons_append, queryEnd_of_marked unmarked]
  · refine Or.inr ⟨early, ?_⟩
    by_cases late : '#' ∈ back
    · obtain ⟨query, rest, same, unmarked⟩ := List.eq_append_cons_of_mem late
      have before : '#' ∉ front ++ '?' :: query := by simp [early, unmarked]
      refine ⟨query, '#' :: rest, same, ?_, ?_⟩
      · rw [same, takeWhile_ne_cut unmarked]
      · have moved : front ++ '?' :: back = (front ++ '?' :: query) ++ '#' :: rest := by rw [same]; simp
        rw [moved, queryEnd_of_marked before, List.length_append, List.length_cons]
        omega
    · refine ⟨back, [], (List.append_nil back).symm, (takeWhile_ne_eq_self late).symm, ?_⟩
      rw [queryEnd_of_unmarked (by simp [early, late]), List.length_append, List.length_cons]
      omega

theorem queryEnd_lt_iff : (queryEnd (front ++ '?' :: back) : Int) - front.length - 1 < 0 ↔ '#' ∈ front := by
  obtain ⟨before, after, same, ends⟩ | ⟨unmarked, query, rest, same, -, ends⟩ := queryEnd_cases front back
  · refine iff_of_true ?_ ?_
    · rw [ends, same, List.length_append]
      omega
    · rw [same]
      simp
  · refine iff_of_false ?_ unmarked
    rw [ends]
    omega

theorem underflows_iff :
    Underflows source ↔ ∃ front back, rawLetters source = front ++ '?' :: back ∧ '?' ∉ front ∧ '#' ∈ front := by
  rw [Underflows]
  apply Iff.intro
  · intro ⟨queryStart, first, negative⟩
    have asked : '?' ∈ rawLetters source := by
      rw [← List.isSome_idxOf?, first]
      rfl
    obtain ⟨front, back, same, unasked⟩ := List.eq_append_cons_of_mem asked
    rw [same, idxOf?_append_cons unasked, Option.some.injEq] at first
    rw [same, ← first] at negative
    exact ⟨front, back, same, unasked, queryEnd_lt_iff.1 negative⟩
  · intro ⟨front, back, same, unasked, marked⟩
    refine ⟨front.length, ?_, ?_⟩
    · rw [same, idxOf?_append_cons unasked]
    · rw [same]
      exact queryEnd_lt_iff.2 marked

theorem queryOf_split (unasked : '?' ∉ front) :
    queryOf (front ++ '?' :: back) = if '#' ∈ front then back else back.takeWhile (· != '#') := by
  rw [queryOf, drop_dropWhile_ne unasked]
  by_cases early : '#' ∈ front
  · obtain ⟨before, after, same, unmarked⟩ := List.eq_append_cons_of_mem early
    rw [if_pos early, same, List.append_assoc, List.cons_append, takeWhile_ne_cut unmarked, if_neg]
    intro member
    exact unasked (by simp [same, member])
  · rw [if_neg early, List.takeWhile_append_of_pos (all_ne early), List.takeWhile_cons_of_pos (by simp),
      if_pos (by simp)]

/-- The query is what `substr` gives for this length as a `size_t`: a length below zero becomes one
that is greater than the rest of the source. -/
theorem queryOf_eq_substr (unasked : '?' ∉ front) (short : (front ++ '?' :: back).length < 0x8000000000000000) :
    queryOf (front ++ '?' :: back) =
      ((front ++ '?' :: back).drop (front.length + 1)).take
        (((queryEnd (front ++ '?' :: back) : Int) - front.length - 1) % 0x10000000000000000).toNat := by
  have dropped : (front ++ '?' :: back).drop (front.length + 1) = back := by
    rw [List.drop_append]
    simp
  rw [List.length_append, List.length_cons] at short
  rw [queryOf_split unasked, dropped]
  obtain ⟨before, after, same, ends⟩ | ⟨unmarked, query, rest, same, cut, ends⟩ := queryEnd_cases front back
  · rw [if_pos (by simp [same]), ends, List.take_of_length_le]
    have lengths := congrArg List.length same
    rw [List.length_append, List.length_cons] at lengths
    omega
  · have length : (((front.length + 1 + query.length : Nat) : Int) - front.length - 1) % 0x10000000000000000 = query.length := by
      have lengths := congrArg List.length same
      rw [List.length_append] at lengths
      omega
    rw [if_neg unmarked, ends, length, Int.toNat_natCast, ← cut, same, List.take_left]

/-- A part of what stands behind a mark stands behind the URL. -/
theorem outside_of_marked {mark : Char} {url : List Char} (unmarked : mark ∉ url) (leading : url <+: raw)
    (inside : part <:+: (raw.dropWhile (· != mark)).drop 1) :
    ∃ between rest, raw = url ++ between ++ part ++ rest := by
  by_cases marked : mark ∈ raw
  · obtain ⟨front, back, same, first⟩ := List.eq_append_cons_of_mem marked
    rw [same] at leading
    rw [same, drop_dropWhile_ne first] at inside
    obtain ⟨before, between⟩ := prefix_of_prefix_cut leading unmarked
    obtain ⟨skipped, rest, tail⟩ := inside
    refine ⟨before ++ mark :: skipped, rest, ?_⟩
    rw [same, ← tail, ← between]
    simp
  · rw [List.dropWhile_eq_nil_iff.2 (all_ne marked), List.drop_nil, List.infix_nil] at inside
    obtain ⟨rest, same⟩ := leading
    exact ⟨[], rest, by rw [inside, ← same]; simp⟩

theorem refOfQuery_inside {query : List Char} (found : refOfQuery query = some ref) : ref.toList <:+: query := by
  rw [refOfQuery, Option.map_eq_some_iff] at found
  obtain ⟨piece, first, same⟩ := found
  rw [← same, String.toList_ofList]
  exact (List.drop_suffix 4 piece).isInfix.trans (infix_of_mem_splitOn (List.mem_of_find?_eq_some first))

theorem queryOf_leads (raw : List Char) : queryOf raw <+: (raw.dropWhile (· != '?')).drop 1 := by
  rw [queryOf]
  split
  · exact List.takeWhile_prefix _
  · exact List.prefix_refl _

theorem strippedLetters_lead (source : String) : strippedLetters source <+: rawLetters source := by
  rw [strippedLetters_eq]
  exact List.takeWhile_prefix _

theorem refBehindPath_toList (stripped : String) :
    (refBehindPath stripped).toList =
      if '@' ∈ pathOf stripped.toList then ((pathOf stripped.toList).reverse.takeWhile (· != '@')).reverse else [] := by
  rw [refBehindPath, pathOf]
  cases behindFirst "://".toList stripped.toList with
  | none => rfl
  | some behindScheme =>
      simp only
      split
      · exact String.toList_ofList
      · rfl

/-- What is cut from a URL is the reference behind its path. -/
theorem refBehindPath_outside (present : refBehindPath (stripQueryFragment (withoutGitScheme source)) ≠ "") :
    ∃ between, strippedLetters source = (gitSourceUrl source).toList ++ between ++
      (refBehindPath (stripQueryFragment (withoutGitScheme source))).toList := by
  have letters := refBehindPath_toList (stripQueryFragment (withoutGitScheme source))
  rw [← strippedLetters] at letters
  rw [gitSourceUrl_toList]
  obtain ⟨outside, -⟩ | ⟨front, head, tail, same, path, last, url, -⟩ := urlLetters_cases (strippedLetters source)
  · rw [if_neg outside] at letters
    exact absurd (String.toList_eq_nil_iff.1 letters) present
  · have unbroken : '@' ∉ tail.reverse := by
      rw [List.mem_reverse]
      exact last
    have behind : (head ++ '@' :: tail).reverse.takeWhile (· != '@') = tail.reverse := by
      rw [List.reverse_append, List.reverse_cons, List.append_assoc, List.singleton_append, takeWhile_ne_cut unbroken]
    refine ⟨['@'], ?_⟩
    rw [letters, if_pos (by simp [path]), path, behind, url, List.reverse_reverse, same]
    simp

theorem rawLetters_outside (present : gitSourceRef source ≠ "") :
    ∃ between rest, rawLetters source = (gitSourceUrl source).toList ++ between ++ (gitSourceRef source).toList ++ rest := by
  have leading : (gitSourceUrl source).toList <+: rawLetters source := by
    rw [gitSourceUrl_toList]
    exact (urlLetters_lead _).trans (strippedLetters_lead source)
  rw [gitSourceRef_eq] at present ⊢
  cases found : refOfQuery (queryOf (rawLetters source)) with
  | some ref =>
      rw [Option.getD_some]
      apply @outside_of_marked _ _ '?' _ (fun member => (gitSourceUrl_plain member).1 rfl) leading
      exact (refOfQuery_inside found).trans (queryOf_leads _).isInfix
  | none =>
      rw [found, Option.getD_none] at present
      rw [Option.getD_none]
      split
      · rename_i empty
        rw [if_pos empty] at present
        obtain ⟨between, same⟩ := refBehindPath_outside present
        obtain ⟨rest, stripped⟩ := strippedLetters_lead source
        exact ⟨between, rest, by rw [← same, stripped]⟩
      · apply @outside_of_marked _ _ '#' _ (fun member => (gitSourceUrl_plain member).2 rfl) leading
        rw [String.toList_ofList]
        exact ⟨[], [], List.append_nil _⟩

theorem schemeOf_append_raw (source : String) : (schemeOf source).toList ++ rawLetters source = source.toList := by
  rw [schemeOf, rawLetters, withoutGitScheme]
  split
  · rename_i schemed
    rw [startsWith, List.isPrefixOf_iff_prefix] at schemed
    obtain ⟨rest, same⟩ := schemed
    rw [← same, List.drop_left' (by decide), @String.toList_ofList rest]
  · rw [String.toList_empty, List.nil_append]

theorem outsideUrl (present : gitSourceRef source ≠ "") : OutsideUrl source := by
  obtain ⟨between, rest, same⟩ := rawLetters_outside present
  have whole := schemeOf_append_raw source
  rw [same] at whole
  refine ⟨schemeOf source, String.ofList between, String.ofList rest, ?_⟩
  rw [← String.toList_inj, ← whole]
  simp only [String.toList_append, String.toList_ofList, List.append_assoc]

/-- The reference is empty only if the first `ref=` of the query is, if there is a fragment. -/
theorem gitSourceRef_eq_empty_iff (same : rawLetters source = front ++ '?' :: back) (unasked : '?' ∉ front)
    (marked : '#' ∈ front) :
    gitSourceRef source = "" ↔ (back.splitOn '&').find? "ref=".toList.isPrefixOf = some "ref=".toList := by
  have fragment : fragmentOf (rawLetters source) ≠ [] := by
    obtain ⟨before, after, cut, unmarked⟩ := List.eq_append_cons_of_mem marked
    rw [same, cut, List.append_assoc, List.cons_append, fragmentOf, drop_dropWhile_ne unmarked]
    simp
  rw [gitSourceRef_eq, same, queryOf_split unasked, if_pos marked, refOfQuery]
  rw [same] at fragment
  cases found : (back.splitOn '&').find? "ref=".toList.isPrefixOf with
  | none =>
      rw [Option.map_none, Option.getD_none]
      rw [if_neg (by simpa using fragment), ← String.toList_inj, String.toList_ofList, String.toList_empty]
      exact iff_of_false fragment (by simp)
  | some piece =>
      rw [Option.map_some, Option.getD_some]
      obtain ⟨value, begins⟩ := List.isPrefixOf_iff_prefix.1 (List.find?_some found)
      rw [← String.toList_inj, String.toList_ofList, String.toList_empty, ← begins, List.drop_left' (by decide),
        Option.some.injEq, List.append_right_eq_self]

end Places

/-! ## The laws -/

/-- What is promised of the three functions for a source. -/
structure KeepsLaws (source : String) : Prop where
  given : ∀ ref, PlainRef ref → gitSourceRef (gitSourceWithRef source ref) = ref
  kept : ∀ ref, PlainRef ref → gitSourceUrl (gitSourceWithRef source ref) = gitSourceUrl source
  replaced : ∀ ref next, PlainRef ref → PlainRef next →
    gitSourceWithRef (gitSourceWithRef source ref) next = gitSourceWithRef source next
  outside : gitSourceRef source ≠ "" → OutsideUrl source
  fits : gitSourceRef source ≠ "" → ¬ Underflows source

/-- A path with at most one `@`, and no fragment mark in front of the query, unless the query sets
the reference to nothing. -/
structure Tidy (source : String) : Prop where
  once : (pathOf (strippedLetters source)).count '@' ≤ 1
  bare : ∀ front back, rawLetters source = front ++ '?' :: back → '?' ∉ front → '#' ∈ front →
    (back.splitOn '&').find? "ref=".toList.isPrefixOf = some "ref=".toList

theorem plainRef_head : PlainRef "HEAD" := by
  refine ⟨?_, ?_, ?_, ?_⟩ <;> decide

/-- The laws hold of a source if and only if it is tidy: what stands between two `@` of a path is
taken for a reference once the last one has been replaced, and a query behind a fragment mark has
a length below zero. -/
theorem git_source_laws_iff (source : String) : KeepsLaws source ↔ Tidy source := by
  apply Iff.intro
  · intro laws
    refine ⟨(gitSourceUrl_withRef_iff plainRef_head.present).1 (laws.kept _ plainRef_head), ?_⟩
    intro front back same unasked marked
    rw [← gitSourceRef_eq_empty_iff same unasked marked]
    by_contra present
    exact laws.fits present (underflows_iff.2 ⟨front, back, same, unasked, marked⟩)
  · intro tidy
    have kept : ∀ ref, PlainRef ref → gitSourceUrl (gitSourceWithRef source ref) = gitSourceUrl source :=
      fun ref plain => (gitSourceUrl_withRef_iff plain.present).2 tidy.once
    refine ⟨fun ref plain => gitSourceRef_withRef plain, kept, ?_, outsideUrl, ?_⟩
    · intro ref next plain again
      exact (withRef_withRef_iff plain.present again.present).2 (kept ref plain)
    · intro present underflows
      obtain ⟨front, back, same, unasked, marked⟩ := underflows_iff.1 underflows
      exact present ((gitSourceRef_eq_empty_iff same unasked marked).2 (tidy.bare front back same unasked marked))

/-- A path with two `@`, and a query behind a fragment. -/
theorem git_source_laws_fail :
    ¬ KeepsLaws "https://host/team@corp/tool@v1" ∧ ¬ KeepsLaws "https://host/tool#readme?ref=v1" := by
  have head : PlainRef "HEAD" := plainRef_head
  apply And.intro
  · intro laws
    have kept := laws.kept "HEAD" head
    revert kept
    decide +kernel
  · intro laws
    have present : gitSourceRef "https://host/tool#readme?ref=v1" ≠ "" := by decide +kernel
    apply laws.fits present
    rw [Underflows]
    exact ⟨24, by decide +kernel, by decide +kernel⟩

end ReqPack.Registry
