import DevBrowse.Blocklist.Rule
import Mathlib.Data.Finset.Dedup
import Mathlib.Data.Finset.Empty

/-!
# Stripping tracking parameters

The parameters of a query that are on the strip list are removed from a URL before it is
dispatched. The query is what stands between the first `?` and the next `#`; what is left
of it is put together again from its remaining parameters
(`DevBrowse.Network.Cut.stripTrackingParams_eq`).

What a reader of the result takes for the query, `DevBrowse.Network.queryOf`, is defined
apart from the scanner: the part after the first `?` that no `#` precedes. No parameter in
there is on the list (`DevBrowse.Network.not_contains_stripTrackingParams`), also where the
first `?` stands in the fragment and the two disagree.
-/

namespace DevBrowse

namespace Network

open Blocklist (UrlParamRule)

/-- The length past which a URL is left alone, in bytes. -/
def maxStrippableUrlLen : ℕ := 4096

/-- The parameters on the list before the first manifest. -/
def defaultTrackingParams : List Text :=
  ["utm_source", "utm_medium", "utm_campaign", "utm_term", "utm_content", "utm_id", "utm_name",
    "gclid", "gclsrc", "dclid", "fbclid", "msclkid", "yclid", "mc_eid", "mkt_tok", "igshid",
    "hsctatracking", "hsenc", "twclid", "scid", "epik", "ref_src", "ref_url"].map String.toList

/-- **The strip list.** -/
structure UrlParamStripList where
  /-- The names on the list. -/
  names : Finset Text
  deriving DecidableEq

namespace UrlParamStripList

/-- The list without names. -/
def empty : UrlParamStripList := ⟨∅⟩

/-- The list of the names of some rules. -/
def fromRules (rules : List UrlParamRule) : UrlParamStripList :=
  ⟨(rules.map UrlParamRule.name).toFinset⟩

/-- The list before the first manifest. -/
def defaultBootstrap : UrlParamStripList := ⟨defaultTrackingParams.toFinset⟩

/-- Whether a name is on the list, in any case. -/
def contains (list : UrlParamStripList) (name : Text) : Bool :=
  decide (name.toAsciiLowercase ∈ list.names)

/-- Whether the list has no names. -/
def isEmpty (list : UrlParamStripList) : Bool := decide (list.names = ∅)

theorem contains_eq_false_of_isEmpty {list : UrlParamStripList} (h : list.isEmpty = true)
    (name : Text) : list.contains name = false := by
  rw [isEmpty, decide_eq_true_eq] at h
  simp [contains, h]

end UrlParamStripList

/-! ### The scanner -/

/-- The name of a parameter: what stands before the first `=`. -/
def paramKey (part : Text) : Text :=
  match part.find '=' with
  | some i => part.take i
  | none => part

/-- One turn of the loop over the parts of a query, with the parts kept so far and whether
one was stripped. -/
def stripPart (list : UrlParamStripList) (acc : List Text × Bool) (part : Text) :
    List Text × Bool :=
  if part = [] then acc
  else if list.contains (paramKey part) then (acc.1, true)
  else (acc.1 ++ [part], acc.2)

/-- The loop over the parts of a query. -/
def stripParts (list : UrlParamStripList) (query : Text) : List Text × Bool :=
  (query.splitOn '&').foldl (stripPart list) ([], false)

/-- The parts after the first `?`: up to the next `#`, and from it on if there is one. -/
def splitFragment (afterQ : Text) : Text × Option Text :=
  match afterQ.find '#' with
  | some i => (afterQ.take i, some (afterQ.drop i))
  | none => (afterQ, none)

/-- **Strip the parameters on a list from a URL.** -/
def stripTrackingParams (url : Text) (list : UrlParamStripList) : Text :=
  if maxStrippableUrlLen < url.utf8Len ∨ list.isEmpty = true then url
  else
    match url.find '?' with
    | none => url
    | some qPos =>
      let beforeQ := url.take qPos
      let (query, fragment) := splitFragment (url.drop (qPos + 1))
      if query = [] then url
      else
        let (kept, strippedAny) := stripParts list query
        if !strippedAny then url
        else beforeQ ++ (if kept = [] then [] else '?' :: ['&'].intercalate kept) ++
          fragment.getD []

/-! ### What the loop keeps -/

/-- The parameters of a query: its parts without the empty ones. -/
def params (query : Text) : List Text := (query.splitOn '&').filter fun part => !part.isEmpty

variable {url before query fragment : Text} {list : UrlParamStripList}

theorem foldl_stripPart (list : UrlParamStripList) (parts : List Text)
    (acc : List Text × Bool) :
    parts.foldl (stripPart list) acc =
      (acc.1 ++ (parts.filter fun part => !part.isEmpty).filter fun part =>
          !list.contains (paramKey part),
        acc.2 || (parts.filter fun part => !part.isEmpty).any fun part =>
          list.contains (paramKey part)) := by
  induction parts generalizing acc with
  | nil => simp
  | cons part parts ih =>
    rw [List.foldl_cons, ih, stripPart]
    by_cases hempty : part = []
    · simp [hempty]
    · cases hlisted : list.contains (paramKey part) <;> simp [hempty, hlisted]

/-- **The loop keeps the parameters that are not on the list**, and tells whether one is. -/
theorem stripParts_eq (list : UrlParamStripList) (query : Text) :
    stripParts list query =
      ((params query).filter fun part => !list.contains (paramKey part),
        (params query).any fun part => list.contains (paramKey part)) := by
  rw [stripParts, foldl_stripPart]
  simp [params]

/-! ### The URL in parts -/

/-- A URL cut at its first `?` and at the first `#` after that. -/
structure Cut (url before query fragment : Text) : Prop where
  /-- The parts make up the URL. -/
  eq : url = before ++ '?' :: (query ++ fragment)
  /-- There is no `?` before the query. -/
  before : '?' ∉ before
  /-- There is no `#` in the query. -/
  query : '#' ∉ query
  /-- The fragment starts with a `#`, if there is one. -/
  fragment : ∀ c ∈ fragment.head?, c = '#'

theorem splitFragment_spec (afterQ : Text) :
    afterQ = (splitFragment afterQ).1 ++ (splitFragment afterQ).2.getD [] ∧
      '#' ∉ (splitFragment afterQ).1 ∧
      ∀ c ∈ ((splitFragment afterQ).2.getD []).head?, c = '#' := by
  rw [splitFragment]
  split
  · rename_i i hfind
    obtain ⟨a, b, rfl, ha, rfl⟩ := Text.exists_of_find hfind
    rw [List.take_left, Option.getD_some, List.drop_left]
    refine ⟨rfl, ha, fun c hc => ?_⟩
    simpa using hc.symm
  · rename_i hfind
    rw [Option.getD_none]
    exact ⟨(List.append_nil _).symm, Text.find_eq_none_iff.mp hfind, by simp⟩

theorem Cut.splitFragment_eq (h : Cut url before query fragment) :
    (splitFragment (query ++ fragment)).1 = query ∧
      (splitFragment (query ++ fragment)).2.getD [] = fragment := by
  cases hfrag : fragment with
  | nil =>
    rw [List.append_nil, splitFragment, Text.find_eq_none_iff.mpr h.query]
    exact ⟨rfl, rfl⟩
  | cons c rest =>
    obtain rfl : c = '#' := h.fragment c (by rw [hfrag]; rfl)
    simp [splitFragment, Text.find_append_cons h.query]

theorem exists_cut (h : '?' ∈ url) : ∃ before query fragment, Cut url before query fragment := by
  obtain ⟨before, afterQ, rfl, hbefore⟩ := List.eq_append_cons_of_mem h
  obtain ⟨heq, hquery, hfragment⟩ := splitFragment_spec afterQ
  exact ⟨before, _, _, by rw [← heq], hbefore, hquery, hfragment⟩

/-- A query of the given parameters, or nothing when there are none. -/
def joinQuery (kept : List Text) : Text :=
  if kept = [] then [] else '?' :: ['&'].intercalate kept

/-- **What stripping does to the parts of a URL**: the parameters on the list go, all the
rest stays. -/
theorem Cut.stripTrackingParams_eq (h : Cut url before query fragment)
    (hlen : url.utf8Len ≤ maxStrippableUrlLen) :
    stripTrackingParams url list =
      if (params query).any (fun part => list.contains (paramKey part)) then
        before ++ joinQuery ((params query).filter fun part =>
          !list.contains (paramKey part)) ++ fragment
      else url := by
  rw [stripTrackingParams]
  split
  · rename_i hout
    have hempty : list.isEmpty = true := by
      rcases hout with hlong | hempty
      · omega
      · exact hempty
    simp [UrlParamStripList.contains_eq_false_of_isEmpty hempty]
  · have hfind : url.find '?' = some before.length := by
      rw [h.eq, Text.find_append_cons h.before]
    have hafter : url.drop (before.length + 1) = query ++ fragment := by
      rw [h.eq, List.drop_append]
      simp
    have hbefore : url.take before.length = before := by
      rw [h.eq, List.take_left]
    simp only [hfind, hafter, hbefore, h.splitFragment_eq, stripParts_eq]
    by_cases hquery : query = []
    · -- an empty query has no parameters, so leaving it alone is what the formula says
      simp [hquery, params]
    · rw [if_neg hquery]
      by_cases hany : (params query).any (fun part => list.contains (paramKey part)) = true
      · simp [hany, joinQuery]
      · simp [hany]

theorem stripTrackingParams_of_notMem (h : '?' ∉ url) : stripTrackingParams url list = url := by
  rw [stripTrackingParams, Text.find_eq_none_iff.mpr h, ite_self]

theorem stripTrackingParams_of_long (h : maxStrippableUrlLen < url.utf8Len) :
    stripTrackingParams url list = url := by
  rw [stripTrackingParams, if_pos (.inl h)]

theorem head?_joinQuery_append {kept : List Text} (hfragment : ∀ c ∈ fragment.head?, c = '#') :
    ∀ c ∈ (joinQuery kept ++ fragment).head?, c = '?' ∨ c = '#' := by
  intro c hc
  rw [joinQuery] at hc
  split at hc
  · exact .inr (hfragment c hc)
  · exact .inl (by simpa using hc.symm)

/-- **Stripping keeps what stands before the first `?`**, and a `?` or the fragment is what
follows there if anything does. -/
theorem stripTrackingParams_cases (url : Text) (list : UrlParamStripList) :
    stripTrackingParams url list = url ∨ ∃ before afterQ rest,
      url = before ++ '?' :: afterQ ∧ stripTrackingParams url list = before ++ rest ∧
      ∀ c ∈ rest.head?, c = '?' ∨ c = '#' := by
  by_cases hmem : '?' ∈ url
  · by_cases hlen : url.utf8Len ≤ maxStrippableUrlLen
    · obtain ⟨before, query, fragment, hcut⟩ := exists_cut hmem
      rw [hcut.stripTrackingParams_eq hlen]
      split
      · refine .inr ⟨before, query ++ fragment, _, hcut.eq, List.append_assoc _ _ _, ?_⟩
        exact head?_joinQuery_append hcut.fragment
      · exact .inl rfl
    · exact .inl (stripTrackingParams_of_long (Nat.lt_of_not_le hlen))
  · exact .inl (stripTrackingParams_of_notMem hmem)

/-! ### The query a reader sees -/

/-- **The query of a URL**: what stands between the first `?` that no `#` precedes and the
first `#`. -/
def queryOf (url : Text) : Option Text :=
  let beforeFragment : Text := url.takeWhile (· ≠ '#')
  (beforeFragment.find '?').map fun i => beforeFragment.drop (i + 1)

theorem queryOf_append (hbefore : '#' ∉ before) (hfragment : ∀ c ∈ fragment.head?, c = '#') :
    queryOf (before ++ fragment) =
      (Text.find before '?').map fun i => before.drop (i + 1) := by
  have htake : (before ++ fragment).takeWhile (· ≠ '#') = before := by
    refine Text.takeWhile_append (fun c hc => ?_) fun c hc => by simp [hfragment c hc]
    rw [decide_eq_true_eq]
    rintro rfl
    exact hbefore hc
  rw [queryOf, htake]

theorem queryOf_eq_none_of_mem (hmem : '#' ∈ before) (hbefore : '?' ∉ before) (rest : Text) :
    queryOf (before ++ rest) = none := by
  obtain ⟨a, b, rfl, ha⟩ := List.eq_append_cons_of_mem hmem
  have hnot : '?' ∉ a := fun h => hbefore (List.mem_append_left _ h)
  rw [List.append_assoc, List.cons_append, queryOf_append ha (by simp),
    Text.find_eq_none_iff.mpr hnot]
  rfl

theorem queryOf_eq_none (hbefore : '?' ∉ before) (hfragment : ∀ c ∈ fragment.head?, c = '#') :
    queryOf (before ++ fragment) = none := by
  by_cases hmem : '#' ∈ before
  · exact queryOf_eq_none_of_mem hmem hbefore fragment
  · rw [queryOf_append hmem hfragment, Text.find_eq_none_iff.mpr hbefore]
    rfl

theorem Cut.queryOf_eq (h : Cut url before query fragment) (hbefore : '#' ∉ before) :
    queryOf url = some query := by
  have hassoc : url = (before ++ '?' :: query) ++ fragment := by
    rw [h.eq, List.append_assoc, List.cons_append]
  have hnot : '#' ∉ before ++ '?' :: query := by
    simp [hbefore, h.query]
  rw [hassoc, queryOf_append hnot h.fragment, Text.find_append_cons h.before]
  simp

theorem mem_params {part : Text} (h : part ∈ params query) :
    part ∈ query.splitOn '&' ∧ part ≠ [] := by
  simpa [params] using h

/-- The parameters of a query that was put together from parameters. -/
theorem params_intercalate {kept : List Text} (hne : kept ≠ [])
    (hkept : ∀ part ∈ kept, part ∈ params query) : params (['&'].intercalate kept) = kept := by
  have hsep : ∀ part ∈ kept, '&' ∉ part := fun part hpart hsep =>
    (Text.mem_of_mem_splitOn (mem_params (hkept part hpart)).1 hsep).2 rfl
  rw [params, List.splitOn_intercalate '&' hsep hne, List.filter_eq_self]
  intro part hpart
  simpa using (mem_params (hkept part hpart)).2

theorem Cut.rejoin {kept : List Text} (h : Cut url before query fragment)
    (hkept : ∀ part ∈ kept, part ∈ params query) :
    Cut (before ++ '?' :: ['&'].intercalate kept ++ fragment) before
      (['&'].intercalate kept) fragment where
  eq := by rw [List.append_assoc, List.cons_append]
  before := h.before
  query := by
    intro hmem
    rcases Text.mem_intercalate hmem with hsep | ⟨part, hpart, hin⟩
    · exact absurd hsep (by decide)
    · exact h.query (Text.mem_of_mem_splitOn (mem_params (hkept part hpart)).1 hin).1
  fragment := h.fragment

/-- **No parameter in the query of a stripped URL is on the list.** -/
theorem not_contains_stripTrackingParams (hlen : url.utf8Len ≤ maxStrippableUrlLen)
    {finalQuery part : Text} (hquery : queryOf (stripTrackingParams url list) = some finalQuery)
    (hpart : part ∈ params finalQuery) : list.contains (paramKey part) = false := by
  by_cases hmem : '?' ∈ url
  · obtain ⟨before, query, fragment, hcut⟩ := exists_cut hmem
    by_cases hfrag : '#' ∈ before
    · -- the first `?` is in the fragment: there is no query, whatever was stripped
      have hnone : ∀ rest, queryOf (before ++ rest) = none :=
        queryOf_eq_none_of_mem hfrag hcut.before
      rw [hcut.stripTrackingParams_eq hlen, hcut.eq, List.append_assoc] at hquery
      split at hquery
      · cases (hnone _).symm.trans hquery
      · cases (hnone _).symm.trans hquery
    · rw [hcut.stripTrackingParams_eq hlen] at hquery
      split at hquery
      · -- the query is the parameters that were kept, if any were
        generalize hkept : (params query).filter (fun part => !list.contains (paramKey part)) =
          kept at hquery
        have hsub : ∀ part ∈ kept, part ∈ params query := by
          rw [← hkept]
          exact fun part hin => (List.mem_filter.mp hin).1
        rw [joinQuery] at hquery
        split at hquery
        · rw [List.append_nil, queryOf_eq_none hcut.before hcut.fragment] at hquery
          cases hquery
        · rename_i hne
          rw [(hcut.rejoin hsub).queryOf_eq hfrag, Option.some_inj] at hquery
          rw [← hquery, params_intercalate hne hsub, ← hkept] at hpart
          simpa using (List.mem_filter.mp hpart).2
      · rename_i hany
        rw [hcut.queryOf_eq hfrag, Option.some_inj] at hquery
        rw [← hquery] at hpart
        simpa using fun h => hany (List.any_eq_true.mpr ⟨part, hpart, h⟩)
  · rw [stripTrackingParams_of_notMem hmem] at hquery
    have hnone : queryOf (url ++ []) = none := queryOf_eq_none hmem (by simp)
    rw [List.append_nil, hquery] at hnone
    cases hnone

end Network

end DevBrowse
