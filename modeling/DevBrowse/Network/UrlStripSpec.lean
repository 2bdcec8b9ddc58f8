import DevBrowse.Network.UrlStrip

/-!
# What stripping is to do

The parameters on the list are to go from the query of a URL and the rest is to stay, the
fragment above all: a `?` that stands in the fragment begins no query. The scanner looks for
the first `?` wherever it stands. So where a URL has no query, or is left without one, and its
fragment has a `?` with a parameter on the list behind it, the fragment is rewritten: at once,
or when the result is stripped again. Everywhere else stripping does what it is to do, and
stripping twice is stripping once (`DevBrowse.Network.strip_correct_iff`).
-/

namespace DevBrowse

namespace Network

variable {url before query fragment : Text} {list : UrlParamStripList}

/-- The fragment of a URL: from the first `#` on. -/
def fragmentOf (url : Text) : Text := url.dropWhile (· ≠ '#')

/-- **What stripping is to do**: in the query the parameters on the list go, and the `?` with
the last of them; all the rest stays. -/
def stripSpec (url : Text) (list : UrlParamStripList) : Text :=
  match queryOf url with
  | none => url
  | some query =>
    if (params query).any fun part => list.contains (paramKey part) then
      url.takeWhile (· ≠ '?') ++
        joinQuery ((params query).filter fun part => !list.contains (paramKey part)) ++
        fragmentOf url
    else url

/-- Stripping does what it is to do, and doing it again changes nothing. -/
def StripCorrect (url : Text) (list : UrlParamStripList) : Prop :=
  stripTrackingParams url list = stripSpec url list ∧
    stripTrackingParams (stripTrackingParams url list) list = stripTrackingParams url list

instance : Decidable (StripCorrect url list) := inferInstanceAs (Decidable (_ ∧ _))

/-- What looks like a query in a fragment: from its first `?` to the next `#`. -/
def fragmentQuery (fragment : Text) : Option Text :=
  (fragment.find '?').map fun i => (splitFragment (fragment.drop (i + 1))).1

/-- In the fragment of the URL stands a `?` with a parameter on the list behind it. -/
def ListedInFragment (url : Text) (list : UrlParamStripList) : Prop :=
  ∃ query, fragmentQuery (fragmentOf url) = some query ∧
    ∃ part ∈ params query, list.contains (paramKey part) = true

/-- The URL has no query, or all parameters of its query are on the list. -/
def NoQueryLeft (url : Text) (list : UrlParamStripList) : Prop :=
  ∀ query, queryOf url = some query →
    params query ≠ [] ∧ ∀ part ∈ params query, list.contains (paramKey part) = true

/-- A URL without a parameter on the list in its query is to stay as it is. -/
theorem stripSpec_of_not_listed (h : ∀ query, queryOf url = some query →
    ∀ part ∈ params query, list.contains (paramKey part) = false) : stripSpec url list = url := by
  rw [stripSpec]
  split
  · rfl
  · rename_i query hquery
    rw [if_neg]
    rw [List.any_eq_true]
    rintro ⟨part, hpart, hlisted⟩
    rw [h query hquery part hpart] at hlisted
    cases hlisted

/-! ### The parts of a URL -/

theorem Cut.takeWhile_eq (h : Cut url before query fragment) :
    url.takeWhile (· ≠ '?') = before := by
  rw [h.eq]
  refine Text.takeWhile_append (fun c hc => ?_) (by simp)
  rw [decide_eq_true_eq]
  rintro rfl
  exact h.before hc

theorem fragmentOf_append (hbefore : '#' ∉ before) (hfragment : ∀ c ∈ fragment.head?, c = '#') :
    fragmentOf (before ++ fragment) = fragment := by
  have hskip : ∀ c ∈ before, decide (c ≠ '#') = true := by
    intro c hc
    rw [decide_eq_true_eq]
    rintro rfl
    exact hbefore hc
  rw [fragmentOf, List.dropWhile_append_of_pos hskip]
  cases fragment with
  | nil => rfl
  | cons c rest => rw [List.dropWhile_cons_of_neg (by simp [hfragment c rfl])]

/-- Where no `#` precedes the first `?` the cut is at the fragment. -/
theorem Cut.fragmentOf_eq (h : Cut url before query fragment) (hbefore : '#' ∉ before) :
    fragmentOf url = fragment := by
  have hassoc : url = (before ++ '?' :: query) ++ fragment := by
    rw [h.eq, List.append_assoc, List.cons_append]
  rw [hassoc]
  exact fragmentOf_append (by simp [hbefore, h.query]) h.fragment

theorem fragmentQuery_append (hbefore : '?' ∉ before) (hquery : '#' ∉ query)
    (hfragment : ∀ c ∈ fragment.head?, c = '#') :
    fragmentQuery (before ++ '?' :: (query ++ fragment)) = some query := by
  have hdrop : (before ++ '?' :: (query ++ fragment)).drop (before.length + 1) =
      query ++ fragment := by
    rw [List.drop_append]
    simp
  have hcut : Cut ('?' :: (query ++ fragment)) [] query fragment :=
    ⟨rfl, by simp, hquery, hfragment⟩
  rw [fragmentQuery, Text.find_append_cons hbefore, Option.map_some, hdrop,
    hcut.splitFragment_eq.1]

/-- Where a `#` precedes the first `?` the cut is in the fragment. -/
theorem Cut.fragmentQuery_eq (h : Cut url before query fragment) (hbefore : '#' ∈ before) :
    fragmentQuery (fragmentOf url) = some query := by
  obtain ⟨a, b, rfl, ha⟩ := List.eq_append_cons_of_mem hbefore
  have hb : '?' ∉ '#' :: b := fun hmem => h.before (List.mem_append_right a hmem)
  have hassoc : url = a ++ ('#' :: b ++ '?' :: (query ++ fragment)) := by
    rw [h.eq, List.append_assoc]
  rw [hassoc, fragmentOf_append ha (by simp)]
  exact fragmentQuery_append hb h.query h.fragment

/-! ### What stripping does -/

/-- **Stripping something changes the URL.** -/
theorem Cut.stripTrackingParams_eq_self_iff (h : Cut url before query fragment)
    (hlen : url.utf8Len ≤ maxStrippableUrlLen) :
    stripTrackingParams url list = url ↔
      ¬ ∃ part ∈ params query, list.contains (paramKey part) = true := by
  rw [h.stripTrackingParams_eq hlen, ← List.any_eq_true]
  split
  · rename_i hany
    refine iff_of_false (fun heq => ?_) (fun hnot => hnot hany)
    -- else the parameters that stay would be all there are
    have hjoin : joinQuery ((params query).filter fun part => !list.contains (paramKey part)) =
        '?' :: query := by
      rw [h.eq, List.append_assoc, ← List.cons_append] at heq
      exact List.append_cancel_right (List.append_cancel_left heq)
    rw [joinQuery] at hjoin
    split at hjoin
    · cases hjoin
    · rename_i hne
      have hsub : ∀ part ∈ (params query).filter fun part => !list.contains (paramKey part),
          part ∈ params query := fun part hpart => (List.mem_filter.mp hpart).1
      have hkept := params_intercalate hne hsub
      rw [(List.cons.inj hjoin).2] at hkept
      obtain ⟨part, hpart, hlisted⟩ := List.any_eq_true.mp hany
      rw [hkept] at hpart
      simp [hlisted] at hpart
  · rename_i hany
    exact iff_of_true rfl hany

theorem utf8Len_append_le (before query fragment : Text) :
    Text.utf8Len (before ++ fragment) ≤ Text.utf8Len (before ++ '?' :: (query ++ fragment)) := by
  simp only [Text.utf8Len, Text.utf8Bytes, List.flatMap_append, List.flatMap_cons,
    List.length_append]
  omega

/-! ### A query with a `?` that begins it -/

theorem Cut.not_listedInFragment (h : Cut url before query fragment) (hbefore : '#' ∉ before)
    (hnone : '?' ∉ fragment) : ¬ ListedInFragment url list := by
  rintro ⟨query', hquery', -⟩
  rw [h.fragmentOf_eq hbefore, fragmentQuery, Text.find_eq_none_iff.mpr hnone] at hquery'
  cases hquery'

/-- **Where the first `?` begins the query stripping does what it is to do.** -/
theorem Cut.stripTrackingParams_eq_stripSpec (h : Cut url before query fragment)
    (hbefore : '#' ∉ before) (hlen : url.utf8Len ≤ maxStrippableUrlLen) :
    stripTrackingParams url list = stripSpec url list := by
  rw [h.stripTrackingParams_eq hlen, stripSpec, h.queryOf_eq hbefore]
  simp only [h.takeWhile_eq, h.fragmentOf_eq hbefore]

/-- What is stripped of some parameters only stays as it is when it is stripped again. -/
theorem Cut.strip_rejoin {kept : List Text} (h : Cut url before query fragment) (hne : kept ≠ [])
    (hkept : ∀ part ∈ kept, part ∈ params query ∧ list.contains (paramKey part) = false) :
    stripTrackingParams (before ++ joinQuery kept ++ fragment) list =
      before ++ joinQuery kept ++ fragment := by
  have hcut := h.rejoin fun part hpart => (hkept part hpart).1
  rw [joinQuery, if_neg hne]
  rcases Nat.lt_or_ge maxStrippableUrlLen
    (Text.utf8Len (before ++ '?' :: ['&'].intercalate kept ++ fragment)) with hlong | hlen
  · exact stripTrackingParams_of_long hlong
  · rw [hcut.stripTrackingParams_eq_self_iff hlen,
      params_intercalate hne fun part hpart => (hkept part hpart).1]
    rintro ⟨part, hpart, hlisted⟩
    rw [(hkept part hpart).2] at hlisted
    cases hlisted

/-- **Without its query a URL stays as it is exactly if no parameter on the list stands in its
fragment**: the first `?` is now one in the fragment. -/
theorem Cut.strip_without_query_iff (h : Cut url before query fragment) (hbefore : '#' ∉ before)
    (hlen : url.utf8Len ≤ maxStrippableUrlLen) :
    stripTrackingParams (before ++ fragment) list = before ++ fragment ↔
      ¬ ListedInFragment url list := by
  by_cases hmem : '?' ∈ fragment
  · obtain ⟨before', query', fragment', hcut⟩ := exists_cut hmem
    have hshort : Text.utf8Len (before ++ fragment) ≤ maxStrippableUrlLen := by
      rw [h.eq] at hlen
      exact (utf8Len_append_le before query fragment).trans hlen
    have hwhole : Cut (before ++ fragment) (before ++ before') query' fragment' :=
      { eq := by rw [List.append_assoc, ← hcut.eq]
        before := by simp [h.before, hcut.before]
        query := hcut.query
        fragment := hcut.fragment }
    -- the fragment starts with a `#`, so one stands before its first `?`
    have hhash : '#' ∈ before' := by
      have hhead := h.fragment
      rw [hcut.eq] at hhead
      cases before' with
      | nil => exact absurd (hhead '?' rfl) (by decide)
      | cons c rest =>
        rw [← hhead c rfl]
        exact List.mem_cons_self
    have hquery : fragmentQuery (fragmentOf url) = some query' := by
      rw [h.fragmentOf_eq hbefore, ← fragmentOf_append hbefore h.fragment]
      exact hwhole.fragmentQuery_eq (List.mem_append_right before hhash)
    simp [hwhole.stripTrackingParams_eq_self_iff hshort, ListedInFragment, hquery]
  · refine iff_of_true (stripTrackingParams_of_notMem ?_)
      (h.not_listedInFragment hbefore hmem)
    simp [h.before, hmem]

theorem Cut.strip_correct_iff_of_query (h : Cut url before query fragment)
    (hbefore : '#' ∉ before) (hlen : url.utf8Len ≤ maxStrippableUrlLen) :
    StripCorrect url list ↔ ¬ (ListedInFragment url list ∧ NoQueryLeft url list) := by
  have hspec : stripTrackingParams url list = stripSpec url list :=
    h.stripTrackingParams_eq_stripSpec hbefore hlen
  have hleft : NoQueryLeft url list ↔
      params query ≠ [] ∧ ∀ part ∈ params query, list.contains (paramKey part) = true := by
    simp [NoQueryLeft, h.queryOf_eq hbefore]
  rw [StripCorrect, hleft, and_iff_right hspec]
  by_cases hany : (params query).any fun part => list.contains (paramKey part)
  · rw [h.stripTrackingParams_eq hlen, if_pos hany]
    obtain ⟨part, hpart, -⟩ := List.any_eq_true.mp hany
    by_cases hall : ∀ part ∈ params query, list.contains (paramKey part) = true
    · -- nothing is left of the query
      have hkept : (params query).filter (fun part => !list.contains (paramKey part)) = [] := by
        simpa [List.filter_eq_nil_iff] using hall
      have hleft' : params query ≠ [] ∧
          ∀ part ∈ params query, list.contains (paramKey part) = true :=
        ⟨List.ne_nil_of_mem hpart, hall⟩
      rw [hkept, joinQuery, if_pos rfl, List.append_nil, h.strip_without_query_iff hbefore hlen,
        and_iff_left hleft']
    · refine iff_of_true (h.strip_rejoin ?_ ?_) fun hboth => hall hboth.2.2
      · simpa [List.filter_eq_nil_iff] using hall
      · intro part hin
        simpa using List.mem_filter.mp hin
  · -- nothing is stripped
    have hself : stripTrackingParams url list = url := by
      rw [h.stripTrackingParams_eq hlen, if_neg hany]
    refine iff_of_true (by rw [hself, hself]) ?_
    rintro ⟨-, hne, hall⟩
    obtain ⟨part, hpart⟩ := List.exists_mem_of_ne_nil _ hne
    exact hany (List.any_eq_true.mpr ⟨part, hpart, hall part hpart⟩)

/-! ### A `?` in the fragment, or none -/

theorem Cut.strip_correct_iff_of_fragment (h : Cut url before query fragment)
    (hbefore : '#' ∈ before) (hlen : url.utf8Len ≤ maxStrippableUrlLen) :
    StripCorrect url list ↔ ¬ (ListedInFragment url list ∧ NoQueryLeft url list) := by
  have hnone : queryOf url = none := by
    rw [h.eq]
    exact queryOf_eq_none_of_mem hbefore h.before _
  have hspec : stripSpec url list = url := stripSpec_of_not_listed (by simp [hnone])
  have hleft : NoQueryLeft url list := by simp [NoQueryLeft, hnone]
  have hcorrect : StripCorrect url list ↔ stripTrackingParams url list = url := by
    rw [StripCorrect, hspec]
    exact ⟨fun hboth => hboth.1, fun hself => ⟨hself, by rw [hself, hself]⟩⟩
  rw [hcorrect, h.stripTrackingParams_eq_self_iff hlen]
  simp [hleft, ListedInFragment, h.fragmentQuery_eq hbefore]

theorem strip_correct_of_notMem (hmem : '?' ∉ url) : StripCorrect url list := by
  have hnone : queryOf (url ++ []) = none := queryOf_eq_none hmem (by simp)
  rw [List.append_nil] at hnone
  have hspec : stripSpec url list = url := stripSpec_of_not_listed (by simp [hnone])
  simp [StripCorrect, hspec, stripTrackingParams_of_notMem hmem]

/-- **Stripping does what it is to do, twice over, exactly if no parameter on the list stands
in the fragment of a URL that has no query or keeps nothing of it.** -/
theorem strip_correct_iff (hlen : url.utf8Len ≤ maxStrippableUrlLen) :
    StripCorrect url list ↔ ¬ (ListedInFragment url list ∧ NoQueryLeft url list) := by
  by_cases hmem : '?' ∈ url
  · obtain ⟨before, query, fragment, hcut⟩ := exists_cut hmem
    by_cases hbefore : '#' ∈ before
    · exact hcut.strip_correct_iff_of_fragment hbefore hlen
    · exact hcut.strip_correct_iff_of_query hbefore hlen
  · refine iff_of_true (strip_correct_of_notMem hmem) ?_
    rintro ⟨⟨query, hquery, -⟩, -⟩
    have hfragment : '?' ∉ fragmentOf url := fun h => hmem ((List.dropWhile_sublist _).mem h)
    rw [fragmentQuery, Text.find_eq_none_iff.mpr hfragment] at hquery
    cases hquery

theorem strip_correct_iff_example :
    StripCorrect "https://a/?gclid=1&q=2#x".toList .defaultBootstrap ↔
      ¬ (ListedInFragment "https://a/?gclid=1&q=2#x".toList .defaultBootstrap ∧
        NoQueryLeft "https://a/?gclid=1&q=2#x".toList .defaultBootstrap) :=
  strip_correct_iff (by decide +kernel)

/-- A route in the fragment loses its parameter, where the URL has no query and is to stay as
it is; in another URL the route is rewritten when it is stripped again. -/
theorem fragment_stripped :
    ¬ StripCorrect "https://a/#/r?gclid=1".toList .defaultBootstrap ∧
      stripTrackingParams "https://a/#/r?gclid=1".toList .defaultBootstrap =
        "https://a/#/r".toList ∧
      stripSpec "https://a/#/r?gclid=1".toList .defaultBootstrap =
        "https://a/#/r?gclid=1".toList ∧
      ¬ StripCorrect "https://a/?gclid=1#/r?gclid=2".toList .defaultBootstrap ∧
      stripTrackingParams "https://a/?gclid=1#/r?gclid=2".toList .defaultBootstrap =
        "https://a/#/r?gclid=2".toList := by
  decide +kernel

end Network

end DevBrowse
