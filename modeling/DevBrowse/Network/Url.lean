import DevBrowse.Network.Error
import DevBrowse.Network.UrlStrip

/-!
# Scanning a URL

Two scanners look at a URL before its parameters are stripped: one at its scheme, which has
to be `https`, or `http` when the user approved of it, and one that takes the host out for
the blocklist.

The host depends on the scheme and the authority only, the part behind `://` up to the
first `/`, `?` or `#` (`DevBrowse.Network.parseHost_append`). As stripping changes nothing
before the first `?`, neither scanner can tell the stripped URL from the one it was made of
(`DevBrowse.Network.enforceHttpsOnly_stripTrackingParams`,
`DevBrowse.Network.parseHost_stripTrackingParams`).
-/

namespace DevBrowse

namespace Network

/-! ### The scheme -/

/-- Whether a text starts with another, up to ASCII case. -/
def hasAsciiPrefixCi (haystack needle : Text) : Bool :=
  decide (needle.length ≤ haystack.length) &&
    decide (Text.toAsciiLowercase (haystack.take needle.length) = needle.toAsciiLowercase)

/-- **The check of the scheme.** The URL is returned as it is. -/
def enforceHttpsOnly (url : Text) (downgradeApproved : Bool) : Except NetworkError Text :=
  if hasAsciiPrefixCi url "https://".toList then .ok url
  else if hasAsciiPrefixCi url "http://".toList then
    if downgradeApproved then .ok url else .error .httpsOnlyDowngrade
  else .error .invalidUrl

/-! ### The host -/

/-- The characters that end an authority. -/
def endsAuthority (c : Char) : Bool := c == '/' || c == '?' || c == '#'

/-- What follows the userinfo. A `@` counts only before the first character that ends an
authority. -/
def afterUserinfo (afterScheme : Text) : Text :=
  match afterScheme.find '@' with
  | some i =>
    let before := afterScheme.take i
    if '/' ∉ before ∧ '?' ∉ before ∧ '#' ∉ before then afterScheme.drop (i + 1)
    else afterScheme
  | none => afterScheme

/-- The text up to the first character that ends an authority. -/
def authorityOf (s : Text) : Text := s.take ((s.findIdx? endsAuthority).getD s.length)

/-- The host in an authority without userinfo. -/
def hostOfAuthority (authority : Text) : Option Text :=
  if authority = [] then none
  else
    let host : Option Text :=
      match authority with
      | '[' :: stripped => (Text.find stripped ']').map fun bracketEnd => stripped.take bracketEnd
      | _ =>
        match authority.find ':' with
        | some colon => some (authority.take colon)
        | none => some authority
    host.filter fun host => !host.isEmpty

/-- **The host of a URL.** -/
def parseHost (url : Text) : Option Text :=
  match Text.findStr "://".toList url with
  | none => none
  | some schemeEnd =>
    hostOfAuthority (authorityOf (afterUserinfo (url.drop (schemeEnd + 3))))

variable {url scheme a b rest : Text} {approved : Bool} {list : UrlParamStripList}

/-! ### What the check of the scheme lets through -/

/-- The scheme of a URL, in lower case. -/
def schemeOf (url : Text) : Option Text :=
  (Text.findStr "://".toList url).map fun i => Text.toAsciiLowercase (url.take i)

theorem schemeOf_append (h : ':' ∉ scheme) :
    schemeOf (scheme ++ "://".toList ++ rest) = some scheme.toAsciiLowercase := by
  have hfind : Text.findStr "://".toList (scheme ++ "://".toList ++ rest) = some scheme.length :=
    Text.findStr_append h
  rw [schemeOf, hfind, Option.map_some, List.append_assoc, List.take_left]

/-- A prefix test for a scheme in lower case finds what has that scheme. -/
theorem hasAsciiPrefixCi_iff (scheme : Text) (hlow : scheme.toAsciiLowercase = scheme) :
    hasAsciiPrefixCi url (scheme ++ "://".toList) = true ↔
      ∃ s rest, url = s ++ "://".toList ++ rest ∧ s.toAsciiLowercase = scheme := by
  have hneedle : Text.toAsciiLowercase (scheme ++ "://".toList) = scheme ++ "://".toList := by
    rw [Text.toAsciiLowercase, List.map_append]
    exact congrArg₂ (· ++ ·) hlow (by decide)
  rw [hasAsciiPrefixCi, Bool.and_eq_true, decide_eq_true_eq, decide_eq_true_eq, hneedle]
  constructor
  · rintro ⟨-, htake⟩
    obtain ⟨s, sep, hst, hs, hsep⟩ := List.map_eq_append_iff.mp htake
    obtain rfl : sep = "://".toList := Text.eq_of_toAsciiLowercase_eq hsep (by decide)
    refine ⟨s, url.drop (scheme ++ "://".toList).length, ?_, hs⟩
    rw [← hst, List.take_append_drop]
  · rintro ⟨s, rest, rfl, hs⟩
    have hlen : (scheme ++ "://".toList).length = (s ++ "://".toList).length := by
      rw [← hs, Text.toAsciiLowercase, List.length_append, List.length_map, List.length_append]
    rw [hlen, List.take_left, Text.toAsciiLowercase, List.map_append]
    exact ⟨by simp, congrArg₂ (· ++ ·) hs (by decide)⟩

/-- The schemes a request may use. -/
def Allowed (approved : Bool) (scheme : Text) : Prop :=
  scheme = "https".toList ∨ scheme = "http".toList ∧ approved = true

/-- **What the check of the scheme lets through.** -/
theorem enforceHttpsOnly_eq_ok_iff {url' : Text} :
    enforceHttpsOnly url approved = .ok url' ↔ url' = url ∧
      ∃ s rest, url = s ++ "://".toList ++ rest ∧ Allowed approved s.toAsciiLowercase := by
  have hhttps : hasAsciiPrefixCi url "https://".toList = true ↔ _ :=
    hasAsciiPrefixCi_iff "https".toList (by decide)
  have hhttp : hasAsciiPrefixCi url "http://".toList = true ↔ _ :=
    hasAsciiPrefixCi_iff "http".toList (by decide)
  rw [enforceHttpsOnly]
  constructor
  · intro h
    split at h
    · rename_i hpre
      obtain ⟨s, rest, hurl, hs⟩ := hhttps.mp hpre
      exact ⟨(Except.ok.inj h).symm, s, rest, hurl, .inl hs⟩
    · split at h
      · rename_i hpre
        obtain ⟨s, rest, hurl, hs⟩ := hhttp.mp hpre
        split at h
        · rename_i happroved
          exact ⟨(Except.ok.inj h).symm, s, rest, hurl, .inr ⟨hs, happroved⟩⟩
        · cases h
      · cases h
  · rintro ⟨rfl, s, rest, hurl, hs | ⟨hs, happroved⟩⟩
    · rw [if_pos (hhttps.mpr ⟨s, rest, hurl, hs⟩)]
    · rw [if_pos (hhttp.mpr ⟨s, rest, hurl, hs⟩), if_pos happroved, ite_self]

theorem enforceHttpsOnly_ne_blocked {e : NetworkError}
    (h : enforceHttpsOnly url approved = .error e) : e ≠ .blocked := by
  rw [enforceHttpsOnly] at h
  split at h
  · cases h
  · split at h
    · split at h
      · cases h
      · cases h
        exact NetworkError.noConfusion
    · cases h
      exact NetworkError.noConfusion

theorem Allowed.notMem (h : Allowed approved scheme.toAsciiLowercase) :
    ':' ∉ scheme ∧ '?' ∉ scheme := by
  rcases h with hs | ⟨hs, -⟩
  · exact ⟨Text.notMem_of_toAsciiLowercase hs (by decide),
      Text.notMem_of_toAsciiLowercase hs (by decide)⟩
  · exact ⟨Text.notMem_of_toAsciiLowercase hs (by decide),
      Text.notMem_of_toAsciiLowercase hs (by decide)⟩

/-! ### What the host depends on -/

theorem authorityOf_append (ha : ∀ c ∈ a, endsAuthority c = false)
    (hrest : ∀ c ∈ rest.head?, endsAuthority c = true) : authorityOf (a ++ rest) = a := by
  have hnone : a.findIdx? endsAuthority = none := List.findIdx?_eq_none_iff.mpr ha
  rw [authorityOf, List.findIdx?_append, hnone]
  cases rest with
  | nil => simp
  | cons c rest =>
    rw [List.findIdx?_cons, if_pos (hrest c rfl)]
    simp

theorem afterUserinfo_of_notMem (hat : '@' ∉ a) : afterUserinfo a = a := by
  rw [afterUserinfo, Text.find_eq_none_iff.mpr hat]

/-- The first `@` counts where nothing before it ends the authority. -/
theorem afterUserinfo_append_cons (ha : ∀ c ∈ a, endsAuthority c = false) (hat : '@' ∉ a) :
    afterUserinfo (a ++ '@' :: b) = b := by
  have hends : ∀ c, endsAuthority c = true → c ∉ a := fun c hc hmem => by
    rw [ha c hmem] at hc
    cases hc
  have hnot : '/' ∉ a ∧ '?' ∉ a ∧ '#' ∉ a :=
    ⟨hends _ (by decide), hends _ (by decide), hends _ (by decide)⟩
  rw [afterUserinfo, Text.find_append_cons hat]
  simp only [List.take_left, if_pos hnot]
  simp

/-- Userinfo is looked for in the authority only. -/
theorem authorityOf_afterUserinfo (ha : ∀ c ∈ a, endsAuthority c = false)
    (hrest : ∀ c ∈ rest.head?, endsAuthority c = true) :
    authorityOf (afterUserinfo (a ++ rest)) = afterUserinfo a := by
  by_cases hat : '@' ∈ a
  · obtain ⟨u, v, rfl, hu⟩ := List.eq_append_cons_of_mem hat
    -- the first `@` is in the authority, so nothing before it ends the authority
    have hbefore : ∀ c ∈ u, endsAuthority c = false := fun c hc =>
      ha c (List.mem_append_left _ hc)
    rw [List.append_assoc, List.cons_append, afterUserinfo_append_cons hbefore hu,
      afterUserinfo_append_cons hbefore hu]
    exact authorityOf_append (fun c hc => ha c (by simp [hc])) hrest
  · have hself : afterUserinfo a = a := afterUserinfo_of_notMem hat
    have hskip : afterUserinfo (a ++ rest) = a ++ rest := by
      rw [afterUserinfo]
      split
      · rename_i i hfind
        obtain ⟨u, v, heq, hu, rfl⟩ := Text.exists_of_find hfind
        -- the `@` is past the authority, so a character that ends it comes first
        have hends : ¬ ('/' ∉ u ∧ '?' ∉ u ∧ '#' ∉ u) := by
          rcases List.append_eq_append_iff.mp heq with ⟨w, rfl, hw⟩ | ⟨w, rfl, hw⟩
          · cases w with
            | nil =>
              have hhead : rest.head? = some '@' := by rw [hw]; rfl
              exact absurd (hrest '@' hhead) (by decide)
            | cons d w =>
              have hd : endsAuthority d = true := hrest d (by rw [hw]; rfl)
              simp only [endsAuthority, Bool.or_eq_true, beq_iff_eq] at hd
              rcases hd with (rfl | rfl) | rfl <;> simp
          · cases w with
            | nil =>
              have hhead : rest.head? = some '@' := by rw [← List.nil_append rest, ← hw]; rfl
              exact absurd (hrest '@' hhead) (by decide)
            | cons d w =>
              obtain rfl : '@' = d := Option.some.inj (congrArg List.head? hw)
              exact absurd (by simp) hat
        rw [heq, List.take_left, if_neg hends]
      · rfl
    rw [hself, hskip, authorityOf_append ha hrest]

/-- **The host depends on the authority only.** -/
theorem parseHost_append (hscheme : ':' ∉ scheme) (ha : ∀ c ∈ a, endsAuthority c = false)
    (hrest : ∀ c ∈ rest.head?, endsAuthority c = true) :
    parseHost (scheme ++ "://".toList ++ (a ++ rest)) = hostOfAuthority (afterUserinfo a) := by
  have hfind : Text.findStr "://".toList (scheme ++ "://".toList ++ (a ++ rest)) =
      some scheme.length := Text.findStr_append hscheme
  have hdrop : (scheme ++ "://".toList ++ (a ++ rest)).drop (scheme.length + 3) = a ++ rest := by
    rw [List.append_assoc, List.drop_append]
    simp
  rw [parseHost, hfind]
  simp only [hdrop, authorityOf_afterUserinfo ha hrest]

/-! ### The scanners after stripping -/

/-- Stripping behind a front without a `?`. -/
theorem stripTrackingParams_append_cases (hfront : '?' ∉ a) (rest : Text)
    (list : UrlParamStripList) :
    stripTrackingParams (a ++ rest) list = a ++ rest ∨ ∃ before afterQ rest',
      rest = before ++ '?' :: afterQ ∧
      stripTrackingParams (a ++ rest) list = a ++ (before ++ rest') ∧
      ∀ c ∈ rest'.head?, c = '?' ∨ c = '#' := by
  rcases stripTrackingParams_cases (a ++ rest) list with hsame | ⟨b, afterQ, r, heq, hstrip, hr⟩
  · exact .inl hsame
  · rcases List.append_eq_append_iff.mp heq with ⟨w, rfl, hw⟩ | ⟨w, rfl, hw⟩
    · exact .inr ⟨w, afterQ, r, hw, by rw [hstrip, List.append_assoc], hr⟩
    · cases w with
      | nil =>
        refine .inr ⟨[], afterQ, r, by simpa using hw.symm, ?_, hr⟩
        rw [hstrip, List.append_nil, List.nil_append]
      | cons d w =>
        obtain rfl : '?' = d := Option.some.inj (congrArg List.head? hw)
        exact absurd (by simp) hfront

/-- **The stripped URL passes the check of the scheme alike.** -/
theorem enforceHttpsOnly_stripTrackingParams (h : enforceHttpsOnly url approved = .ok url)
    (list : UrlParamStripList) :
    enforceHttpsOnly (stripTrackingParams url list) approved =
      .ok (stripTrackingParams url list) := by
  obtain ⟨-, s, rest, rfl, hs⟩ := enforceHttpsOnly_eq_ok_iff.mp h
  have hfront : '?' ∉ s ++ "://".toList := by simp [hs.notMem.2]
  rw [enforceHttpsOnly_eq_ok_iff]
  refine ⟨rfl, s, ?_⟩
  rcases stripTrackingParams_append_cases hfront rest list with hsame | ⟨b, _, r, -, hstrip, -⟩
  · exact ⟨rest, hsame, hs⟩
  · exact ⟨b ++ r, hstrip, hs⟩

/-- **The stripped URL has the host of the URL.** -/
theorem parseHost_stripTrackingParams (h : enforceHttpsOnly url approved = .ok url)
    (list : UrlParamStripList) : parseHost (stripTrackingParams url list) = parseHost url := by
  obtain ⟨-, s, rest, rfl, hs⟩ := enforceHttpsOnly_eq_ok_iff.mp h
  have hfront : '?' ∉ s ++ "://".toList := by simp [hs.notMem.2]
  rcases stripTrackingParams_append_cases hfront rest list with hsame | ⟨b, q, r, rfl, hstrip, hr⟩
  · rw [hsame]
  · obtain ⟨a, tail, rfl, ha, htail⟩ := Text.exists_cut endsAuthority b
    -- the authority ends before the query, and what follows it ends it in both URLs
    have hends : ∀ x : Text, (∀ c ∈ x.head?, endsAuthority c = true) →
        ∀ c ∈ (tail ++ x).head?, endsAuthority c = true := by
      intro x hx c hc
      cases tail with
      | nil => exact hx c hc
      | cons d tail => exact htail c hc
    have hstripped : ∀ c ∈ (tail ++ r).head?, endsAuthority c = true := by
      refine hends r fun c hc => ?_
      rcases hr c hc with rfl | rfl <;> rfl
    have horiginal : ∀ c ∈ (tail ++ '?' :: q).head?, endsAuthority c = true := by
      refine hends ('?' :: q) fun c hc => ?_
      obtain rfl : '?' = c := Option.some.inj hc
      rfl
    rw [hstrip, List.append_assoc a tail r, List.append_assoc a tail ('?' :: q),
      parseHost_append hs.notMem.1 ha hstripped, parseHost_append hs.notMem.1 ha horiginal]

end Network

end DevBrowse
