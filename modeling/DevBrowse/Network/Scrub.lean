import DevBrowse.Lib.Keyed
import DevBrowse.Network.Headers

/-!
# What scrubbing hides

What a request says about its renderer is in the headers the renderer may not set. Scrubbing
makes the same headers of any two lists that differ in those only, puts every header of the
policy in exactly once, keeps what passes through as it is, and has nothing left to do on what
it made (`DevBrowse.Network.scrubbed`).

Whether a `Referer` is sent is decided by the policy's choice for it and by the target, not by
the policy's mode: a policy for the strict mode that was made with another choice sends one
(`DevBrowse.Network.referer_strict`).

The names that may not be set are listed one by one, also those that belong to a family of
names. What is not on the list passes through
(`DevBrowse.Network.familyScrubbed_iff`).
-/

namespace DevBrowse

namespace Network

variable {policy : HeaderPolicy} {siteOrigin targetHost targetUrl : Text} {headers : List Header}
  {header : Header}

/-- The name of a header, up to case. -/
def nameOf (header : Header) : Text := header.1.toAsciiLowercase

/-! ### The headers of the policy -/

/-- The names a policy may set, the one of the `Referer` apart. -/
def injectedNames : List Text :=
  ["user-agent", "accept-language", "accept-encoding", "dnt", "sec-gpc"].map String.toList

/-- The names a policy sets, with the one of the `Referer` where there is one. -/
theorem names_injected_sublist (policy : HeaderPolicy) (siteOrigin targetHost targetUrl : Text) :
    ((injected policy siteOrigin targetHost targetUrl).map nameOf).Sublist
      (injectedNames ++ (computeReferer policy.referer siteOrigin targetHost targetUrl).toList.map
        fun _ => "referer".toList) := by
  have hnames : injectedNames = ["user-agent", "accept-language", "accept-encoding"].map
      String.toList ++ ["dnt".toList] ++ ["sec-gpc".toList] := rfl
  rw [injected, List.map_append, List.map_append, List.map_append, hnames]
  refine ((List.Sublist.append ?_ ?_).append ?_).append ?_
  · exact List.Sublist.refl _
  · split
    · exact List.Sublist.refl _
    · exact List.nil_sublist _
  · split
    · exact List.Sublist.refl _
    · exact List.nil_sublist _
  · cases computeReferer policy.referer siteOrigin targetHost targetUrl with
    | none => exact List.nil_sublist _
    | some referer => exact List.Sublist.refl _

/-- The policy sets no name twice. -/
theorem nodup_names_injected :
    ((injected policy siteOrigin targetHost targetUrl).map nameOf).Nodup := by
  refine List.Nodup.sublist (names_injected_sublist policy siteOrigin targetHost targetUrl) ?_
  cases computeReferer policy.referer siteOrigin targetHost targetUrl with
  | none => exact (by decide : injectedNames.Nodup)
  | some referer => exact (by decide : (injectedNames ++ ["referer".toList]).Nodup)

theorem nameOf_mem_of_injected (h : header ∈ injected policy siteOrigin targetHost targetUrl) :
    nameOf header ∈ injectedNames ∨ nameOf header = "referer".toList ∧
      computeReferer policy.referer siteOrigin targetHost targetUrl ≠ none := by
  have hmem := (names_injected_sublist policy siteOrigin targetHost targetUrl).subset
    (List.mem_map_of_mem h)
  rcases List.mem_append.mp hmem with hname | hname
  · exact .inl hname
  · obtain ⟨referer, hreferer, heq⟩ := List.mem_map.mp hname
    rw [Option.mem_toList] at hreferer
    exact .inr ⟨heq.symm, by simp [Option.mem_def.mp hreferer]⟩

theorem nameOf_mem_overrideNames
    (h : header ∈ injected policy siteOrigin targetHost targetUrl) :
    nameOf header ∈ overrideNames := by
  rcases nameOf_mem_of_injected h with hname | ⟨hname, -⟩
  · exact (by decide : ∀ name ∈ injectedNames, name ∈ overrideNames) _ hname
  · rw [hname]
    decide

/-- A renderer may set no name that the policy sets. -/
theorem not_passesThrough_of_injected
    (h : header ∈ injected policy siteOrigin targetHost targetUrl) :
    passesThrough header = false :=
  decide_eq_false fun hpass => hpass.2 (nameOf_mem_overrideNames h)

/-- **The headers a policy sets**: the browser, the languages and the encodings, and what its
choices and the target ask for. -/
theorem mem_injected_iff :
    header ∈ injected policy siteOrigin targetHost targetUrl ↔
      header ∈ [("User-Agent".toList, policy.userAgent),
          ("Accept-Language".toList, policy.acceptLanguage),
          ("Accept-Encoding".toList, policy.acceptEncoding)] ∨
        policy.sendDnt = true ∧ header = ("DNT".toList, "1".toList) ∨
        policy.sendSecGpc = true ∧ header = ("Sec-GPC".toList, "1".toList) ∨
        ∃ referer, computeReferer policy.referer siteOrigin targetHost targetUrl = some referer ∧
          header = ("Referer".toList, referer) := by
  rw [injected, List.mem_append, List.mem_append, List.mem_append, or_assoc, or_assoc]
  refine or_congr Iff.rfl (or_congr ?_ (or_congr ?_ ?_))
  · split
    · rename_i hdnt
      rw [List.mem_singleton, and_iff_right hdnt]
    · rename_i hdnt
      exact iff_of_false List.not_mem_nil fun hsent => hdnt hsent.1
  · split
    · rename_i hgpc
      rw [List.mem_singleton, and_iff_right hgpc]
    · rename_i hgpc
      exact iff_of_false List.not_mem_nil fun hsent => hgpc hsent.1
  · cases computeReferer policy.referer siteOrigin targetHost targetUrl with
    | none => exact iff_of_false List.not_mem_nil fun ⟨_, hsent, _⟩ => by cases hsent
    | some referer =>
      rw [List.mem_singleton]
      exact ⟨fun heq => ⟨referer, rfl, heq⟩, fun ⟨_, hsent, heq⟩ => by cases hsent; exact heq⟩

/-! ### What comes out -/

/-- The `Accept` that is put in for a request without one. -/
def defaultAccept (policy : HeaderPolicy) (headers : List Header) : List Header :=
  if headers.any fun header => nameOf header = "accept".toList then []
  else [("Accept".toList, policy.acceptDefault)]

theorem nameOf_accept (value : Text) : nameOf ("Accept".toList, value) = "accept".toList :=
  (by decide : Text.toAsciiLowercase "Accept".toList = "accept".toList)

theorem passesThrough_of_accept (h : nameOf header = "accept".toList) :
    passesThrough header = true := by
  rw [passesThrough, decide_eq_true_eq]
  change nameOf header ∉ stripNames ∧ nameOf header ∉ overrideNames
  rw [h]
  decide

/-- Looking for an `Accept` among all headers is looking among those that pass. -/
theorem any_accept_filter (headers : List Header) :
    ((headers.filter passesThrough).any fun header => nameOf header = "accept".toList) =
      headers.any fun header => nameOf header = "accept".toList := by
  rw [List.any_filter]
  refine List.any_congr rfl fun header => ?_
  by_cases haccept : nameOf header = "accept".toList
  · rw [passesThrough_of_accept haccept, Bool.true_and]
  · rw [decide_eq_false haccept, Bool.and_false]

theorem defaultAccept_filter (policy : HeaderPolicy) (headers : List Header) :
    defaultAccept policy (headers.filter passesThrough) = defaultAccept policy headers := by
  rw [defaultAccept, defaultAccept, any_accept_filter]

/-- Once there is an `Accept`, none is put in. -/
theorem defaultAccept_append (policy : HeaderPolicy) (headers : List Header) :
    defaultAccept policy (headers ++ defaultAccept policy headers) = [] := by
  refine if_pos ?_
  rw [List.any_append, defaultAccept]
  split
  · rename_i hany
    rw [hany, Bool.true_or]
  · rw [List.any_cons, decide_eq_true (nameOf_accept policy.acceptDefault), Bool.true_or,
      Bool.or_true]

/-- **The headers of the policy, what passes through, and an `Accept`.** -/
theorem scrub_eq_append (policy : HeaderPolicy) (siteOrigin targetHost targetUrl : Text)
    (headers : List Header) :
    scrub policy siteOrigin targetHost targetUrl headers =
      injected policy siteOrigin targetHost targetUrl ++
        (headers.filter passesThrough ++ defaultAccept policy (headers.filter passesThrough)) := by
  rw [scrub_eq, List.append_assoc]
  rfl

theorem mem_defaultAccept (h : header ∈ defaultAccept policy headers) :
    header = ("Accept".toList, policy.acceptDefault) := by
  rw [defaultAccept] at h
  split at h
  · exact absurd h List.not_mem_nil
  · exact List.mem_singleton.mp h

theorem filter_passesThrough_scrub (policy : HeaderPolicy)
    (siteOrigin targetHost targetUrl : Text) (headers : List Header) :
    (scrub policy siteOrigin targetHost targetUrl headers).filter passesThrough =
      headers.filter passesThrough ++ defaultAccept policy headers := by
  have hinjected : (injected policy siteOrigin targetHost targetUrl).filter passesThrough = [] :=
    List.filter_eq_nil_iff.mpr fun header h =>
      Bool.eq_false_iff.mp (not_passesThrough_of_injected h)
  have haccept : (defaultAccept policy headers).filter passesThrough =
      defaultAccept policy headers :=
    List.filter_eq_self.mpr fun header h => by
      rw [mem_defaultAccept h]
      exact passesThrough_of_accept (nameOf_accept _)
  rw [scrub_eq_append, defaultAccept_filter, List.filter_append, List.filter_append, hinjected,
    haccept, List.filter_filter, List.nil_append]
  simp

/-- No `Referer` comes out that was not computed. -/
theorem nameOf_ne_referer
    (hnone : computeReferer policy.referer siteOrigin targetHost targetUrl = none)
    (h : header ∈ scrub policy siteOrigin targetHost targetUrl headers) :
    nameOf header ≠ "referer".toList := by
  rw [scrub_eq_append, List.mem_append, List.mem_append] at h
  rcases h with h | h | h
  · rcases nameOf_mem_of_injected h with hname | ⟨-, hsome⟩
    · rintro heq
      rw [heq] at hname
      exact absurd hname (by decide)
    · exact absurd hnone hsome
  · rintro heq
    have hpass := of_decide_eq_true (List.mem_filter.mp h).2
    change nameOf header ∉ stripNames ∧ nameOf header ∉ overrideNames at hpass
    rw [heq] at hpass
    exact hpass.2 (by decide)
  · rw [mem_defaultAccept h, nameOf_accept]
    decide

/-! ### The headers of a name -/

/-- The headers of a name. -/
def named (name : Text) (headers : List Header) : List Header :=
  headers.filter fun header => nameOf header = name

/-- Of a name that the policy sets, nothing else comes out. -/
theorem named_scrub {name : Text} (hname : name ∈ overrideNames) (policy : HeaderPolicy)
    (siteOrigin targetHost targetUrl : Text) (headers : List Header) :
    named name (scrub policy siteOrigin targetHost targetUrl headers) =
      named name (injected policy siteOrigin targetHost targetUrl) := by
  have hother : ∀ header, passesThrough header = true → nameOf header ≠ name := by
    rintro header hpass rfl
    exact (of_decide_eq_true hpass).2 hname
  have hrest : named name (headers.filter passesThrough ++
      defaultAccept policy (headers.filter passesThrough)) = [] := by
    refine List.filter_eq_nil_iff.mpr fun header hmem => ?_
    rw [decide_eq_true_eq]
    refine hother header ?_
    rcases List.mem_append.mp hmem with hmem | hmem
    · exact (List.mem_filter.mp hmem).2
    · rw [mem_defaultAccept hmem]
      exact passesThrough_of_accept (nameOf_accept _)
  rw [scrub_eq_append, named, List.filter_append]
  exact (congrArg _ hrest).trans (List.append_nil _)

/-- A header of the policy is the only one of its name. -/
theorem named_injected (header : Header)
    (h : header ∈ injected policy siteOrigin targetHost targetUrl) :
    named (nameOf header) (injected policy siteOrigin targetHost targetUrl) = [header] :=
  Keyed.filter_eq_singleton nodup_names_injected h

theorem named_eq_nil {name : Text} {headers : List Header}
    (h : ∀ header ∈ headers, nameOf header ≠ name) : named name headers = [] :=
  List.filter_eq_nil_iff.mpr fun header hmem hname => h header hmem (of_decide_eq_true hname)

theorem nameOf_ne {name lower : Text} (value : Text) (h : name.toAsciiLowercase ≠ lower) :
    nameOf (name, value) ≠ lower := h

/-- The names of the headers that every policy sets. -/
theorem ne_of_always {name : Text}
    (h : header ∈ [("User-Agent".toList, policy.userAgent),
      ("Accept-Language".toList, policy.acceptLanguage),
      ("Accept-Encoding".toList, policy.acceptEncoding)])
    (hname : ∀ always ∈ ["User-Agent", "Accept-Language", "Accept-Encoding"].map String.toList,
      Text.toAsciiLowercase always ≠ name) : nameOf header ≠ name :=
  hname header.1 (List.mem_map_of_mem h)

/-- The value of the `Referer`, where there is to be one. -/
theorem computeReferer_eq (referer : RefererPolicy) (siteOrigin targetHost targetUrl : Text) :
    computeReferer referer siteOrigin targetHost targetUrl =
      if referer = .strictOriginWhenCrossOrigin ∧ siteOrigin ≠ [] ∧
          hasAsciiPrefixCi targetUrl "http://".toList = false then
        some ("https://".toList ++ siteOrigin ++ "/".toList)
      else none := by
  rw [computeReferer]
  cases referer with
  | noReferrer => simp
  | strictOriginWhenCrossOrigin =>
    by_cases hsite : siteOrigin = [] <;>
      cases htarget : hasAsciiPrefixCi targetUrl "http://".toList <;> simp [hsite]

/-- **What is scrubbed shows nothing of the headers a renderer may not set.** -/
structure Scrubbed (policy : HeaderPolicy) (siteOrigin targetHost targetUrl : Text)
    (headers out : List Header) : Prop where
  /-- Requests that differ in those only come out the same. -/
  hides : ∀ headers', headers'.filter passesThrough = headers.filter passesThrough →
    scrub policy siteOrigin targetHost targetUrl headers' = out
  /-- The browser is the one of the policy. -/
  user_agent : named "user-agent".toList out = [("User-Agent".toList, policy.userAgent)]
  /-- So are the languages. -/
  accept_language :
    named "accept-language".toList out = [("Accept-Language".toList, policy.acceptLanguage)]
  /-- So are the encodings. -/
  accept_encoding :
    named "accept-encoding".toList out = [("Accept-Encoding".toList, policy.acceptEncoding)]
  /-- `DNT` is sent if the policy says so. -/
  dnt : named "dnt".toList out = if policy.sendDnt then [("DNT".toList, "1".toList)] else []
  /-- So is `Sec-GPC`. -/
  sec_gpc : named "sec-gpc".toList out =
    if policy.sendSecGpc then [("Sec-GPC".toList, "1".toList)] else []
  /-- A `Referer` is the origin, of a page that has one, for a target that is encrypted. -/
  referer : named "referer".toList out =
    if policy.referer = .strictOriginWhenCrossOrigin ∧ siteOrigin ≠ [] ∧
        hasAsciiPrefixCi targetUrl "http://".toList = false then
      [("Referer".toList, "https://".toList ++ siteOrigin ++ "/".toList)]
    else []
  /-- Nothing comes out that a renderer may not set and the policy does not. -/
  stripped : ∀ header ∈ out, nameOf header ∉ stripNames
  /-- What passes through comes out as it was, in order; an `Accept` is added if there was
  none. -/
  passed : out.filter passesThrough =
    headers.filter passesThrough ++ defaultAccept policy headers
  /-- A target that is not encrypted is sent no `Referer`. -/
  no_referer_http : hasAsciiPrefixCi targetUrl "http://".toList = true →
    ∀ header ∈ out, nameOf header ≠ "referer".toList
  /-- Neither is any, where the policy is to send none. -/
  no_referer_noReferrer : policy.referer = .noReferrer →
    ∀ header ∈ out, nameOf header ≠ "referer".toList
  /-- Neither does the policy of the strict mode send one. -/
  no_referer_strict : policy = .strict ∨ policy = .forMode .strict →
    ∀ header ∈ out, nameOf header ≠ "referer".toList
  /-- Scrubbing it changes nothing. -/
  idem : scrub policy siteOrigin targetHost targetUrl out = out

/-- `DNT` is sent if the policy says so. -/
theorem named_dnt (policy : HeaderPolicy) (siteOrigin targetHost targetUrl : Text)
    (headers : List Header) :
    named "dnt".toList (scrub policy siteOrigin targetHost targetUrl headers) =
      if policy.sendDnt then [("DNT".toList, "1".toList)] else [] := by
  rw [named_scrub (by decide)]
  split
  · rename_i hdnt
    exact named_injected ("DNT".toList, "1".toList)
      (mem_injected_iff.mpr (.inr (.inl ⟨hdnt, rfl⟩)))
  · rename_i hdnt
    refine named_eq_nil fun header hmem => ?_
    rcases mem_injected_iff.mp hmem with halways | ⟨hsent, -⟩ | ⟨-, rfl⟩ | ⟨referer, -, rfl⟩
    · exact ne_of_always halways (by decide)
    · exact absurd hsent hdnt
    · exact nameOf_ne _ (by decide)
    · exact nameOf_ne _ (by decide)

/-- `Sec-GPC` is sent if the policy says so. -/
theorem named_secGpc (policy : HeaderPolicy) (siteOrigin targetHost targetUrl : Text)
    (headers : List Header) :
    named "sec-gpc".toList (scrub policy siteOrigin targetHost targetUrl headers) =
      if policy.sendSecGpc then [("Sec-GPC".toList, "1".toList)] else [] := by
  rw [named_scrub (by decide)]
  split
  · rename_i hgpc
    exact named_injected ("Sec-GPC".toList, "1".toList)
      (mem_injected_iff.mpr (.inr (.inr (.inl ⟨hgpc, rfl⟩))))
  · rename_i hgpc
    refine named_eq_nil fun header hmem => ?_
    rcases mem_injected_iff.mp hmem with halways | ⟨-, rfl⟩ | ⟨hsent, -⟩ | ⟨referer, -, rfl⟩
    · exact ne_of_always halways (by decide)
    · exact nameOf_ne _ (by decide)
    · exact absurd hsent hgpc
    · exact nameOf_ne _ (by decide)

/-- A `Referer` is sent if there is to be one. -/
theorem named_referer (policy : HeaderPolicy) (siteOrigin targetHost targetUrl : Text)
    (headers : List Header) :
    named "referer".toList (scrub policy siteOrigin targetHost targetUrl headers) =
      (computeReferer policy.referer siteOrigin targetHost targetUrl).toList.map
        fun referer => ("Referer".toList, referer) := by
  cases hreferer : computeReferer policy.referer siteOrigin targetHost targetUrl with
  | none => exact named_eq_nil fun header hmem => nameOf_ne_referer hreferer hmem
  | some referer =>
    rw [named_scrub (by decide)]
    exact named_injected ("Referer".toList, referer)
      (mem_injected_iff.mpr (.inr (.inr (.inr ⟨referer, hreferer, rfl⟩))))

theorem not_mem_stripNames_scrub
    (h : header ∈ scrub policy siteOrigin targetHost targetUrl headers) :
    nameOf header ∉ stripNames := by
  rw [scrub_eq_append, List.mem_append, List.mem_append] at h
  rcases h with h | h | h
  · have hset : ∀ name ∈ overrideNames, name ∉ stripNames := by decide
    exact hset _ (nameOf_mem_overrideNames h)
  · exact (of_decide_eq_true (List.mem_filter.mp h).2).1
  · rw [mem_defaultAccept h, nameOf_accept]
    decide

/-- **Scrubbing hides what a renderer may not set.** -/
theorem scrubbed (policy : HeaderPolicy) (siteOrigin targetHost targetUrl : Text)
    (headers : List Header) :
    Scrubbed policy siteOrigin targetHost targetUrl headers
      (scrub policy siteOrigin targetHost targetUrl headers) where
  hides headers' heq := by rw [scrub_eq_append, scrub_eq_append, heq]
  user_agent := (named_scrub (by decide) ..).trans
    (named_injected ("User-Agent".toList, _) (mem_injected_iff.mpr (.inl (.head _))))
  accept_language := (named_scrub (by decide) ..).trans
    (named_injected ("Accept-Language".toList, _)
      (mem_injected_iff.mpr (.inl (.tail _ (.head _)))))
  accept_encoding := (named_scrub (by decide) ..).trans
    (named_injected ("Accept-Encoding".toList, _)
      (mem_injected_iff.mpr (.inl (.tail _ (.tail _ (.head _))))))
  dnt := named_dnt ..
  sec_gpc := named_secGpc ..
  referer := by
    rw [named_referer, computeReferer_eq]
    split <;> rfl
  stripped _ := not_mem_stripNames_scrub
  passed := filter_passesThrough_scrub ..
  no_referer_http hhttp _ :=
    nameOf_ne_referer (by rw [computeReferer, if_pos hhttp, ite_self, ite_self])
  no_referer_noReferrer hno _ :=
    nameOf_ne_referer (by rw [computeReferer, if_pos hno])
  no_referer_strict hstrict _ := by
    have hno : policy.referer = .noReferrer := by rcases hstrict with rfl | rfl <;> rfl
    exact nameOf_ne_referer (by rw [computeReferer, if_pos hno])
  idem := by
    rw [scrub_eq_append policy siteOrigin targetHost targetUrl (scrub _ _ _ _ _),
      filter_passesThrough_scrub, scrub_eq_append, ← defaultAccept_filter, defaultAccept_append,
      List.append_nil]

/-- A policy for the strict mode: the mode of a policy and its choice for the `Referer` are
fields of their own. -/
def strictWithReferer : HeaderPolicy := { HeaderPolicy.standard with mode := .strict }

/-- **It sends a `Referer`.** -/
theorem referer_strict :
    strictWithReferer.mode = .strict ∧ ("Referer".toList, "https://a.example/".toList) ∈
      scrub strictWithReferer "a.example".toList "b.example".toList "https://b.example/".toList
        [] := by
  decide +kernel

/-! ### Families of names -/

/-- Whether a name belongs to one of the families a renderer may set nothing of. -/
def inFamily (name : Text) : Bool :=
  "sec-ch-ua".toList.isPrefixOf name || "x-forwarded-".toList.isPrefixOf name

/-- Nothing of a family comes out. -/
def FamilyScrubbed (out : List Header) : Prop := ∀ header ∈ out, inFamily (nameOf header) = false

theorem not_inFamily_of_injected
    (h : header ∈ injected policy siteOrigin targetHost targetUrl) :
    inFamily (nameOf header) = false := by
  rcases nameOf_mem_of_injected h with hname | ⟨hname, -⟩
  · exact (by decide : ∀ name ∈ injectedNames, inFamily name = false) _ hname
  · rw [hname]
    decide

/-- **Nothing of the families comes out** exactly if the request has nothing of them but the
names that are listed. -/
theorem familyScrubbed_iff (policy : HeaderPolicy) (siteOrigin targetHost targetUrl : Text)
    (headers : List Header) :
    FamilyScrubbed (scrub policy siteOrigin targetHost targetUrl headers) ↔
      ∀ header ∈ headers, inFamily (nameOf header) = true → nameOf header ∈ stripNames := by
  have hoverride : ∀ name ∈ overrideNames, inFamily name = false := by decide
  constructor
  · intro hscrubbed header hmem hfamily
    by_contra hstrip
    have hpass : passesThrough header = true := by
      refine decide_eq_true ⟨hstrip, fun hin => ?_⟩
      rw [hoverride (nameOf header) hin] at hfamily
      exact absurd hfamily Bool.false_ne_true
    have hout : header ∈ scrub policy siteOrigin targetHost targetUrl headers := by
      rw [scrub_eq_append]
      exact List.mem_append_right _
        (List.mem_append_left _ (List.mem_filter.mpr ⟨hmem, hpass⟩))
    exact absurd hfamily (Bool.eq_false_iff.mp (hscrubbed header hout))
  · intro hlisted header hout
    rw [scrub_eq_append, List.mem_append, List.mem_append] at hout
    rcases hout with h | h | h
    · exact not_inFamily_of_injected h
    · obtain ⟨hmem, hpass⟩ := List.mem_filter.mp h
      rw [Bool.eq_false_iff]
      exact fun hfamily => (of_decide_eq_true hpass).1 (hlisted header hmem hfamily)
    · rw [mem_defaultAccept h, nameOf_accept]
      decide

/-- A header of each family that is not listed. -/
def unlistedHeaders : List Header :=
  [("Sec-CH-UA-Form-Factors".toList, "\"Desktop\"".toList),
    ("X-Forwarded-Server".toList, "proxy.corp.example".toList)]

/-- The headers of a request to another site. -/
def scrubUnlisted (mode : Mode) : List Header :=
  scrub (.forMode mode) "a.example".toList "b.example".toList "https://b.example/".toList
    unlistedHeaders

/-- **They pass through**, in either mode. -/
theorem not_familyScrubbed_unlisted :
    ((scrubUnlisted .standard).filter fun header => inFamily (nameOf header)) =
        unlistedHeaders ∧
      ((scrubUnlisted .strict).filter fun header => inFamily (nameOf header)) =
        unlistedHeaders := by
  decide +kernel

end Network

end DevBrowse
