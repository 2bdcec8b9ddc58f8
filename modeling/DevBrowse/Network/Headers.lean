import DevBrowse.Basic
import DevBrowse.Network.Url

/-!
# Scrubbing headers

The headers of a request are rewritten before it is dispatched: some names a renderer may
not set at all, some are set by the policy of the privacy mode, and the rest passes through.
What comes out is the headers of the policy, the ones that pass in their order, and a
default `Accept` if none passed (`DevBrowse.Network.scrub_eq`).
-/

namespace DevBrowse

namespace Network

/-- A header: a name and a value. -/
abbrev Header := Text × Text

/-- The browser every request says it comes from. -/
def devbrowseUserAgent : Text :=
  "Mozilla/5.0 (X11; Linux x86_64; rv:128.0) Gecko/20100101 Firefox/128.0".toList

/-- The languages every request asks for. -/
def devbrowseAcceptLanguage : Text := "en-US,en;q=0.5".toList

/-- The encodings every request asks for. -/
def devbrowseAcceptEncoding : Text := "gzip, br, zstd".toList

/-- What a request accepts that does not say so itself. -/
def devbrowseAcceptDefault : Text :=
  ("text/html,application/xhtml+xml,application/xml;q=0.9,image/avif,image/webp,*/*;" ++
    "q=0.8").toList

/-- What is told about the page a request comes from. -/
inductive RefererPolicy where
  /-- The origin, unless the target is not encrypted. -/
  | strictOriginWhenCrossOrigin
  /-- Nothing. -/
  | noReferrer
  deriving DecidableEq

/-- **The headers of a privacy mode.** -/
structure HeaderPolicy where
  /-- The mode. -/
  mode : Mode
  /-- What is told about the page. -/
  referer : RefererPolicy
  /-- The value of `User-Agent`. -/
  userAgent : Text
  /-- The value of `Accept-Language`. -/
  acceptLanguage : Text
  /-- The value of `Accept-Encoding`. -/
  acceptEncoding : Text
  /-- The value of `Accept` when the request has none. -/
  acceptDefault : Text
  /-- Whether `DNT` is sent. -/
  sendDnt : Bool
  /-- Whether `Sec-GPC` is sent. -/
  sendSecGpc : Bool
  deriving DecidableEq

namespace HeaderPolicy

/-- The policy of the standard mode. -/
def standard : HeaderPolicy :=
  ⟨.standard, .strictOriginWhenCrossOrigin, devbrowseUserAgent, devbrowseAcceptLanguage,
    devbrowseAcceptEncoding, devbrowseAcceptDefault, true, true⟩

/-- The policy of the strict mode. -/
def strict : HeaderPolicy :=
  ⟨.strict, .noReferrer, devbrowseUserAgent, devbrowseAcceptLanguage, devbrowseAcceptEncoding,
    devbrowseAcceptDefault, true, true⟩

/-- The policy of a mode. -/
def forMode : Mode → HeaderPolicy
  | .standard => standard
  | .strict => strict

end HeaderPolicy

/-- The names a renderer may not set. -/
def stripNames : List Text :=
  ["cookie", "sec-ch-ua", "sec-ch-ua-mobile", "sec-ch-ua-platform",
    "sec-ch-ua-platform-version", "sec-ch-ua-arch", "sec-ch-ua-bitness",
    "sec-ch-ua-full-version", "sec-ch-ua-full-version-list", "sec-ch-ua-model",
    "sec-ch-ua-wow64", "x-requested-with", "x-forwarded-for", "x-forwarded-host",
    "x-forwarded-proto", "x-forwarded-port", "via", "forwarded"].map String.toList

/-- The names whose value the policy sets. -/
def overrideNames : List Text :=
  ["user-agent", "accept-language", "accept-encoding", "referer", "dnt", "sec-gpc"].map
    String.toList

/-- The value of `Referer`, if there is to be one. The host of the target is not looked
at. -/
def computeReferer (policy : RefererPolicy) (siteOrigin _targetHost targetUrl : Text) :
    Option Text :=
  if policy = .noReferrer then none
  else if siteOrigin = [] then none
  else if hasAsciiPrefixCi targetUrl "http://".toList then none
  else some ("https://".toList ++ siteOrigin ++ "/".toList)

/-- The headers the policy sets. -/
def injected (policy : HeaderPolicy) (siteOrigin targetHost targetUrl : Text) : List Header :=
  [("User-Agent".toList, policy.userAgent), ("Accept-Language".toList, policy.acceptLanguage),
    ("Accept-Encoding".toList, policy.acceptEncoding)] ++
  (if policy.sendDnt then [("DNT".toList, "1".toList)] else []) ++
  (if policy.sendSecGpc then [("Sec-GPC".toList, "1".toList)] else []) ++
  match computeReferer policy.referer siteOrigin targetHost targetUrl with
  | some referer => [("Referer".toList, referer)]
  | none => []

/-- One turn of the loop over the headers, with the headers so far and whether one of them
was an `Accept` of the request. -/
def scrubHeader (acc : List Header × Bool) (header : Header) : List Header × Bool :=
  let lower := header.1.toAsciiLowercase
  if lower ∈ stripNames then acc
  else if lower ∈ overrideNames then acc
  else (acc.1 ++ [header], acc.2 || decide (lower = "accept".toList))

/-- **The headers a request is dispatched with.** -/
def scrub (policy : HeaderPolicy) (siteOrigin targetHost targetUrl : Text)
    (headers : List Header) : List Header :=
  let (out, rendererSuppliedAccept) :=
    headers.foldl scrubHeader (injected policy siteOrigin targetHost targetUrl, false)
  if rendererSuppliedAccept then out else out ++ [("Accept".toList, policy.acceptDefault)]

/-- A header that passes through. -/
def passesThrough (header : Header) : Bool :=
  decide (header.1.toAsciiLowercase ∉ stripNames ∧ header.1.toAsciiLowercase ∉ overrideNames)

theorem foldl_scrubHeader (headers : List Header) (acc : List Header × Bool) :
    headers.foldl scrubHeader acc =
      (acc.1 ++ headers.filter passesThrough,
        acc.2 || (headers.filter passesThrough).any fun header =>
          header.1.toAsciiLowercase = "accept".toList) := by
  induction headers generalizing acc with
  | nil => simp
  | cons header headers ih =>
    rw [List.foldl_cons, ih, scrubHeader]
    by_cases hstrip : header.1.toAsciiLowercase ∈ stripNames
    · have hpass : passesThrough header = false := by simp [passesThrough, hstrip]
      simp [hpass, hstrip]
    · by_cases hoverride : header.1.toAsciiLowercase ∈ overrideNames
      · have hpass : passesThrough header = false := by simp [passesThrough, hoverride]
        simp [hpass, hoverride]
      · have hpass : passesThrough header = true := by simp [passesThrough, hstrip, hoverride]
        simp [hpass, hstrip, hoverride, Bool.or_assoc]

/-- **What comes out**: the headers of the policy, what passes through, and an `Accept`. -/
theorem scrub_eq (policy : HeaderPolicy) (siteOrigin targetHost targetUrl : Text)
    (headers : List Header) :
    scrub policy siteOrigin targetHost targetUrl headers =
      injected policy siteOrigin targetHost targetUrl ++ headers.filter passesThrough ++
        if (headers.filter passesThrough).any fun header =>
          header.1.toAsciiLowercase = "accept".toList then []
        else [("Accept".toList, policy.acceptDefault)] := by
  rw [scrub, foldl_scrubHeader]
  simp only [Bool.false_or]
  split <;> simp

end Network

end DevBrowse
