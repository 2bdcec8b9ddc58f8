import DevBrowse.Lib.Text

/-!
# Blocklist rules

A rule blocks a hostname, and with it all its subdomains unless it is exact. Hostnames are
brought to lower case when a rule is made, so no rule with another hostname exists.
-/

namespace DevBrowse

namespace Blocklist

/-- The reason a rule blocks. -/
inductive BlockKind where
  /-- Advertising. -/
  | ad
  /-- Tracking across sites. -/
  | tracker
  /-- A fingerprinting probe. -/
  | fingerprintAttempt
  deriving DecidableEq

/-- A blocklist rule. -/
structure Rule where
  /-- The hostname. -/
  hostname : Text
  /-- The reason it is blocked. -/
  kind : BlockKind
  /-- Whether the subdomains are blocked as well. -/
  appliesToSubdomains : Bool
  /-- The hostname is in lower case. -/
  lowercase : hostname.toAsciiLowercase = hostname
  deriving DecidableEq

namespace Rule

/-- The rule for a hostname and its subdomains. -/
def host (hostname : Text) (kind : BlockKind) : Rule :=
  ⟨hostname.toAsciiLowercase, kind, true, hostname.toAsciiLowercase_idem⟩

/-- The rule for a hostname only. -/
def hostExact (hostname : Text) (kind : BlockKind) : Rule :=
  ⟨hostname.toAsciiLowercase, kind, false, hostname.toAsciiLowercase_idem⟩

end Rule

/-- A parameter to be stripped from the query of a URL. -/
structure UrlParamRule where
  /-- The name of the parameter. -/
  name : Text
  /-- The name is in lower case. -/
  lowercase : name.toAsciiLowercase = name
  deriving DecidableEq

/-- The rule for a parameter name. -/
def UrlParamRule.new (name : Text) : UrlParamRule :=
  ⟨name.toAsciiLowercase, name.toAsciiLowercase_idem⟩

end Blocklist

end DevBrowse
