import DevBrowse.Blocklist.RadixTree
import DevBrowse.Network.UrlStrip

/-!
# The state of the blocklist

What a manifest brings is held together and replaced together: the tree the hosts of
requests are looked up in, and the list of the parameters that are stripped from URLs. The
two are looked at one at a time, each at the moment it is needed.
-/

namespace DevBrowse

namespace Blocklist

open Network (UrlParamStripList)

/-- **The state of the blocklist.** -/
structure State where
  /-- The tree of the blocked hosts. -/
  hosts : RadixTree
  /-- The parameters to strip. -/
  urlStrip : UrlParamStripList

namespace State

/-- The state before the first manifest: nothing is blocked and nothing stripped. -/
def empty : State := ⟨.empty, .empty⟩

/-- The state of the rules of a manifest. -/
def fromRules (hostRules : List Rule) (urlParamRules : List UrlParamRule) : State :=
  ⟨.fromRules hostRules, .fromRules urlParamRules⟩

/-- The reason a host is blocked, if it is. -/
def matchHost (state : State) (host : Text) : Option BlockKind := state.hosts.matchHost host

/-- The strip list. -/
def urlParamStripList (state : State) : UrlParamStripList := state.urlStrip

end State

end Blocklist

end DevBrowse
