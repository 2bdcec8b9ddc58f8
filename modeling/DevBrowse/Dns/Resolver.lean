import DevBrowse.Network.Error
import DevBrowse.Network.PartitionKey

/-!
# Name resolution

A resolver answers queries for the addresses of a name, on behalf of a partition.
-/

namespace DevBrowse

namespace Dns

open Network (NetworkError PartitionKey)

/-- The type of the records asked for. -/
inductive QueryType where
  /-- IPv4 addresses. -/
  | a
  /-- IPv6 addresses. -/
  | aaaa
  deriving DecidableEq

/-- The type code on the wire. -/
def QueryType.typeCode : QueryType → UInt16
  | .a => 1
  | .aaaa => 28

/-- An IPv4 address, as its octets. -/
abbrev Ipv4Addr := Vector UInt8 4

/-- An IPv6 address, as its octets. -/
abbrev Ipv6Addr := Vector UInt8 16

/-- A resolved record. -/
inductive DnsRecord where
  /-- An IPv4 address. -/
  | a (addr : Ipv4Addr)
  /-- An IPv6 address. -/
  | aaaa (addr : Ipv6Addr)
  deriving DecidableEq

/-- A query. -/
structure ResolveQuery where
  /-- The partition that asks. -/
  partitionKey : PartitionKey
  /-- The name. -/
  qname : Text
  /-- The type of the records. -/
  qtype : QueryType
  /-- The mode of the identity that asks. -/
  mode : Mode
  deriving DecidableEq

/-- The answer to a query. -/
structure ResolveResult where
  /-- The records. -/
  records : List DnsRecord
  /-- How long they may be kept. -/
  ttlSeconds : UInt32
  deriving DecidableEq

/-- How long a positive answer may be kept, in seconds. -/
def maxPositiveTtl : UInt32 := 24 * 60 * 60

/-- How long a negative answer may be kept, in seconds. -/
def maxNegativeTtl : UInt32 := 60

/-- What a resolver comes back with. -/
abbrev Outcome := Except NetworkError ResolveResult

/-- The clone of an outcome. -/
def Outcome.clone : Outcome → Outcome
  | .ok result => .ok result
  | .error e => .error e.clone

/-- Whether an outcome may be cached: a name that does not exist may be, while other failures
may pass. -/
def Outcome.isCacheable : Outcome → Bool
  | .ok _ => true
  | .error e => e = .resolveNxDomain

end Dns

end DevBrowse
