import DevBrowse.Lib.Text

/-!
# The errors of the network broker

Every variant is opaque on display; two of them carry the error they stem from, for tracing
only. A clone does not carry it on, as the underlying errors cannot be cloned: it is a
plain resolve failure (`DevBrowse.Network.NetworkError.clone`).
-/

namespace DevBrowse

namespace Network

/-- The errors of the message transport. -/
inductive IpcError where
  /-- The message is too large, with its size. -/
  | messageTooLarge (size : UInt64)
  /-- The other end is gone. -/
  | connectionClosed
  /-- An error of the operating system, as it describes itself. -/
  | io (description : Text)
  deriving DecidableEq

/-- The errors of the sandbox. -/
inductive SandboxError where
  /-- The profile contradicts itself. -/
  | invalidProfile (description : Text)
  /-- The platform does not have the feature. -/
  | unsupported
  deriving DecidableEq

/-- The errors of the network broker. -/
inductive NetworkError where
  /-- The declared partition key is not the derived one. -/
  | partitionMismatch
  /-- A plain `http` URL without an approved downgrade. -/
  | httpsOnlyDowngrade
  /-- An error of the message transport. -/
  | ipc (source : IpcError)
  /-- An error of the sandbox. -/
  | sandbox (source : SandboxError)
  /-- The configuration breaks an invariant. -/
  | config
  /-- The URL is malformed, or its scheme is neither `https` nor `http`. -/
  | invalidUrl
  /-- The request was cancelled. -/
  | cancelled
  /-- The host is on the blocklist. -/
  | blocked
  /-- Any other failure of a name resolution. -/
  | resolve
  /-- The name does not exist. -/
  | resolveNxDomain
  /-- The answer is malformed. -/
  | resolveProtocol
  /-- No answer came in time. -/
  | resolveTimeout
  /-- The transport to the resolver failed. -/
  | resolveTransport
  /-- The certificate of the resolver is not the pinned one. -/
  | resolveCertPin
  /-- The resolver is out, and no fallback is allowed. -/
  | resolveOutage
  /-- The answer holds an address that is not public. -/
  | resolveRebinding
  /-- The TLS handshake failed. -/
  | tls
  /-- Certificate transparency rejects the handshake. -/
  | tlsCtFailed
  /-- Encrypted client hello rejects the handshake. -/
  | tlsEchFailed
  deriving DecidableEq

namespace NetworkError

/-- The clone of an error: an error that carries its source becomes `resolve`. -/
def clone : NetworkError → NetworkError
  | .ipc _ => .resolve
  | .sandbox _ => .resolve
  | e => e

end NetworkError

end Network

end DevBrowse
