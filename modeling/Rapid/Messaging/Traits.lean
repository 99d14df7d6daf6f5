import Rapid.Net.SocketAddr
import Rapid.Pb

/-!
# Traits — what a messaging client answers

`error.rs` and `messaging/traits.rs`. A client takes a socket address and a request and answers with a
response or an error; which of the two, and when, is up to the transport.
-/

namespace Rapid

/-- `error.rs`. -/
inductive CrateError
  | transport (text : String)
  | protocolRejected (text : String)
  | decode (text : String)
  | internal (text : String)
  | shutdown
  | bootstrapping
  deriving DecidableEq, Repr

/-- The answer of `MessagingClient::send`. -/
abbrev SendResult := Except CrateError RapidResponse

/-- A request on its way to an address. -/
abbrev Sent := SocketAddr × RapidRequest

end Rapid
