import NodeWatch.Json.Access
import NodeWatch.Json.Error

/-!
# Failures of a call

A call to the node can fail on its way there, on its way back, by an answer
that is no answer, and by an error that the node itself reports. The failures
are told apart because they mean different things to whoever runs the
dashboard; most of the program only asks for their wording.

## Main definitions

* `Rpc.TransportFault`: A reply that did not arrive or is no HTTP.
* `Rpc.Error`: Everything a call can fail with.
* `Rpc.Error.message`: Its wording.
-/

namespace NodeWatch

namespace Rpc

/-- A reply that did not arrive or is no HTTP. -/
inductive TransportFault where
  /-- The connection was closed without a byte. -/
  | empty
  /-- The first line is no status line. -/
  | statusLine
  /-- No blank line ends the head. -/
  | headEnd
  /-- No connection came about. -/
  | refused (host : Text) (port : Text) (detail : Text)
  /-- The connection failed after it had come about. -/
  | broken (host : Text) (port : Text) (detail : Text)
  /-- Anything else that the transport reports. -/
  | reported (message : Text)
deriving DecidableEq

/-- The wording of the fault. -/
def TransportFault.message : TransportFault → Text
  | .empty => "Empty response from daemon"
  | .statusLine => "Invalid HTTP status line"
  | .headEnd => "No HTTP header separator found"
  | .refused host port detail => "connect to " ++ host ++ ":" ++ port ++ " failed: " ++ detail
  | .broken host port detail => "connection to " ++ host ++ ":" ++ port ++ " failed: " ++ detail
  | .reported message => message

/-- What a call can fail with. -/
inductive Error where
  /-- No usable reply arrived. -/
  | transport (fault : TransportFault)
  /-- No reply arrived in time. -/
  | timeout (ms : Double)
  /-- The node does not accept the credentials. -/
  | unauthorized
  /-- The reply has a status that stands for no answer. -/
  | status (code : Double)
  /-- The body of the reply is no JSON. -/
  | protocol (fault : Json.ParseError)
  /-- The node reports an error of its own. -/
  | daemon (message : Text) (code : Double)
  /-- A parameter is no whole number of a JSON text. -/
  | parameter (fault : Json.IntError)
  /-- A part of an answer is of the wrong kind. -/
  | access (fault : Json.AccessError)
  /-- A text that should be JSON is none. -/
  | malformed (fault : Json.ParseError)
  /-- Anything else, known by its wording alone. -/
  | other (message : Text)
deriving DecidableEq

/-- The wording of a failure. -/
def Error.message : Error → Text
  | .transport fault => fault.message
  | .timeout ms => "RPC timeout after " ++ ms.display ++ "ms"
  | .unauthorized => "Authentication failed: check your RPC credentials"
  | .status code => "HTTP " ++ code.display
  | .protocol fault => "JSON parse error: " ++ fault.message
  | .daemon message _ => message
  | .parameter fault => fault.message
  | .access fault => fault.message
  | .malformed fault => fault.message
  | .other message => message

/-- The answer to a call: the result that the node gave, or a failure. -/
abbrev Answer := Except Error Json.Value

end Rpc

end NodeWatch
