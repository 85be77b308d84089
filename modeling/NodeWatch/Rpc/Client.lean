import NodeWatch.Rpc.Call
import NodeWatch.Rpc.Reply
import NodeWatch.Rpc.Request
import NodeWatch.Text.Blank

/-!
# The client

A client knows where the node is and who asks, and numbers its requests from
one on. Each request goes over a connection of its own; what comes back until
the node closes it is the reply, and a connection on which nothing happens
for the time allowed ends in a timeout. A number is spent on every request,
whatever becomes of it.

## Main definitions

* `Rpc.Config`: The settings of a client.
* `Rpc.Client`: Settings that were accepted, and the next number.
* `Rpc.Client.ofConfig`: Accepting settings.
* `Rpc.Client.request`: The bytes of the next request.
* `Rpc.Exchange`, `Rpc.Client.conclude`: What came back, and what it means.
-/

namespace NodeWatch

namespace Rpc

/-- The settings of a client. -/
structure Config where
  host : Text
  port : Double
  credentials : Credentials
  /-- How long a connection may stay silent, in milliseconds. -/
  timeoutMs : Double
deriving DecidableEq

/-- Why settings are not accepted. -/
inductive ConfigFault where
  /-- The host is blank. -/
  | host
  /-- The port is no whole number from 1 to 65535. -/
  | port (port : Double)
deriving DecidableEq

/-- The wording of the fault. -/
def ConfigFault.message : ConfigFault → Text
  | .host => "RPC host required"
  | .port given => "invalid RPC port: " ++ given.display

/-- Whether a number is a port. -/
def isPort (x : Double) : Bool :=
  match x.toInt? with
  | some n => 1 ≤ n && n ≤ 65535
  | none => false

/-- A client and the number of its next request. -/
structure Client where
  config : Config
  nextId : Nat

/-- A client with given settings, if they are accepted. -/
def Client.ofConfig (config : Config) : Except ConfigFault Client :=
  if config.host.isBlank then .error .host
  else if isPort config.port then .ok ⟨config, 1⟩
  else .error (.port config.port)

/-- Where a client connects to. -/
def Config.endpoint (config : Config) : Text := config.host ++ ascii ':' :: config.port.display

/-- The bytes of the next request, and the client after it. -/
def Client.request (client : Client) (method : Text) (params : List Json.Value) :
    Bytes × Client :=
  (Rpc.request client.config.host client.config.credentials
      (envelope client.nextId method params).compact,
    { client with nextId := client.nextId + 1 })

/-- What came back on a connection. -/
inductive Exchange where
  /-- The node closed the connection after these bytes. -/
  | closed (chunks : List Bytes)
  /-- Nothing happened for the time allowed. -/
  | silent
  /-- There was no connection. -/
  | refused (detail : Text)
  /-- The connection failed after it was there; what had arrived is lost. -/
  | broken (detail : Text)

/-- The envelope that came back on a connection. -/
def Client.conclude (client : Client) : Exchange → Except Error Json.Value
  | .closed chunks => envelopeOfBytes chunks.flatten
  | .silent => .error (.timeout client.config.timeoutMs)
  | .refused detail =>
    .error (.transport (.refused client.config.host client.config.port.display detail))
  | .broken detail =>
    .error (.transport (.broken client.config.host client.config.port.display detail))

end Rpc

end NodeWatch
