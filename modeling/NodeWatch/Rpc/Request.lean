import NodeWatch.Bytes.Base64
import NodeWatch.Json.Printer

/-!
# Requests to the node

A request is one JSON envelope posted by HTTP/1.0, the version in which the
node answers with a plain body and closes the connection. The head says how
many bytes follow it, so the node knows where the request ends. Credentials
travel in base64, and nothing in them can break the head.

## Main definitions

* `Rpc.Credentials`: A user and a password.
* `Rpc.authorization`: The value of the authorization line.
* `Rpc.request`: The bytes of a request.
* `Rpc.envelope`: The envelope of a call.
-/

namespace NodeWatch

namespace Rpc

/-- Who asks. -/
structure Credentials where
  user : Text
  password : Text
deriving DecidableEq

/-- The value of the authorization line. -/
def authorization (credentials : Credentials) : Text :=
  "Basic " ++
    Base64.encode (Utf8.encode (credentials.user ++ ascii ':' :: credentials.password))

/-- The head of a request whose body has a given number of bytes. -/
def head (host : Text) (credentials : Credentials) (length : Nat) : Text :=
  "POST / HTTP/1.0\r\nHost: " ++ host ++ "\r\nAuthorization: " ++ authorization credentials ++
    "\r\nContent-Type: application/json\r\nContent-Length: " ++ Text.ofNat length ++ "\r\n\r\n"

/-- The bytes of a request. -/
def request (host : Text) (credentials : Credentials) (body : Text) : Bytes :=
  let bytes := Utf8.encode body
  Utf8.encode (head host credentials bytes.length) ++ bytes

/-- The envelope of a call with its number. -/
def envelope (id : Nat) (method : Text) (params : List Json.Value) : Json.Value :=
  .object [("jsonrpc", .string "1.1"), ("id", .int (Int64.ofNat id)),
    ("method", .string method), ("params", .array params)]

end Rpc

end NodeWatch
