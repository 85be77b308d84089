import NodeWatch.CommandLine.Options
import NodeWatch.Cookie
import NodeWatch.Text.Blank

/-!
# Settings

The command line goes before the environment, and that before what is usual
for the chain. Whoever gives a user name or a password is known by these, and
what is missing of them is empty; otherwise the cookie file tells the
credentials. A cookie file that was named has to be readable. Without the one
that is only expected to be there the program goes on without credentials,
and the node may refuse it.

Settings come about in two steps, because between them a file may have to be
read: a draft says which one, if any, and the draft is settled by what was
found there.

## Main definitions

* `Environment`: What the environment says.
* `Settings`: The settings of a session.
* `Settings.Draft`: Settings but for the credentials.
* `Settings.draft`, `Settings.Draft.settle`: The two steps.
* `Settings.resolve`: Both steps, with the files that were read.
-/

namespace NodeWatch

/-- What the environment says. A variable that is empty counts as missing. -/
structure Environment where
  host : Option Text
  port : Option Text
  user : Option Text
  password : Option Text
  cookie : Option Text
  /-- The directory of the user, empty if there is none. -/
  home : Text
  platform : Text

namespace Environment

/-- The variable of the port. -/
def portVariable : Text := "BLOCKTOP_RPC_PORT"

/-- The variables that are looked at. -/
def names : List Text :=
  ["BLOCKTOP_RPC_HOST", portVariable, "BLOCKTOP_RPC_USER", "BLOCKTOP_RPC_PASSWORD",
    "BLOCKTOP_COOKIE", "HOME"]

/-- The environment that has given variables. -/
def ofVariables (platform : Text) (values : List (Text × Text)) : Environment :=
  let given (name : Text) : Option Text := (values.lookup name).filter (· ≠ [])
  { host := given "BLOCKTOP_RPC_HOST"
    port := given portVariable
    user := given "BLOCKTOP_RPC_USER"
    password := given "BLOCKTOP_RPC_PASSWORD"
    cookie := given "BLOCKTOP_COOKIE"
    home := (given "HOME").getD []
    platform }

end Environment

/-- How the node is convinced. -/
inductive Access where
  | password | cookie | anonymous
deriving DecidableEq, Repr

/-- The name of a way of access. -/
def Access.name : Access → Text
  | .password => "password"
  | .cookie => "cookie"
  | .anonymous => "none"

/-- The settings of a session. -/
structure Settings where
  chain : Chain
  rpc : Rpc.Config
  refreshMs : Double
  access : Access
  /-- The cookie file that was consulted, readable or not. -/
  cookieFile : Option Text

namespace Settings

/-- How long the node may stay silent in a lookup, in milliseconds. -/
def lookupTimeoutMs : Double := 5000

/-- The settings of the client for lookups. -/
def lookupRpc (s : Settings) : Rpc.Config := { s.rpc with timeoutMs := lookupTimeoutMs }

/-- The time from one poll to the next unless told otherwise, in milliseconds. -/
def defaultRefreshMs : Double := 5000

/-- Why there are no settings. -/
inductive Fault where
  | host
  /-- The port of the environment is none. -/
  | port (raw : Text)
  /-- The interval in seconds is less than half a millisecond, or no number. -/
  | interval (seconds : Double)
  | cookie (fault : Cookie.Error)

/-- The wording of the fault. -/
def Fault.message : Fault → Text
  | .host => "RPC host must not be empty"
  | .port raw => "invalid " ++ Environment.portVariable ++ ": " ++ raw
  | .interval seconds => "invalid refresh interval: " ++ seconds.display
  | .cookie fault => fault.message

/-- Where the credentials come from. -/
inductive Source where
  | given (credentials : Rpc.Credentials)
  /-- A cookie file, which was named or is only expected. -/
  | file (path : Text) (named : Bool)
  /-- No place for a cookie file is known. -/
  | nowhere
deriving DecidableEq

/-- Settings but for the credentials. -/
structure Draft where
  chain : Chain
  host : Text
  port : Double
  refreshMs : Double
  source : Source

/-- The port. -/
def portOf (o : CommandLine.Options) (env : Environment) : Except Fault Double :=
  match o.port, env.port with
  | some port, _ => .ok port
  | none, some raw =>
    match CommandLine.portOfDigits? raw with
    | some port => .ok port
    | none => .error (.port raw)
  | none, none => .ok (Double.ofNat o.chain.defaultPort)

/-- The time from one poll to the next, to the nearest millisecond. -/
def refreshOf (o : CommandLine.Options) : Except Fault Double :=
  match o.refresh with
  | none => .ok defaultRefreshMs
  | some seconds =>
    let ms := (seconds * 1000).round
    if 0 < ms then .ok ms else .error (.interval seconds)

/-- Where the credentials come from. -/
def sourceOf (o : CommandLine.Options) (env : Environment) : Source :=
  match o.user.or env.user, o.password.or env.password with
  | none, none =>
    match o.cookie.or env.cookie with
    | some file => .file file true
    | none =>
      match Cookie.path o.chain o.datadir env.platform env.home with
      | .ok file => .file file false
      | .error _ => .nowhere
  | user, password => .given ⟨user.getD [], password.getD []⟩

/-- The settings but for the credentials. -/
def draft (o : CommandLine.Options) (env : Environment) : Except Fault Draft :=
  let host := (o.host.or env.host).getD defaultHost
  if host.isBlank then .error .host
  else
    match portOf o env with
    | .error fault => .error fault
    | .ok port =>
      match refreshOf o with
      | .error fault => .error fault
      | .ok refreshMs => .ok ⟨o.chain, host, port, refreshMs, sourceOf o env⟩

namespace Draft

/-- The file that has to be read. -/
def file? (d : Draft) : Option Text :=
  match d.source with
  | .file path _ => some path
  | _ => none

/-- The settings with given credentials. -/
def finish (d : Draft) (credentials : Rpc.Credentials) (access : Access) : Settings :=
  ⟨d.chain, ⟨d.host, d.port, credentials, defaultTimeoutMs⟩, d.refreshMs, access, d.file?⟩

/-- The settings without credentials. -/
def withoutCredentials (d : Draft) : Settings := d.finish ⟨[], []⟩ .anonymous

/-- The settings, by what is found in the file that has to be read. -/
def settle (d : Draft) (read : Text → Except Cookie.Error Rpc.Credentials) :
    Except Fault Settings :=
  match d.source with
  | .given credentials => .ok (d.finish credentials .password)
  | .nowhere => .ok d.withoutCredentials
  | .file path named =>
    match read path with
    | .ok credentials => .ok (d.finish credentials .cookie)
    | .error fault => if named then .error (.cookie fault) else .ok d.withoutCredentials

end Draft

/-- The files that are read, and the settings. -/
def resolve (read : Text → Except Cookie.Error Rpc.Credentials) (o : CommandLine.Options)
    (env : Environment) : List Text × Except Fault Settings :=
  match draft o env with
  | .error fault => ([], .error fault)
  | .ok d => (d.file?.toList, d.settle read)

end Settings

end NodeWatch
