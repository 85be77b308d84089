import NodeWatch.CommandLine.Invocation
import NodeWatch.Settings

/-!
# The program

What the program does with its arguments, up to the point where a session
begins: it prints a text and is done, it gives up with a message, or it has
the settings and the clients of a session.

## Main definitions

* `Program.Launch`: What becomes of a start of the program.
* `Program.launch`: The start, by its arguments, its environment and the
  files.
* `Program.Launch.output`, `Program.Launch.complaint`, `Program.Launch.code`:
  What is seen of it from outside.
-/

namespace NodeWatch

namespace Program

/-- What becomes of a start of the program. -/
inductive Launch where
  /-- It prints a text. -/
  | done (text : Text)
  /-- It gives up. -/
  | failed (message : Text)
  /-- A session begins. -/
  | session (settings : Settings) (poll lookup : Rpc.Client)

/-- The clients of settings. -/
def clients (settings : Settings) : Launch :=
  match Rpc.Client.ofConfig settings.rpc, Rpc.Client.ofConfig settings.lookupRpc with
  | .ok poll, .ok lookup => .session settings poll lookup
  | .error fault, _ => .failed fault.message
  | _, .error fault => .failed fault.message

/-- What becomes of a start that has its settings or none. -/
def Launch.ofSettings : Except Settings.Fault Settings → Launch
  | .error fault => .failed fault.message
  | .ok settings => clients settings

/-- The start of the program. -/
def launch (read : Text → Except Cookie.ReadFault Bytes) (args : List Text) (env : Environment) :
    Launch :=
  match CommandLine.parse args with
  | .error fault => .failed fault.message
  | .ok (.print text) => .done text
  | .ok (.run options) =>
    .ofSettings (Settings.resolve (fun file => Cookie.ofFile file (read file)) options env).2

/-- What is printed. -/
def Launch.output : Launch → Text
  | .done text => text
  | _ => []

/-- What is printed about a failure. -/
def Launch.complaint : Launch → Text
  | .failed message => CommandLine.programName ++ (": " : Text) ++ message ++ ("\n" : Text)
  | _ => []

/-- The exit code. -/
def Launch.code : Launch → Nat
  | .failed _ => 1
  | _ => 0

/-- The place of the node and the seconds from one poll to the next, as the
    dashboard shows them. -/
def Launch.shown : Launch → Option (Text × Double)
  | .session settings poll _ => some (poll.config.endpoint, settings.refreshMs / 1000)
  | _ => none

end Program

end NodeWatch
