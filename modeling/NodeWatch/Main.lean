import NodeWatch.Dashboard.Screen
import NodeWatch.Dashboard.Tree
import NodeWatch.Json.Printer
import NodeWatch.Program

/-!
# The command line

The outermost layer: it collects the arguments and the environment, reads the
cookie file, and prints. A session is shown as it is before the node has
answered anything, as a document for whoever draws it on a terminal.
-/

namespace NodeWatch

namespace Program

/-- The environment of the program. -/
def environment : IO Environment := do
  let values ← Environment.names.mapM fun name => do
    return (name, ((← IO.getEnv (Text.toString name)).map Text.ofString).getD [])
  return .ofVariables "linux" values

/-- The code of the system for an attempt to read a directory. -/
def directoryCode : UInt32 := 21

/-- The bytes of a file. -/
def readFile (file : Text) : IO (Except Cookie.ReadFault Bytes) := do
  try
    return .ok (← IO.FS.readBinFile (Text.toString file)).toList
  catch
    | .inappropriateType _ code _ =>
      return .error (if code = directoryCode then .directory else .notDirectory file)
    | .invalidArgument .. => return .error (.nameTooLong file)
    | _ => return .error (.missing file)

/-- What becomes of a start. -/
def start (args : List Text) (env : Environment) : IO Launch := do
  match CommandLine.parse args with
  | .ok (.run options) =>
    match Settings.draft options env with
    | .ok draft =>
      let found ← match draft.file? with
        | some file => readFile file
        | none => pure (.error (.missing []))
      return launch (fun _ => found) args env
    | .error _ => return launch (fun file => .error (.missing file)) args env
  | _ => return launch (fun file => .error (.missing file)) args env

/-- The dashboard before the node has answered anything. -/
def firstDrawing (endpoint : Text) (refreshSeconds : Double) : Text :=
  let frame : Dashboard.Screen.Frame := ⟨80, 0, endpoint, refreshSeconds⟩
  (Dashboard.Screen.initial.draw frame .initial none).toJson.compact

end Program

end NodeWatch

open NodeWatch Program in
/-- The program. -/
def main (args : List String) : IO UInt32 := do
  let launch ← start (args.map Text.ofString) (← environment)
  IO.print (Text.toString launch.output)
  IO.eprint (Text.toString launch.complaint)
  if let some (endpoint, refreshSeconds) := launch.shown then
    IO.println (Text.toString (firstDrawing endpoint refreshSeconds))
  return launch.code.toUInt32
