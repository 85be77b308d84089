import NodeWatch.CommandLine.Flag

/-!
# The help text

How the program is used, its flags with their purposes, and its keys.

## Main definitions

* `CommandLine.help`: The help text.
* `CommandLine.versionLine`: What is printed for the version.
-/

namespace NodeWatch

namespace CommandLine

/-- The name of the program. -/
def programName : Text := "blocktop"

/-- The version of the program. -/
def programVersion : Text := "0.1.0"

/-- What the program is. -/
def programPurpose : Text :=
  "Live terminal dashboard for a Bitcoin-style node's JSON-RPC service."

/-- What is printed for the version. -/
def versionLine : Text := programName ++ (" " : Text) ++ programVersion ++ ("\n" : Text)

/-- A text with blanks up to a given length. -/
def padEnd (t : Text) (length : Nat) : Text :=
  t ++ List.replicate (length - t.length) (ascii ' ')

/-- A line of two columns. -/
def twoColumns (width : Nat) (first second : Text) : Text :=
  "  " ++ padEnd first width ++ second ++ "\n"

/-- The length of the longest flag. -/
def termWidth : Nat := (Flag.all.map (·.term.length)).foldl max 0

/-- The keys and what they do. -/
def keys : List (Text × Text) :=
  [("Tab / Left / Right", "Switch tabs"),
    ("/", "Search a txid, block hash or height"),
    ("Up / Down", "Move through a transaction's block, inputs and outputs"),
    ("Enter", "Submit search / open row"),
    ("Escape", "Close / back / dismiss result / quit"),
    ("q", "Quit")]

/-- The width of the column of keys. -/
def keyWidth : Nat := 23

/-- The help text. -/
def help : Text :=
  "Usage: " ++ programName ++ " [options]\n\n" ++ programPurpose ++ "\n\nOptions:\n" ++
    Flag.all.flatMap (fun f => twoColumns (termWidth + 2) f.term f.purpose) ++
    "\nKeyboard:\n" ++ keys.flatMap (fun (key, effect) => twoColumns keyWidth key effect) ++ "\n"

end CommandLine

end NodeWatch
