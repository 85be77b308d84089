import NodeWatch.Chain
import NodeWatch.Path
import NodeWatch.Text.Quoted

/-!
# Cookie files

A node writes a fresh name and secret into a file each time it starts, for
programs on the same machine. The first line of the file is the name, a colon
and the secret, which may hold colons of its own. The file lies in the data
directory, for a test chain in the directory of that chain.

## Main definitions

* `Cookie.parse`: The credentials of the text of a cookie file.
* `Cookie.firstLine`: The line that counts.
* `Cookie.dataDirectory`, `Cookie.path`: Where the file is looked for.
* `Cookie.ofFile`: The credentials of a file that was or could not be read.
-/

namespace NodeWatch

namespace Cookie

/-- Why a file could not be read. -/
inductive ReadFault where
  /-- There is no such file. -/
  | missing (path : Text)
  /-- The file is a directory. -/
  | directory
  /-- The path leads through a file as if it were a directory. -/
  | notDirectory (path : Text)
  /-- The path or a name in it is longer than the system allows. -/
  | nameTooLong (path : Text)
  /-- The path has a zero unit, which would end it. -/
  | zeroUnit (path : Text)
deriving DecidableEq

/-- A path that could not be opened, as the system names it: what is no
    character has been replaced. -/
def opening (path : Text) : Text := ", open '" ++ Utf8.decode (Utf8.encode path) ++ "'"

/-- The most units of a path that are looked at to name it. -/
def namedUnits : Nat := 10000

/-- The most units of a path that is named as a value that was not accepted. -/
def shownUnits : Nat := 128

/-- A path as a value that was not accepted. -/
def received (path : Text) : Text :=
  let literal := Text.literal (path.take namedUnits)
  if shownUnits < literal.length then literal.take shownUnits ++ ("..." : Text) else literal

/-- The wording of the system. -/
def ReadFault.message : ReadFault → Text
  | .missing path => "ENOENT: no such file or directory" ++ opening path
  | .directory => "EISDIR: illegal operation on a directory, read"
  | .notDirectory path => "ENOTDIR: not a directory" ++ opening path
  | .nameTooLong path => "ENAMETOOLONG: name too long" ++ opening path
  | .zeroUnit path =>
    "The argument 'path' must be a string, Uint8Array, or URL without null bytes. Received " ++
      received path

/-- Why there are no credentials. -/
inductive Error where
  /-- The home directory is not known. -/
  | home
  /-- The first line of the file is empty. -/
  | empty (source : Text)
  /-- The first line of the file has no colon. -/
  | colon (source : Text)
  /-- The file cannot be read. -/
  | unreadable (source : Text) (fault : ReadFault)
  /-- Anything else, known by its wording alone. -/
  | other (message : Text)
deriving DecidableEq

/-- The wording of the fault. -/
def Error.message : Error → Text
  | .home => "HOME not set; use --datadir or --cookie to locate .cookie"
  | .empty source => "Cookie file is empty: " ++ source
  | .colon source => "Invalid cookie file (no ':' found): " ++ source
  | .unreadable source fault =>
    "Cannot open cookie file: " ++ source ++ " (" ++ fault.message ++ ")"
  | .other message => message

/-- The first line of a text, without a carriage return at its end. -/
def firstLine (text : Text) : Text :=
  let line := text.takeWhile (· ≠ 0x0A)
  if line.getLast? = some 0x0D then line.dropLast else line

/-- The credentials of the text of a cookie file; the source is only named in faults. -/
def parse (text source : Text) : Except Error Rpc.Credentials :=
  let line := firstLine text
  if line = [] then .error (.empty source)
  else if ascii ':' ∈ line then
    .ok ⟨line.takeWhile (· ≠ ascii ':'), (line.dropWhile (· ≠ ascii ':')).drop 1⟩
  else .error (.colon source)

/-- Where the node keeps its files for a user. -/
def dataDirectory (platform home : Text) : Except Error Text :=
  if home = [] then .error .home
  else .ok <|
    if platform = ("darwin" : Text) then
      Path.join [home, "Library", "Application Support", "Bitcoin"]
    else Path.join [home, ".bitcoin"]

/-- The cookie file of a chain under a data directory. -/
def pathIn (chain : Chain) (directory : Text) : Text :=
  Path.join [directory, chain.directory, ".cookie"]

/-- The cookie file of a chain, under a given data directory or else the one of the user. -/
def path (chain : Chain) (directory : Option Text) (platform home : Text) : Except Error Text :=
  match directory with
  | some d => .ok (pathIn chain d)
  | none => (dataDirectory platform home).map (pathIn chain)

/-- The credentials of a file, from its bytes or the reason why there are none. -/
def ofFile (file : Text) (content : Except ReadFault Bytes) : Except Error Rpc.Credentials :=
  match content with
  | .error fault => .error (.unreadable file fault)
  | .ok bytes => parse (Utf8.decode bytes) file

end Cookie

end NodeWatch
