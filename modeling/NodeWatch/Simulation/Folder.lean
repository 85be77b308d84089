import NodeWatch.Cookie

/-!
# A scripted folder

The files and directories that a program finds on a machine, and the folder
that it runs in. A path is walked name by name: from the root if it begins
with a slash, else from the folder. Each name that is not the last has to
lead to a directory, and this goes for the steps that stay or lead upwards
too, so a path may name a place that exists and still lead nowhere.

## Main definitions

* `Simulation.Folder`: What is there.
* `Simulation.Folder.walk`: The place that a path leads to.
* `Simulation.Folder.read`: Reading a file.
* `Simulation.Folder.put`: Something new at a path.
-/

namespace NodeWatch

namespace Simulation

open Cookie (ReadFault)

/-- What is at a place. -/
inductive Item where
  | directory
  | file (bytes : Bytes)

/-- What is there. A place is the list of the names that lead to it from the
    root. -/
structure Folder where
  /-- The place that relative paths begin at. -/
  home : List Text
  items : List (List Text × Item)

namespace Folder

/-- The directories at the root of every machine. -/
def systemNames : List Text :=
  ["bin", "dev", "etc", "home", "lib", "opt", "proc", "root", "sbin", "sys", "tmp", "usr", "var"]

/-- The file that is always empty. -/
def nullPlace : List Text := ["dev", "null"]

/-- What every machine has. -/
def systemItems : List (List Text × Item) :=
  (nullPlace, .file []) :: systemNames.map fun name => ([name], .directory)

/-- An empty folder for experiments. -/
def empty : Folder := ⟨["tmp", "folder"], systemItems⟩

/-- What is at a place. Whatever leads to something is a directory. -/
def at? (f : Folder) (place : List Text) : Option Item :=
  match f.items.lookup place with
  | some item => some item
  | none =>
    if place.isPrefixOf f.home || f.items.any fun item => place.isPrefixOf item.1 then
      some .directory
    else none

/-- Where a path begins. -/
def start (f : Folder) (path : Text) : List Text :=
  if path.head? == some Path.slash then [] else f.home

/-- The place that a name leads to from another one. -/
def next (place : List Text) (name : Text) : List Text :=
  if name = [] ∨ name = ("." : Text) then place
  else if name = (".." : Text) then place.dropLast
  else place ++ [name]

/-- The most bytes of a name. -/
def longestName : Nat := 255

/-- The most bytes of a path. -/
def longestPath : Nat := 4095

/-- One name of a path, from a place that has to be a directory. -/
def step (f : Folder) (path : Text) (place : List Text) (name : Text) :
    Except ReadFault (List Text) :=
  match f.at? place with
  | none => .error (.missing path)
  | some (.file _) => .error (.notDirectory path)
  | some .directory =>
    if longestName < (Utf8.encode name).length then .error (.nameTooLong path)
    else .ok (next place name)

/-- The place that a path leads to. -/
def walk (f : Folder) (path : Text) : Except ReadFault (List Text) :=
  if path = [] then .error (.missing path)
  else if path.contains 0 then .error (.zeroUnit path)
  else if longestPath < (Utf8.encode path).length then .error (.nameTooLong path)
  else (Path.parts path).foldlM (f.step path) (f.start path)

/-- The bytes of a file. -/
def read (f : Folder) (path : Text) : Except ReadFault Bytes := do
  match f.at? (← f.walk path) with
  | none => .error (.missing path)
  | some .directory => .error .directory
  | some (.file bytes) => .ok bytes

/-- The folder with something new at a path, and with all directories on the
    way to it. -/
def put (f : Folder) (path : Text) (item : Item) : Folder :=
  { f with items := ((Path.parts path).foldl next (f.start path), item) :: f.items }

end Folder

end Simulation

end NodeWatch
