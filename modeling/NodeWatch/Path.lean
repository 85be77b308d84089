import NodeWatch.Text.Basic

/-!
# Paths

Paths are put together in the plainest form: no empty parts, no parts that
stay where they are, and no part that the next one leaves again. A path that
begins at the root cannot leave it upwards; a relative one keeps the steps
upwards that nothing cancels.

## Main definitions

* `Path.parts`: The parts between slashes.
* `Path.settle`: The parts that are left after cancelling.
* `Path.normalize`: The plainest form of a path.
* `Path.join`: The plainest form of paths put together.
-/

namespace NodeWatch

namespace Path

/-- The separator. -/
def slash : CodeUnit := 0x2F

/-- The parts between the slashes of a path. -/
def parts : Text → List Text
  | [] => [[]]
  | u :: rest =>
    if u = slash then [] :: parts rest
    else match parts rest with
      | [] => [[u]]
      | p :: ps => (u :: p) :: ps

/-- One more part behind parts in reverse. -/
def step (rooted : Bool) (done : List Text) (part : Text) : List Text :=
  if part = [] ∨ part = ("." : Text) then done
  else if part = (".." : Text) then
    match done with
    | [] => if rooted then [] else [part]
    | last :: before => if last = (".." : Text) then part :: done else before
  else part :: done

/-- The parts that are left after cancelling. -/
def settle (rooted : Bool) (ps : List Text) : List Text := (ps.foldl (step rooted) []).reverse

/-- The plainest form of a path. A slash at the end stays. -/
def normalize (path : Text) : Text :=
  if path = [] then "."
  else
    let rooted := path.head? == some slash
    let trailing := path.getLast? == some slash
    let body := Text.join [slash] (settle rooted (parts path))
    let body := if body = [] ∧ !rooted then ("." : Text) else body
    let body := if body ≠ [] ∧ trailing then body ++ [slash] else body
    if rooted then slash :: body else body

/-- The plainest form of paths put together, empty ones left out. -/
def join (paths : List Text) : Text :=
  normalize (Text.join [slash] (paths.filter (· ≠ [])))

end Path

end NodeWatch
