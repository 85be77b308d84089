import NodeWatch.CommandLine.Flag

/-!
# Suggestions for misspelled flags

For a long name that no flag has, the flags with the most similar words are
suggested. The distance of two words is the number of code units to insert,
remove, replace or swap with their neighbour that turns one into the other,
where nothing is changed twice. Words more than three such steps apart are
not similar, and no more than three fifths of the longer word may change.

## Main definitions

* `CommandLine.distance`: The distance of two words.
* `CommandLine.similarWords`: The words to suggest.
* `CommandLine.suggestion`: The text that suggests them.
-/

namespace NodeWatch

namespace CommandLine

/-- What is left of a row of the table of distances. The row belongs to a code
    unit `a` after `a'`. Its last entry was `left`, the word goes on after
    `b'`, and the two rows before this one go on with `above` and `before`. -/
def rowRest (a : CodeUnit) (a' : Option CodeUnit) :
    Option CodeUnit → Nat → Text → List Nat → List Nat → List Nat
  | b', left, b :: word, diagonal :: up :: above, before =>
    let plain := min (min (up + 1) (left + 1)) (diagonal + if a = b then 0 else 1)
    let entry :=
      match b', before with
      | some b', twoBack :: _ => if a' = some b ∧ a = b' then min plain (twoBack + 1) else plain
      | _, _ => plain
    let before := if b'.isSome then before.drop 1 else before
    entry :: rowRest a a' (some b) entry word (up :: above) before
  | _, _, _, _, _ => []

/-- The last row of the table of distances. The rows so far are those of the
    code units up to `a'`: `above` is the last of them, the `n`-th, and
    `before` the one before that. -/
def lastRow (word : Text) : Text → Option CodeUnit → Nat → List Nat → List Nat → List Nat
  | [], _, _, above, _ => above
  | a :: rest, a', n, above, before =>
    let row := (n + 1) :: rowRest a a' none (n + 1) word above before
    lastRow word rest (some a) (n + 1) row above

/-- The distance of two words. -/
def distance (a b : Text) : Nat :=
  ((lastRow b a none 0 (List.range (b.length + 1)) []).getLast?).getD 0

/-- The largest distance of similar words. -/
def maxDistance : Nat := 3

/-- Whether enough of the longer word stays when a given number of its code
    units change. -/
def isSimilar (longer changed : Nat) : Bool := 2 * longer < 5 * (longer - changed)

/-- The nearest words so far, with their distance, after one more word. -/
def nearer (given : Text) (best : Nat × List Text) (word : Text) : Nat × List Text :=
  let d := distance given word
  if d ≤ best.1 && isSimilar (max given.length word.length) d then
    if d < best.1 then (d, [word]) else (d, best.2 ++ [word])
  else best

/-- A word put in front of the first one that it does not come after. -/
def insertWord (word : Text) : List Text → List Text
  | [] => [word]
  | w :: rest => if Text.isLE word w then word :: w :: rest else w :: insertWord word rest

/-- The similar words that are nearest to a given one, sorted. -/
def similarWords (given : Text) (words : List Text) : List Text :=
  (words.foldl (nearer given) (maxDistance, [])).2.foldr insertWord []

/-- The line that suggests flags for an unknown one, if there is something to
    suggest. -/
def suggestion (unknown : Text) : Text :=
  if unknown.take 2 = ("--" : Text) then
    match (similarWords (unknown.drop 2) (Flag.all.map Flag.word)).map (("--" : Text) ++ ·) with
    | [] => []
    | [name] => "\n(Did you mean " ++ name ++ "?)"
    | names => "\n(Did you mean one of " ++ Text.join ", " names ++ "?)"
  else []

end CommandLine

end NodeWatch
