import NodeWatch.Decimal.Fixed

/-!
# Amounts with units

Amounts that span many orders of magnitude are shown in the largest unit that
they reach, with a fixed count of places; an amount below every unit is shown
as it is. The number is divided first and rounded then, so an amount just
below a unit may be shown as a thousand of the unit below.

## Main definitions

* `Report.Scale`, `Report.scaled?`: A unit, and an amount in the first one it reaches.
* `Report.bytes`, `Report.difficulty`, `Report.hashRate`: Amounts in units.
* `Report.feeRate`: A fee rate per virtual byte.
* `Report.coins`: An amount of coins.
-/

namespace NodeWatch

namespace Report

/-- A unit of an amount. -/
structure Scale where
  size : Double
  name : Text

/-- An amount in the first unit that it reaches, with a given count of places. -/
def scaled? (units : List Scale) (places : Nat) (x : Double) : Option Text :=
  (units.find? fun scale => scale.size ≤ x).map fun scale =>
    (x / scale.size).fixed places ++ ascii ' ' :: scale.name

/-- The units of sizes in bytes. -/
def byteUnits : List Scale := [⟨1e9, "GB"⟩, ⟨1e6, "MB"⟩, ⟨1e3, "KB"⟩]

/-- A size in bytes. -/
def bytes (x : Double) : Text := (scaled? byteUnits 1 x).getD (x.display ++ (" B" : Text))

/-- The units of difficulties. -/
def difficultyUnits : List Scale := [⟨1e18, "E"⟩, ⟨1e15, "P"⟩, ⟨1e12, "T"⟩, ⟨1e9, "G"⟩]

/-- A difficulty. -/
def difficulty (x : Double) : Text := (scaled? difficultyUnits 2 x).getD (x.fixed 2)

/-- The units of hash rates. -/
def hashRateUnits : List Scale :=
  [⟨1e21, "ZH/s"⟩, ⟨1e18, "EH/s"⟩, ⟨1e15, "PH/s"⟩, ⟨1e12, "TH/s"⟩, ⟨1e9, "GH/s"⟩,
    ⟨1e6, "MH/s"⟩, ⟨1e3, "kH/s"⟩]

/-- A hash rate. -/
def hashRate (x : Double) : Text :=
  (scaled? hashRateUnits 2 x).getD (x.fixed 2 ++ (" H/s" : Text))

/-- A fee rate, from coins per thousand virtual bytes to a hundred-millionth of a
    coin per virtual byte. -/
def feeRate (coinsPerThousand : Double) : Text :=
  (coinsPerThousand * 1e5).fixed 1 ++ (" sat/vB" : Text)

/-- An amount of coins with a given count of places. -/
def coinsTo (places : Nat) (x : Double) : Text := x.fixed places ++ (" BTC" : Text)

/-- An amount of coins down to the smallest part of one. -/
def coins (x : Double) : Text := coinsTo 8 x

end Report

/-- A count of places that no number can be shown with. -/
inductive Report.PlacesFault where
  | outOfRange
deriving DecidableEq, Repr

/-- The wording of the fault. -/
def Report.PlacesFault.message : Report.PlacesFault → Text
  | .outOfRange => "toFixed() digits argument must be between 0 and 100"

/-- An amount of coins with a count of places that is given as a number. -/
def Report.coinsWith (places x : Double) : Except Report.PlacesFault Text :=
  match places.places? with
  | some n => .ok (Report.coinsTo n x)
  | none => .error .outOfRange

/-- The hashes per second that a difficulty takes: `2 ^ 32` for each unit of
    difficulty, in six hundred seconds. -/
def hashRateOf (difficulty : Double) : Double := difficulty * 4294967296 / 600

end NodeWatch
