import NodeWatch.CommandLine.Flag
import NodeWatch.Decimal.Numeral

/-!
# The options of the command line

What flags with values and the flags of the chains set. A later flag
overrides an earlier one. Ports and intervals are read as numbers at once, so
a bad one is refused where it stands.

## Main definitions

* `CommandLine.Options`: What was set.
* `CommandLine.readPort`, `CommandLine.readInterval`: The values that are
  numbers.
* `CommandLine.Options.set`, `CommandLine.Options.choose`: The effect of a
  flag.
-/

namespace NodeWatch

namespace CommandLine

/-- What was set on the command line. -/
structure Options where
  host : Option Text
  port : Option Double
  user : Option Text
  password : Option Text
  cookie : Option Text
  datadir : Option Text
  chain : Chain
  /-- The seconds from one poll to the next. -/
  refresh : Option Double
deriving DecidableEq

/-- Nothing was set, so the chain is the main one. -/
def Options.initial : Options := ⟨none, none, none, none, none, none, .main, none⟩

/-- Why a value is refused. -/
inductive ValueFault where
  | port (raw : Text)
  | interval (raw : Text)
deriving DecidableEq

/-- The wording of the fault. -/
def ValueFault.message : ValueFault → Text
  | .port raw => "invalid port: " ++ raw
  | .interval raw => "invalid refresh interval: " ++ raw

/-- The port that digits spell. -/
def portOfDigits? (raw : Text) : Option Double :=
  if raw.isDigits then
    let n := raw.digitsValue
    if 1 ≤ n ∧ n ≤ 65535 then some (Double.ofNat n) else none
  else none

/-- A port. -/
def readPort (raw : Text) : Except ValueFault Double :=
  match portOfDigits? raw with
  | some port => .ok port
  | none => .error (.port raw)

/-- An interval in seconds: any numeral of a finite positive number. -/
def readInterval (raw : Text) : Except ValueFault Double :=
  let seconds := Double.ofNumeral raw
  if seconds.isFinite ∧ 0 < seconds then .ok seconds else .error (.interval raw)

/-- The options after a flag with a value. -/
def Options.set (o : Options) (flag : Flag) (value : Text) : Except ValueFault Options :=
  match flag with
  | .host => .ok { o with host := some value }
  | .port => (readPort value).map fun port => { o with port := some port }
  | .user => .ok { o with user := some value }
  | .password => .ok { o with password := some value }
  | .cookie => .ok { o with cookie := some value }
  | .datadir => .ok { o with datadir := some value }
  | .refresh => (readInterval value).map fun seconds => { o with refresh := some seconds }
  | _ => .ok o

/-- The options after a flag without a value. -/
def Options.choose (o : Options) (flag : Flag) : Options :=
  { o with chain := flag.chain?.getD o.chain }

end CommandLine

end NodeWatch
