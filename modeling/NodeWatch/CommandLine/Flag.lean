import NodeWatch.Chain

/-!
# The flags of the command line

Each flag has a long name, most have a short one, and some are followed by a
value. The table says all that the help text and the messages show of them.

## Main definitions

* `CommandLine.Flag`: The flags.
* `CommandLine.Flag.all`: The flags in the order of the help text.
* `CommandLine.Flag.term`: A flag with its names and the place of its value.
* `CommandLine.Flag.find?`: The flag of a name.
-/

namespace NodeWatch

namespace CommandLine

/-- A flag. -/
inductive Flag where
  | version | host | port | user | password | cookie | datadir | testnet | signet | regtest
  | refresh | help
deriving DecidableEq, Repr

namespace Flag

/-- The flags that set or show something, in the order of the help text. -/
def acting : List Flag :=
  [.version, .host, .port, .user, .password, .cookie, .datadir, .testnet, .signet, .regtest,
    .refresh]

/-- The flags in the order of the help text. -/
def all : List Flag := acting ++ [.help]

/-- The word that a long name is made of. -/
def word : Flag → Text
  | .version => "version"
  | .host => "host"
  | .port => "port"
  | .user => "user"
  | .password => "password"
  | .cookie => "cookie"
  | .datadir => "datadir"
  | .testnet => "testnet"
  | .signet => "signet"
  | .regtest => "regtest"
  | .refresh => "refresh"
  | .help => "help"

/-- The long name. -/
def long (f : Flag) : Text := ("--" : Text) ++ f.word

/-- The letter of the short name. -/
def letter? : Flag → Option Char
  | .version => some 'v'
  | .host => some 'h'
  | .port => some 'p'
  | .user => some 'u'
  | .password => some 'P'
  | .cookie => some 'c'
  | .datadir => some 'd'
  | .refresh => some 'r'
  | _ => none

/-- The short name. -/
def short? (f : Flag) : Option Text := f.letter?.map fun c => [ascii '-', ascii c]

/-- The word that stands for the value. -/
def value? : Flag → Option Text
  | .host => some "host"
  | .port => some "port"
  | .user => some "user"
  | .password => some "pass"
  | .cookie => some "path"
  | .datadir => some "path"
  | .refresh => some "secs"
  | _ => none

/-- Whether a value follows. -/
def takesValue (f : Flag) : Bool := f.value?.isSome

/-- The chain that a flag chooses. -/
def chain? : Flag → Option Chain
  | .testnet => some .testnet
  | .signet => some .signet
  | .regtest => some .regtest
  | _ => none

/-- What a flag is for. -/
def purpose : Flag → Text
  | .version => "print version and exit"
  | .host => "RPC host (default: 127.0.0.1)"
  | .port => "RPC port (default: network preset)"
  | .user => "RPC username (disables cookie auth)"
  | .password => "RPC password (disables cookie auth)"
  | .cookie => "path to .cookie file (auto-detected if omitted)"
  | .datadir => "data directory for cookie lookup"
  | .testnet => "testnet3 port and cookie subdir"
  | .signet => "signet port and cookie subdir"
  | .regtest => "regtest port and cookie subdir"
  | .refresh => "refresh interval in seconds (default: 5)"
  | .help => "display help and exit"

/-- A flag with its names and the place of its value. -/
def term (f : Flag) : Text :=
  let names := (f.short?.map (· ++ (", " : Text))).getD [] ++ f.long
  match f.value? with
  | some value => names ++ (" <" : Text) ++ value ++ (">" : Text)
  | none => names

/-- Whether a text is a name of a flag. -/
def isNamed (f : Flag) (name : Text) : Bool := f.long == name || f.short? == some name

/-- The acting flag of a name. -/
def find? (name : Text) : Option Flag := acting.find? (·.isNamed name)

end Flag

end CommandLine

end NodeWatch
