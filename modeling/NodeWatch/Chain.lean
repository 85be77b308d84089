import NodeWatch.Rpc.Client

/-!
# The chains

The main chain and three test chains. A node of each listens on a port of its
own and keeps its files in a directory of its own, the main chain in the data
directory itself.

## Main definitions

* `Chain`: The chains.
* `Chain.defaultPort`, `Chain.directory`: Where a node of the chain is found.
* `Rpc.Config.local`: The settings of a client of a node on the same machine.
-/

namespace NodeWatch

/-- A chain. -/
inductive Chain where
  | main | testnet | signet | regtest
deriving DecidableEq, Repr

namespace Chain

/-- The name of a chain. -/
def name : Chain → Text
  | .main => "main"
  | .testnet => "testnet"
  | .signet => "signet"
  | .regtest => "regtest"

/-- The port of a node of the chain. -/
def defaultPort : Chain → Nat
  | .main => 8332
  | .testnet => 18332
  | .signet => 38332
  | .regtest => 18443

/-- The directory of the chain inside the data directory. -/
def directory : Chain → Text
  | .main => []
  | .testnet => "testnet3"
  | .signet => "signet"
  | .regtest => "regtest"

end Chain

/-- Where a node is looked for unless told otherwise. -/
def defaultHost : Text := "127.0.0.1"

/-- How long the node may stay silent, in milliseconds. -/
def defaultTimeoutMs : Double := 10000

/-- The settings of a client of a local node at a given port, without credentials. -/
def Rpc.Config.local (port : Double) : Rpc.Config :=
  ⟨defaultHost, port, ⟨[], []⟩, defaultTimeoutMs⟩

end NodeWatch
