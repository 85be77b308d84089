import NodeWatch.Double.Basic
import NodeWatch.Text.Basic

/-!
# The snapshot

Everything that the dashboard shows about the node, as of the last time that
it was asked, together with what is known about that asking. The list of
recent blocks is fetched less often than the rest, so the snapshot remembers
the tip for which it was fetched. When a new block arrives, the list as it
was before slides out of view; the snapshot holds that list and the frame of
the slide.

Figures are kept as the doubles that the node's numbers are read as.

## Main definitions

* `Monitor.Snapshot`: The snapshot, with its parts `Monitor.ChainFigures`,
  `Monitor.NetworkFigures`, `Monitor.MempoolFigures`, `Monitor.Peer`,
  `Monitor.RecentBlock`, `Monitor.Slide` and `Monitor.Status`.
* `Monitor.Snapshot.initial`: The snapshot before the node was asked.
-/

namespace NodeWatch

namespace Monitor

/-- A block of the list of recent blocks. -/
@[ext]
structure RecentBlock where
  height : Double
  transactions : Double
  size : Double
  weight : Double
  time : Double
deriving DecidableEq

/-- A node that is connected to ours. -/
@[ext]
structure Peer where
  id : Double
  address : Text
  network : Text
  agent : Text
  inbound : Bool
  bytesSent : Double
  bytesReceived : Double
  /-- The time of an answer in milliseconds, once there was one. -/
  pingMs : Option Double
  version : Double
  syncedBlocks : Double
deriving DecidableEq

/-- What is known about the chain. -/
@[ext]
structure ChainFigures where
  name : Text
  blocks : Double
  headers : Double
  difficulty : Double
  verification : Double
  pruned : Bool
  /-- The node is still catching up with the chain. -/
  initialDownload : Bool
  bestHash : Text
deriving DecidableEq

/-- What is known about the connections of the node. -/
@[ext]
structure NetworkFigures where
  connections : Double
  inbound : Double
  outbound : Double
  agent : Text
  protocolVersion : Double
  active : Bool
  /-- The least fee rate that is passed on, in coins per thousand virtual bytes. -/
  relayFee : Double
deriving DecidableEq

/-- What is known about the transactions that wait to be confirmed. -/
@[ext]
structure MempoolFigures where
  size : Double
  bytes : Double
  usage : Double
  capacity : Double
  /-- The least fee rate that is accepted, in coins per thousand virtual bytes. -/
  minFee : Double
  totalFee : Double
deriving DecidableEq

/-- The old list of blocks on its way out of view. -/
structure Slide where
  active : Bool
  frame : Double
  previous : List RecentBlock
deriving DecidableEq

/-- How the last conversation with the node went. -/
structure Status where
  connected : Bool
  lastError : Option Text
  /-- When the figures or the error arrived, in milliseconds. -/
  lastUpdate : Option Double
  refreshing : Bool
deriving DecidableEq

/-- Everything that is shown about the node. -/
structure Snapshot where
  chain : ChainFigures
  network : NetworkFigures
  mempool : MempoolFigures
  hashRate : Double
  peers : List Peer
  /-- Newest first. -/
  blocks : List RecentBlock
  /-- The tip for which the blocks were fetched; negative before they were. -/
  blocksTip : Double
  slide : Slide
  status : Status
deriving DecidableEq

/-- What stands for the name of a chain that is not known. -/
def unknownChain : Text := "—"

/-- The memory for waiting transactions of a node that does not tell. -/
def defaultCapacity : Double := 300000000

/-- The snapshot before the node was asked. -/
def Snapshot.initial : Snapshot where
  chain := ⟨unknownChain, 0, 0, 0, 0, false, false, []⟩
  network := ⟨0, 0, 0, [], 0, true, 0⟩
  mempool := ⟨0, 0, 0, defaultCapacity, 0, 0⟩
  hashRate := 0
  peers := []
  blocks := []
  blocksTip := Double.ofInt (-1)
  slide := ⟨false, 0, []⟩
  status := ⟨false, none, none, false⟩

end Monitor

end NodeWatch
