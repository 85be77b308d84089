import NodeWatch.Json.Access
import NodeWatch.Monitor.Snapshot
import NodeWatch.Report.Amount

/-!
# Reading the figures of the node

Readers of the four answers that make up the core of a snapshot and of the
figures of a block. Whatever is missing or of the wrong kind keeps the value
that it has before the node is asked, so that a reader never fails.

## Main definitions

* `Monitor.RecentBlock.ofJson`, `Monitor.Peer.ofJson`: The readers of single entries.
* `Monitor.CoreAnswers`: The four answers.
* `Monitor.Snapshot.withCore`: The snapshot with the figures of four answers.
-/

namespace NodeWatch

namespace Monitor

/-- The figures of a block. -/
def RecentBlock.ofJson (v : Json.Value) : RecentBlock where
  height := v.numberOr "height" 0
  transactions := v.numberOr "txs" 0
  size := v.numberOr "total_size" 0
  weight := v.numberOr "total_weight" 0
  time := v.numberOr "time" 0

/-- A connected node; its time of an answer is given in seconds. -/
def Peer.ofJson (v : Json.Value) : Peer where
  id := v.numberOr "id" 0
  address := v.textOr "addr" []
  network := v.textOr "network" []
  agent := v.textOr "subver" []
  inbound := v.boolOr "inbound" false
  bytesSent := v.numberOr "bytessent" 0
  bytesReceived := v.numberOr "bytesrecv" 0
  pingMs := (v.field "pingtime").asNumber?.map (· * 1000)
  version := v.numberOr "version" 0
  syncedBlocks := v.numberOr "synced_blocks" 0

/-- The chain. -/
def ChainFigures.ofJson (v : Json.Value) : ChainFigures where
  name := v.textOr "chain" unknownChain
  blocks := v.numberOr "blocks" 0
  headers := v.numberOr "headers" 0
  difficulty := v.numberOr "difficulty" 0
  verification := v.numberOr "verificationprogress" 0
  pruned := v.boolOr "pruned" false
  initialDownload := v.boolOr "initialblockdownload" false
  bestHash := v.textOr "bestblockhash" []

/-- The connections. -/
def NetworkFigures.ofJson (v : Json.Value) : NetworkFigures where
  connections := v.numberOr "connections" 0
  inbound := v.numberOr "connections_in" 0
  outbound := v.numberOr "connections_out" 0
  agent := v.textOr "subversion" []
  protocolVersion := v.numberOr "protocolversion" 0
  active := v.boolOr "networkactive" true
  relayFee := v.numberOr "relayfee" 0

/-- The waiting transactions. -/
def MempoolFigures.ofJson (v : Json.Value) : MempoolFigures where
  size := v.numberOr "size" 0
  bytes := v.numberOr "bytes" 0
  usage := v.numberOr "usage" 0
  capacity := v.numberOr "maxmempool" defaultCapacity
  minFee := v.numberOr "mempoolminfee" 0
  totalFee := v.numberOr "total_fee" 0

/-- The four answers that make up the core of a snapshot. -/
structure CoreAnswers where
  chain : Json.Value
  network : Json.Value
  mempool : Json.Value
  peers : Json.Value

/-- The tip that the answers tell. -/
def CoreAnswers.tip (answers : CoreAnswers) : Double := answers.chain.numberOr "blocks" 0

/-- The snapshot with the figures of four answers that arrived at a given time. -/
def Snapshot.withCore (s : Snapshot) (answers : CoreAnswers) (now : Double) : Snapshot :=
  let chain := ChainFigures.ofJson answers.chain
  { s with
    chain
    network := .ofJson answers.network
    mempool := .ofJson answers.mempool
    hashRate := hashRateOf chain.difficulty
    peers := answers.peers.items.map Peer.ofJson
    status := { s.status with connected := true, lastError := none, lastUpdate := some now } }

/-- The snapshot after the node could not be asked for the core figures. -/
def Snapshot.withFailure (s : Snapshot) (message : Text) (now : Double) : Snapshot :=
  { s with status := { s.status with
      connected := false, lastError := some message, lastUpdate := some now } }

end Monitor

end NodeWatch
