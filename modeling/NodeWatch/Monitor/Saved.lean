import NodeWatch.Json.Access
import NodeWatch.Monitor.Snapshot

/-!
# Saved snapshots

A snapshot can be written down as a JSON document and read back. A field that
a document leaves out is as it was before the node was asked, so a document
needs to name only what is different.

## Main definitions

* `Monitor.Snapshot.toJson`, `Monitor.Snapshot.restore`: Writing and reading.
* The same for the parts `Monitor.RecentBlock`, `Monitor.Peer`,
  `Monitor.Slide` and `Monitor.Status`.
-/

namespace NodeWatch

namespace Json

/-- A value that may be missing. -/
def Value.ofOption {α : Type} (f : α → Value) (a : Option α) : Value := (a.map f).getD .null

/-- The items of a field that is an array. -/
def Value.itemsOf {α : Type} (v : Value) (key : Text) (f : Value → α) : List α :=
  (v.field key).items.map f

end Json

namespace Monitor

open Json (Value)

/-- The document of a block. -/
def RecentBlock.toJson (b : RecentBlock) : Value :=
  .object [("height", .float b.height), ("txs", .float b.transactions),
    ("totalSize", .float b.size), ("totalWeight", .float b.weight), ("time", .float b.time)]

/-- The block of a document. -/
def RecentBlock.restore (v : Value) : RecentBlock :=
  ⟨v.numberOr "height" 0, v.numberOr "txs" 0, v.numberOr "totalSize" 0,
    v.numberOr "totalWeight" 0, v.numberOr "time" 0⟩

/-- The document of a connected node. -/
def Peer.toJson (p : Peer) : Value :=
  .object [("id", .float p.id), ("addr", .string p.address), ("network", .string p.network),
    ("subver", .string p.agent), ("inbound", .bool p.inbound),
    ("bytesSent", .float p.bytesSent), ("bytesRecv", .float p.bytesReceived),
    ("pingMs", .ofOption .float p.pingMs), ("version", .float p.version),
    ("syncedBlocks", .float p.syncedBlocks)]

/-- The connected node of a document. -/
def Peer.restore (v : Value) : Peer :=
  ⟨v.numberOr "id" 0, v.textOr "addr" [], v.textOr "network" [], v.textOr "subver" [],
    v.boolOr "inbound" false, v.numberOr "bytesSent" 0, v.numberOr "bytesRecv" 0,
    (v.field "pingMs").asNumber?, v.numberOr "version" 0, v.numberOr "syncedBlocks" 0⟩

/-- The document of a slide. -/
def Slide.toJson (s : Slide) : Value :=
  .object [("active", .bool s.active), ("frame", .float s.frame),
    ("previousBlocks", .array (s.previous.map RecentBlock.toJson))]

/-- The slide of a document. -/
def Slide.restore (v : Value) : Slide :=
  ⟨v.boolOr "active" false, v.numberOr "frame" 0, v.itemsOf "previousBlocks" RecentBlock.restore⟩

/-- The document of a status. -/
def Status.toJson (s : Status) : Value :=
  .object [("connected", .bool s.connected), ("lastError", .ofOption .string s.lastError),
    ("lastUpdateMs", .ofOption .float s.lastUpdate), ("refreshing", .bool s.refreshing)]

/-- The status of a document. -/
def Status.restore (v : Value) : Status :=
  ⟨v.boolOr "connected" false, (v.field "lastError").asText?, (v.field "lastUpdateMs").asNumber?,
    v.boolOr "refreshing" false⟩

/-- The document of the figures of the chain. -/
def ChainFigures.toJson (c : ChainFigures) : Value :=
  .object [("chain", .string c.name), ("blocks", .float c.blocks), ("headers", .float c.headers),
    ("difficulty", .float c.difficulty), ("verificationProgress", .float c.verification),
    ("pruned", .bool c.pruned), ("ibd", .bool c.initialDownload),
    ("bestBlockHash", .string c.bestHash)]

/-- The figures of the chain of a document. -/
def ChainFigures.restore (v : Value) : ChainFigures :=
  ⟨v.textOr "chain" unknownChain, v.numberOr "blocks" 0, v.numberOr "headers" 0,
    v.numberOr "difficulty" 0, v.numberOr "verificationProgress" 0, v.boolOr "pruned" false,
    v.boolOr "ibd" false, v.textOr "bestBlockHash" []⟩

/-- The document of the figures of the connections. -/
def NetworkFigures.toJson (n : NetworkFigures) : Value :=
  .object [("connections", .float n.connections), ("connectionsIn", .float n.inbound),
    ("connectionsOut", .float n.outbound), ("subversion", .string n.agent),
    ("protocolVersion", .float n.protocolVersion), ("networkActive", .bool n.active),
    ("relayFee", .float n.relayFee)]

/-- The figures of the connections of a document. -/
def NetworkFigures.restore (v : Value) : NetworkFigures :=
  ⟨v.numberOr "connections" 0, v.numberOr "connectionsIn" 0, v.numberOr "connectionsOut" 0,
    v.textOr "subversion" [], v.numberOr "protocolVersion" 0, v.boolOr "networkActive" true,
    v.numberOr "relayFee" 0⟩

/-- The document of the figures of the waiting transactions. -/
def MempoolFigures.toJson (m : MempoolFigures) : Value :=
  .object [("size", .float m.size), ("bytes", .float m.bytes), ("usage", .float m.usage),
    ("maxMempool", .float m.capacity), ("minFee", .float m.minFee), ("totalFee", .float m.totalFee)]

/-- The figures of the waiting transactions of a document. -/
def MempoolFigures.restore (v : Value) : MempoolFigures :=
  ⟨v.numberOr "size" 0, v.numberOr "bytes" 0, v.numberOr "usage" 0,
    v.numberOr "maxMempool" defaultCapacity, v.numberOr "minFee" 0, v.numberOr "totalFee" 0⟩

/-- The document of a snapshot. -/
def Snapshot.toJson (s : Snapshot) : Value :=
  .object [("chain", s.chain.toJson), ("network", s.network.toJson), ("mempool", s.mempool.toJson),
    ("networkHashPs", .float s.hashRate), ("peers", .array (s.peers.map Peer.toJson)),
    ("recentBlocks", .array (s.blocks.map RecentBlock.toJson)),
    ("blocksFetchedAt", .float s.blocksTip), ("animation", s.slide.toJson),
    ("status", s.status.toJson)]

/-- The snapshot of a document. -/
def Snapshot.restore (v : Value) : Snapshot where
  chain := .restore (v.field "chain")
  network := .restore (v.field "network")
  mempool := .restore (v.field "mempool")
  hashRate := v.numberOr "networkHashPs" 0
  peers := v.itemsOf "peers" Peer.restore
  blocks := v.itemsOf "recentBlocks" RecentBlock.restore
  blocksTip := v.numberOr "blocksFetchedAt" (Double.ofInt (-1))
  slide := .restore (v.field "animation")
  status := .restore (v.field "status")

end Monitor

end NodeWatch
