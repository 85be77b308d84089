import NodeWatch.Dashboard.Gauge
import NodeWatch.Decimal.Fixed
import NodeWatch.Monitor.Snapshot
import NodeWatch.Report.Amount
import NodeWatch.Report.Grouped

/-!
# The pages

The pages behind the tabs: an overview, the figures of the waiting
transactions, those of the connections, and a table of the connected nodes.

## Main definitions

* `Dashboard.overview`, `Dashboard.mempoolFigures`, `Dashboard.networkPage`,
  `Dashboard.peersPage`: The pages.
* `Dashboard.peerCells`: The row of a node in the table.
-/

namespace NodeWatch

namespace Dashboard

open Monitor (Peer Snapshot)

/-- A truth value in words. -/
def yesNo (b : Bool) : Text := if b then "yes" else "no"

/-- The part of the memory for waiting transactions that is used. -/
def memoryUsage (s : Snapshot) : Double :=
  if 0 < s.mempool.capacity then s.mempool.usage / s.mempool.capacity else 0

/-- The figures of the chain. -/
def chainSection (s : Snapshot) : Element :=
  let chain := s.chain
  let main := chain.name = ("main" : Text)
  let done := chain.verification
  framed "Blockchain" true
    [labeledIn (some (if main then .green else .yellow)) "  Chain       : "
        (if main then "mainnet" else chain.name),
      labeled "  Height      : " (Report.height chain.blocks),
      labeled "  Headers     : " (Report.height chain.headers),
      labeled "  Difficulty  : " (Report.difficulty chain.difficulty),
      labeled "  Hash Rate   : " (Report.hashRate s.hashRate),
      gauge "  Sync        : " done (if 1 ≤ done then .green else .yellow)
        ((done * 100).floor.display ++ ("%" : Text)) gaugeWidth,
      labeledIn (some (if chain.initialDownload then .yellow else .green)) "  IBD         : "
        (yesNo chain.initialDownload),
      labeled "  Pruned      : " (yesNo chain.pruned)]

/-- The color of whether the node takes part in the network. -/
def activeColor (active : Bool) : Color := if active then .green else .red

/-- The figures of the connections on the overview. -/
def networkSection (s : Snapshot) : Element :=
  let network := s.network
  framed "Network" true
    [labeledIn (some (activeColor network.active)) "  Active      : " (yesNo network.active),
      labeled "  Connections : " network.connections.display,
      labeled "    In        : " network.inbound.display,
      labeled "    Out       : " network.outbound.display,
      labeled "  Client      : " network.agent,
      labeled "  Protocol    : " network.protocolVersion.display,
      labeled "  Relay fee   : " (Report.feeRate network.relayFee)]

/-- The figures of the waiting transactions on the overview. -/
def mempoolSection (s : Snapshot) : Element :=
  let mempool := s.mempool
  let usage := memoryUsage s
  framed "Mempool" false
    [labeled "  Transactions: " (Report.count mempool.size),
      labeled "  Size        : " (Report.bytes mempool.bytes),
      labeled "  Total fee   : " (Report.coinsTo 4 mempool.totalFee),
      labeled "  Min fee     : " (Report.feeRate mempool.minFee),
      gauge "  Memory      : " usage (if 0.8 < usage then .red else .cyan)
        (Report.bytes mempool.usage ++ (" / " : Text) ++ Report.bytes mempool.capacity) gaugeWidth]

/-- A page of several parts below each other. -/
def page (parts : List Element) : Element := .box { column := true, grow := some 1 } parts

/-- The overview. -/
def overview (s : Snapshot) : Element :=
  page [row [chainSection s, networkSection s], mempoolSection s]

/-- The width of the gauge on the page of the waiting transactions. -/
def wideGauge : Nat := 48

/-- The figures of the waiting transactions. -/
def mempoolFigures (s : Snapshot) : Element :=
  let mempool := s.mempool
  let usage := memoryUsage s
  framed "Mempool" false
    [labeled "  Transactions    : " (Report.count mempool.size),
      labeled "  Virtual size    : " (Report.bytes mempool.bytes),
      labeled "  Total fees      : " (Report.coins mempool.totalFee),
      labeled "  Min relay fee   : " (Report.feeRate mempool.minFee),
      colored .gray "  Memory usage",
      gauge "  " usage (usageColor usage) [] wideGauge,
      row [colored .gray "  Used : ", bold none (Report.bytes mempool.usage),
        colored .gray "  /  Max : ", bold none (Report.bytes mempool.capacity)]]

/-- The figures of the connections. -/
def networkPage (s : Snapshot) : Element :=
  let network := s.network
  page
    [framed "Network Status" false
      [labeledIn (some (activeColor network.active)) "  Network active : " (yesNo network.active),
        labeled "  Total peers    : " network.connections.display,
        labeled "  Inbound        : " network.inbound.display,
        labeled "  Outbound       : " network.outbound.display],
      framed "Node" false
      [labeled "  Client version : " network.agent,
        labeled "  Protocol       : " network.protocolVersion.display,
        labeled "  Relay fee      : " (Report.feeRate network.relayFee)]]

/-- A column of the table of connected nodes. -/
structure PeerColumn where
  title : Text
  /-- A column without a width takes the room that is left. -/
  width : Option Nat
  right : Bool

/-- The columns of the table. -/
def peerColumns : List PeerColumn :=
  [⟨"ID", some 5, false⟩, ⟨"Address", none, false⟩, ⟨"Net", some 5, false⟩,
    ⟨"I/O", some 4, false⟩, ⟨"Ping ms", some 8, true⟩, ⟨"Recv", some 10, true⟩,
    ⟨"Sent", some 10, true⟩, ⟨"Height", some 9, true⟩]

/-- The texts of a node in the table. -/
def peerCells (p : Peer) : List Text :=
  [p.id.display, p.address, if p.network = [] then "?" else p.network.take 4,
    if p.inbound then "in" else "out",
    match p.pingMs with
      | none => "—"
      | some ms => ms.fixed 1,
    Report.bytes p.bytesReceived, Report.bytes p.bytesSent, Report.height p.syncedBlocks]

/-- A cell of the table. -/
def peerCell (column : PeerColumn) (style : TextStyle) (content : Text) : Element :=
  .box
    { width := column.width.map Double.ofNat
      grow := some (if column.width.isNone then 1 else 0)
      justify := some (if column.right then .stop else .start) }
    [.text { style with cut := true } content]

/-- The colors of the cells of a node; the one that tells inbound from outbound
    nodes has one. -/
def peerColors (p : Peer) : List (Option Color) :=
  [none, none, none, some (if p.inbound then .cyan else .green), none, none, none, none]

/-- The row of a node in the table. -/
def peerRow (p : Peer) : Element :=
  row (List.zipWith (fun column (cell : Text × Option Color) =>
    peerCell column { color := cell.2 } cell.1) peerColumns ((peerCells p).zip (peerColors p)))

/-- The table of the connected nodes. -/
def peersPage (s : Snapshot) : Element :=
  if s.peers.isEmpty then
    .box { justify := some .center, grow := some 1 } [colored .gray "No peers connected."]
  else
    let header := row (peerColumns.map fun column =>
      peerCell column { color := some .brightYellow, bold := some true } column.title)
    .box { column := true, border := true, borderColor := some .gray, grow := some 1 }
      (header :: s.peers.map peerRow)

end Dashboard

end NodeWatch
