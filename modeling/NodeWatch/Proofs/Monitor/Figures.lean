import NodeWatch.Monitor.Reading
import NodeWatch.Proofs.Json.Fields
import Mathlib.Tactic.MkIffOfInductiveProp

/-!
# What the Answers Tell

The figures of a snapshot by the keys of the answers that they come from. Each
record is described field by field, with the key and with what stands in when
the answer has nothing of the sort under the key. The readers of the answers
are then the functions that the descriptions leave no choice to.

## Main definitions

* `ChainFigures.Told`, `NetworkFigures.Told`, `MempoolFigures.Told`, `Peer.Told`,
  `RecentBlock.Told`: What an answer tells.
* `Core`: The figures of a snapshot that come from the core answers.
* `Core.Told`: What four core answers tell, and what stands before there are any.

## Theorems

* `ChainFigures.told_iff`, `NetworkFigures.told_iff`, `MempoolFigures.told_iff`,
  `Peer.told_iff`, `RecentBlock.told_iff`: The readers give what is told.
* `Core.told_of_withCore`: So does the snapshot that four answers are written into.
-/

namespace NodeWatch

namespace Monitor

open Json (NumberAt TextAt FlagAt)

/-- What an answer tells about the chain. -/
@[mk_iff told_fields]
structure ChainFigures.Told (c : ChainFigures) (v : Json.Value) : Prop where
  name : TextAt v "chain" "—" c.name
  blocks : NumberAt v "blocks" 0 c.blocks
  headers : NumberAt v "headers" 0 c.headers
  difficulty : NumberAt v "difficulty" 0 c.difficulty
  verification : NumberAt v "verificationprogress" 0 c.verification
  pruned : FlagAt v "pruned" false c.pruned
  initialDownload : FlagAt v "initialblockdownload" false c.initialDownload
  bestHash : TextAt v "bestblockhash" "" c.bestHash

/-- What an answer tells about the connections. -/
@[mk_iff told_fields]
structure NetworkFigures.Told (n : NetworkFigures) (v : Json.Value) : Prop where
  connections : NumberAt v "connections" 0 n.connections
  inbound : NumberAt v "connections_in" 0 n.inbound
  outbound : NumberAt v "connections_out" 0 n.outbound
  agent : TextAt v "subversion" "" n.agent
  protocolVersion : NumberAt v "protocolversion" 0 n.protocolVersion
  active : FlagAt v "networkactive" true n.active
  relayFee : NumberAt v "relayfee" 0 n.relayFee

/-- What an answer tells about the waiting transactions. -/
@[mk_iff told_fields]
structure MempoolFigures.Told (m : MempoolFigures) (v : Json.Value) : Prop where
  size : NumberAt v "size" 0 m.size
  bytes : NumberAt v "bytes" 0 m.bytes
  usage : NumberAt v "usage" 0 m.usage
  capacity : NumberAt v "maxmempool" 300000000 m.capacity
  minFee : NumberAt v "mempoolminfee" 0 m.minFee
  totalFee : NumberAt v "total_fee" 0 m.totalFee

/-- A time that is told in seconds, in milliseconds. -/
inductive IsMillis : Json.Value → Option Double → Prop where
  | seconds {w : Json.Value} {x : Double} (h : w.IsNumber x) : IsMillis w (some (x * 1000))

/-- What an entry tells about a connected node. -/
@[mk_iff told_fields]
structure Peer.Told (p : Peer) (v : Json.Value) : Prop where
  id : NumberAt v "id" 0 p.id
  address : TextAt v "addr" "" p.address
  network : TextAt v "network" "" p.network
  agent : TextAt v "subver" "" p.agent
  inbound : FlagAt v "inbound" false p.inbound
  bytesSent : NumberAt v "bytessent" 0 p.bytesSent
  bytesReceived : NumberAt v "bytesrecv" 0 p.bytesReceived
  pingMs : Json.Field IsMillis v "pingtime" none p.pingMs
  version : NumberAt v "version" 0 p.version
  syncedBlocks : NumberAt v "synced_blocks" 0 p.syncedBlocks

/-- What an answer tells about a block. -/
@[mk_iff told_fields]
structure RecentBlock.Told (b : RecentBlock) (v : Json.Value) : Prop where
  height : NumberAt v "height" 0 b.height
  transactions : NumberAt v "txs" 0 b.transactions
  size : NumberAt v "total_size" 0 b.size
  weight : NumberAt v "total_weight" 0 b.weight
  time : NumberAt v "time" 0 b.time

/-- The figures of a snapshot that come from the core answers. -/
structure Core where
  chain : ChainFigures
  network : NetworkFigures
  mempool : MempoolFigures
  hashRate : Double
  peers : List Peer
deriving DecidableEq

/-- The core figures of a snapshot. -/
def Snapshot.core (s : Snapshot) : Core := ⟨s.chain, s.network, s.mempool, s.hashRate, s.peers⟩

/-- What four core answers tell together, and what stands before there are any.
    The rate is that of `2 ^ 32` hashes for each unit of difficulty, in six
    hundred seconds. -/
inductive Core.Told : Core → Option CoreAnswers → Prop where
  | initial : Told ⟨⟨"—", 0, 0, 0, 0, false, false, ""⟩, ⟨0, 0, 0, "", 0, true, 0⟩,
      ⟨0, 0, 0, 300000000, 0, 0⟩, 0, []⟩ none
  | answers {c : Core} {a : CoreAnswers} (chain : c.chain.Told a.chain)
      (network : c.network.Told a.network) (mempool : c.mempool.Told a.mempool)
      (rate : c.hashRate = c.chain.difficulty * 4294967296 / 600)
      (peers : Json.Lists (fun w p => Peer.Told p w) a.peers c.peers) : Told c (some a)

theorem ChainFigures.told_iff {c : ChainFigures} {v : Json.Value} : c.Told v ↔ c = .ofJson v := by
  simp only [ChainFigures.told_fields, ChainFigures.ext_iff, Json.numberAt_iff, Json.textAt_iff,
    Json.flagAt_iff]
  rfl

theorem NetworkFigures.told_iff {n : NetworkFigures} {v : Json.Value} :
    n.Told v ↔ n = .ofJson v := by
  simp only [NetworkFigures.told_fields, NetworkFigures.ext_iff, Json.numberAt_iff,
    Json.textAt_iff, Json.flagAt_iff]
  rfl

theorem MempoolFigures.told_iff {m : MempoolFigures} {v : Json.Value} :
    m.Told v ↔ m = .ofJson v := by
  simp only [MempoolFigures.told_fields, MempoolFigures.ext_iff, Json.numberAt_iff]
  rfl

theorem isMillis_iff (w : Json.Value) (x : Option Double) :
    IsMillis w x ↔ (w.asNumber?.map fun y => some (y * 1000)) = some x := by
  rw [Option.map_eq_some_iff]
  constructor
  · rintro ⟨h⟩
    exact ⟨_, (Json.isNumber_iff _ _).mp h, rfl⟩
  · rintro ⟨y, h, rfl⟩
    exact .seconds ((Json.isNumber_iff _ _).mpr h)

theorem pingAt_iff {v : Json.Value} {x : Option Double} :
    Json.Field IsMillis v "pingtime" none x
      ↔ x = (v.field "pingtime").asNumber?.map (· * 1000) := by
  rw [Json.field_iff _ isMillis_iff rfl]
  cases (v.field "pingtime").asNumber? <;> rfl

theorem Peer.told_iff {p : Peer} {v : Json.Value} : p.Told v ↔ p = .ofJson v := by
  simp only [Peer.told_fields, Peer.ext_iff, Json.numberAt_iff, Json.textAt_iff, Json.flagAt_iff,
    pingAt_iff]
  rfl

theorem RecentBlock.told_iff {b : RecentBlock} {v : Json.Value} : b.Told v ↔ b = .ofJson v := by
  simp only [RecentBlock.told_fields, RecentBlock.ext_iff, Json.numberAt_iff]
  rfl

theorem peers_iff {v : Json.Value} {ps : List Peer} :
    Json.Lists (fun w p => Peer.Told p w) v ps ↔ ps = v.items.map .ofJson :=
  Json.lists_iff fun w p => @Peer.told_iff p w

/-- The snapshot that four answers are written into shows what they tell. -/
theorem Core.told_of_withCore (s : Snapshot) (answers : CoreAnswers) (now : Double) :
    (s.withCore answers now).core.Told (some answers) :=
  .answers (ChainFigures.told_iff.mpr rfl) (NetworkFigures.told_iff.mpr rfl)
    (MempoolFigures.told_iff.mpr rfl) rfl (peers_iff.mpr rfl)

end Monitor

end NodeWatch
