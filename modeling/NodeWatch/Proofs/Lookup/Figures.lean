import NodeWatch.Lookup.Reading
import NodeWatch.Proofs.Json.Fields
import Mathlib.Tactic.MkIffOfInductiveProp

/-!
# What Is Told of Blocks and Transactions

The records that a lookup ends with, by the keys of the answers that they come
from. As with the figures of a snapshot, each field is described by its key and
by what stands in for it, and the readers are the functions that the
descriptions leave no choice to.

Four fields are not simply found under a key. The fee of a waiting transaction
stands among its fees, or in a field of its own where there are none; its rate
is the fee in hundred-millionths of a coin for each virtual byte. The height of
a block with a transaction is counted back from the tip. And what the outputs
are worth together is added up in their order, which matters as it is rounded.

## Main definitions

* `Input.Told`, `Output.Told`: What an entry tells about an input and an output.
* `FeeTold`: The fee of a waiting transaction.
* `PendingTx.Told`, `ConfirmedTx.Told`, `Block.Told`: What an answer tells.

## Theorems

* `Input.told_iff`, `Output.told_iff`, `PendingTx.told_iff`, `ConfirmedTx.told_iff`,
  `Block.told_iff`: The readers give what is told.
-/

namespace NodeWatch

namespace Lookup

open Json (NumberAt TextAt PartAt Lists)

/-- What an entry tells about an input: new coins if it has the key for them,
    whatever stands there, and else the output that is spent. -/
inductive Input.Told : Input → Json.Value → Prop where
  | coinbase {v w : Json.Value} (h : v.Has "coinbase" w) : Told .coinbase v
  | spend {v : Json.Value} {txid : Text} {index : Double} (h : ∀ w, ¬ v.Has "coinbase" w)
      (htxid : TextAt v "txid" "" txid) (hindex : NumberAt v "vout" 0 index) :
      Told (.spend txid index) v

/-- What an entry tells about an output. -/
structure Output.Told (o : Output) (v : Json.Value) : Prop where
  value : NumberAt v "value" 0 o.value
  condition : ∃ c, PartAt v "scriptPubKey" c ∧ TextAt c "type" "" o.kind ∧
    ∃ address, TextAt c "address" "" address ∧
      o.address = if address = "" then none else some address

/-- The fee that an entry tells. -/
inductive FeeTold (v : Json.Value) : Double → Prop where
  | among {es : Json.Entries} {fee : Double} (h : v.Has "fees" (.object es))
      (hfee : NumberAt (.object es) "base" 0 fee) : FeeTold v fee
  | apart {fee : Double} (h : ∀ es, ¬ v.Has "fees" (.object es)) (hfee : NumberAt v "fee" 0 fee) :
      FeeTold v fee

/-- What an entry tells about a waiting transaction. -/
@[mk_iff told_fields]
structure PendingTx.Told (p : PendingTx) (v : Json.Value) : Prop where
  virtualSize : NumberAt v "vsize" 0 p.virtualSize
  weight : NumberAt v "weight" 0 p.weight
  fee : FeeTold v p.fee
  feeRate : p.feeRate = if 0 < p.virtualSize then p.fee * 1e8 / p.virtualSize else 0
  ancestors : NumberAt v "ancestorcount" 0 p.ancestors
  descendants : NumberAt v "descendantcount" 0 p.descendants
  entryTime : NumberAt v "time" 0 p.entryTime

/-- What an answer tells about a confirmed transaction, when the chain has a tip. -/
@[mk_iff told_fields]
structure ConfirmedTx.Told (t : ConfirmedTx) (v : Json.Value) (tip : Double) : Prop where
  virtualSize : NumberAt v "vsize" 0 t.virtualSize
  weight : NumberAt v "weight" 0 t.weight
  blockHash : TextAt v "blockhash" "" t.blockHash
  blockHeight : t.blockHeight
    = if 0 < tip ∧ 0 < t.confirmations then some (tip - t.confirmations + 1) else none
  confirmations : NumberAt v "confirmations" 0 t.confirmations
  blockTime : NumberAt v "blocktime" 0 t.blockTime
  inputs : Json.Field (Lists fun w i => Input.Told i w) v "vin" [] t.inputs
  outputs : Json.Field (Lists fun w o => Output.Told o w) v "vout" [] t.outputs
  totalOutput : t.totalOutput = (t.outputs.map Output.value).foldl (· + ·) 0

/-- What an answer tells about a block that was asked for by its hash. The pool
    is not told by it. -/
@[mk_iff told_fields]
structure Block.Told (b : Block) (v : Json.Value) (hash : Text) : Prop where
  hash : TextAt v "hash" hash b.hash
  height : NumberAt v "height" 0 b.height
  time : NumberAt v "time" 0 b.time
  transactions : NumberAt v "nTx" 0 b.transactions
  size : NumberAt v "size" 0 b.size
  weight : NumberAt v "weight" 0 b.weight
  difficulty : NumberAt v "difficulty" 0 b.difficulty
  confirmations : NumberAt v "confirmations" 0 b.confirmations
  pool : b.pool = "—"

theorem hasKey_iff {v : Json.Value} {key : Text} : v.hasKey key = true ↔ ∃ w, v.Has key w := by
  cases v with
  | object es =>
      change (Json.Entries.lookup? key es).isSome = true ↔ _
      rw [Option.isSome_iff_exists]
      refine exists_congr fun w => ⟨fun h => Json.has_iff.mpr ⟨es, rfl, h⟩, fun h => ?_⟩
      rcases Json.has_iff.mp h with ⟨es', hes, hfound⟩
      cases hes
      exact hfound
  | _ => exact ⟨fun h => absurd h Bool.false_ne_true, fun ⟨w, h⟩ => nomatch h⟩

theorem Input.told_iff {i : Input} {v : Json.Value} : i.Told v ↔ i = .ofJson v := by
  rw [Input.ofJson]
  by_cases hkey : v.hasKey "coinbase" = true
  · rw [if_pos hkey]
    rcases hasKey_iff.mp hkey with ⟨w, hw⟩
    constructor
    · rintro (_ | ⟨hnone, -, -⟩)
      · rfl
      · exact absurd hw (hnone w)
    · rintro rfl
      exact .coinbase hw
  · rw [if_neg hkey]
    have hnone : ∀ w, ¬ v.Has "coinbase" w := fun w hw => hkey (hasKey_iff.mpr ⟨w, hw⟩)
    constructor
    · rintro (hw | ⟨-, htxid, hindex⟩)
      · exact absurd hw (hnone _)
      · rw [Json.textAt_iff.mp htxid, Json.numberAt_iff.mp hindex]
        rfl
    · rintro rfl
      exact .spend hnone (Json.textAt_iff.mpr rfl) (Json.numberAt_iff.mpr rfl)

theorem Output.told_iff {o : Output} {v : Json.Value} : o.Told v ↔ o = .ofJson v := by
  rw [Output.ext_iff]
  constructor
  · rintro ⟨hvalue, c, hc, hkind, address, haddress, heq⟩
    obtain rfl := Json.partAt_iff.mp hc
    obtain rfl := Json.textAt_iff.mp haddress
    exact ⟨Json.numberAt_iff.mp hvalue, heq, Json.textAt_iff.mp hkind⟩
  · rintro ⟨hvalue, haddress, hkind⟩
    exact ⟨Json.numberAt_iff.mpr hvalue, _, Json.partAt_iff.mpr rfl, Json.textAt_iff.mpr hkind, _,
      Json.textAt_iff.mpr rfl, haddress⟩

/-- Whether there are fees is seen from what stands under their key. -/
theorem has_fees_iff {v : Json.Value} {es : Json.Entries} :
    v.Has "fees" (.object es) ↔ v.field "fees" = .object es := by
  constructor
  · exact Json.field_of_has
  · intro hfield
    rcases Json.has_field_or v "fees" with hhas | ⟨hnull, -⟩
    · rwa [hfield] at hhas
    · exact Json.Value.noConfusion (hnull.symm.trans hfield)

theorem fee_among {v : Json.Value} {es : Json.Entries} (h : v.field "fees" = .object es) :
    (PendingTx.ofJson v).fee = (v.field "fees").numberOr "base" 0 := by
  simp only [PendingTx.ofJson, h]

theorem fee_apart {v : Json.Value} (h : ∀ es, v.field "fees" ≠ .object es) :
    (PendingTx.ofJson v).fee = v.numberOr "fee" 0 := by
  -- That there are no fees among others is what decides the match.
  simp only [PendingTx.ofJson]

theorem feeTold_iff {v : Json.Value} {fee : Double} :
    FeeTold v fee ↔ fee = (PendingTx.ofJson v).fee := by
  constructor
  · rintro (⟨h, hfee⟩ | ⟨h, hfee⟩)
    · rw [fee_among (has_fees_iff.mp h)]
      rw [has_fees_iff.mp h]
      exact Json.numberAt_iff.mp hfee
    · rw [fee_apart fun es hes => h es (has_fees_iff.mpr hes)]
      exact Json.numberAt_iff.mp hfee
  · rintro rfl
    by_cases hfees : ∃ es, v.field "fees" = .object es
    · rcases hfees with ⟨es, hes⟩
      rw [fee_among hes, hes]
      exact .among (has_fees_iff.mpr hes) (Json.numberAt_iff.mpr rfl)
    · have hnone : ∀ es, v.field "fees" ≠ .object es := not_exists.mp hfees
      rw [fee_apart hnone]
      exact .apart (fun es hes => hnone es (has_fees_iff.mp hes)) (Json.numberAt_iff.mpr rfl)

theorem PendingTx.told_iff {p : PendingTx} {v : Json.Value} : p.Told v ↔ p = .ofJson v := by
  rw [PendingTx.told_fields, PendingTx.ext_iff]
  simp only [Json.numberAt_iff, feeTold_iff]
  constructor
  · rintro ⟨hsize, hweight, hfee, hrate, hrest⟩
    exact ⟨hsize, hweight, hfee, by rw [hrate, hsize, hfee]; rfl, hrest⟩
  · rintro ⟨hsize, hweight, hfee, hrate, hrest⟩
    exact ⟨hsize, hweight, hfee, by rw [hrate, hsize, hfee]; rfl, hrest⟩

theorem ConfirmedTx.told_iff {t : ConfirmedTx} {v : Json.Value} {tip : Double} :
    t.Told v tip ↔ t = .ofJson v tip := by
  rw [ConfirmedTx.told_fields, ConfirmedTx.ext_iff,
    Json.listAt_iff fun w i => @Input.told_iff i w,
    Json.listAt_iff fun w o => @Output.told_iff o w, List.foldl_map]
  simp only [Json.numberAt_iff, Json.textAt_iff]
  constructor
  · rintro ⟨hsize, hweight, hhash, hheight, hconfirmations, htime, hinputs, houtputs, htotal⟩
    exact ⟨hsize, hweight, hhash, by rw [hheight, hconfirmations]; rfl, hconfirmations, htime,
      hinputs, houtputs, by rw [htotal, houtputs]; rfl⟩
  · rintro ⟨hsize, hweight, hhash, hheight, hconfirmations, htime, hinputs, houtputs, htotal⟩
    exact ⟨hsize, hweight, hhash, by rw [hheight, hconfirmations]; rfl, hconfirmations, htime,
      hinputs, houtputs, by rw [htotal, houtputs]; rfl⟩

theorem Block.told_iff {b : Block} {v : Json.Value} {hash : Text} :
    b.Told v hash ↔ b = .ofJson v hash := by
  simp only [Block.told_fields, Block.ext_iff, Json.numberAt_iff, Json.textAt_iff]
  rfl

end Lookup

end NodeWatch
