import NodeWatch.Proofs.Json.Truncation
import NodeWatch.Proofs.Rpc.Reply

/-!
# Replies That Were Cut Off

The client does not look at the length that a reply announces. It takes what
has arrived when the connection is closed, and nothing but the reply itself
can tell that some of it is missing.

It does tell. Before the blank line is complete there is no head, and the
transport is at fault, whatever became of the status line. Behind it the head
is what it would have been, and what is missing is the end of an object; the
protocol is at fault then. A cut inside a character changes the last unit that
is read and not the outcome.

## Theorems

* `splitHead?_of_cut`: No head is split off before it is complete.
* `decodeMarked_take`: What is read of a body that was cut off.
* `conclude_of_cut`: A reply that was cut off is a failure.
-/

namespace NodeWatch

namespace Rpc

open Json (Value Entries)

section Cut

variable {head raw cut : Bytes}

theorem splitHead?_eq_none (h : ∀ i, ¬ blankLine <+: raw.drop i) : splitHead? raw = none := by
  induction raw with
  | nil => rfl
  | cons b rest ih =>
      have hrest : ∀ i, ¬ blankLine <+: rest.drop i := fun i => h (i + 1)
      rw [splitHead?_cons (h 0), ih hrest]
      rfl

/-- A part of a reply that ends before the blank line does has none. -/
theorem splitHead?_of_cut (hblank : SingleBlankLine head) (hcut : cut <+: head ++ blankLine)
    (hshort : cut.length < (head ++ blankLine).length) : splitHead? cut = none := by
  refine splitHead?_eq_none fun i hc => ?_
  have hlength := hc.length_le
  have hfour : blankLine.length = 4 := rfl
  have hwhole : blankLine <+: (head ++ blankLine).drop i := hc.trans (hcut.drop i)
  rw [List.length_drop] at hlength
  rw [List.length_append] at hshort
  by_cases hi : i < head.length
  · exact hblank i hi hwhole
  · omega

/-- Without a blank line there is no reply. -/
theorem ofBytes_of_splitHead? (h : splitHead? raw = none) :
    ∃ fault, Reply.ofBytes raw = .error (.transport fault) := by
  unfold Reply.ofBytes
  by_cases hempty : raw.isEmpty = true
  · exact ⟨_, if_pos hempty⟩
  · rw [if_neg hempty, h]
    simp only
    split
    · exact ⟨_, rfl⟩
    · exact ⟨_, rfl⟩
    · next hsplit => exact absurd hsplit (by simp only [reduceCtorEq, not_false_eq_true])

/-- A body that is no JSON is a fault of the protocol. -/
theorem envelope_of_fault {status : Nat} (hstatus : status = 200 ∨ status = 500) {body : Text}
    {fault : Json.ParseError} (h : Json.parse body = .error fault) :
    (Reply.mk (Double.ofNat status) body).envelope = .error (.protocol fault) := by
  have hknown := passes_of_known hstatus
  rw [Reply.envelope]
  simp only [hknown.1, hknown.2, Bool.false_eq_true, if_false, h]

/-- The body of a reply that was cut off behind the blank line. -/
theorem decodeMarked_take {t : Text} {v : Value} (ht : t.WellFormed) (hparse : Json.parse t = .ok v)
    {m : Nat} (hm : m < (Utf8.encode t).length) :
    ∃ p r tail, t = p ++ r ∧ r ≠ [] ∧ (tail = [] ∨ tail = [0xFFFD]) ∧
      Utf8.decodeMarked ((Utf8.encode t).take m) = p ++ tail := by
  have hmark : Utf8.dropMark ((Utf8.encode t).take m) = (Utf8.encode t).take m := by
    -- The first unit is a blank or the beginning of a value, so there is no mark.
    rcases (Json.denotes_of_parse hparse).exists_ascii with ⟨u, rest, rfl, hu⟩
    cases m with
    | zero => rfl
    | succ m =>
        rw [Utf8.encode_cons hu, List.take_succ_cons]
        refine Utf8.dropMark_cons (fun hc => ?_) _
        have hlow := UInt16.lt_iff_toNat_lt.mp hu
        have hbyte := congrArg UInt8.toNat hc
        simp only [UInt16.toNat_ofNat, UInt8.toNat_ofNat', UInt8.toNat_ofNat] at hlow hbyte
        omega
  rw [Utf8.decodeMarked, hmark]
  exact Utf8.decode_take_encode ht hm

/-- What is left of a reply when it is cut off behind the blank line. -/
theorem exists_take_of_cut {a b : Bytes} (hcut : cut <+: a ++ b) (hstrict : cut ≠ a ++ b)
    (hlong : a.length ≤ cut.length) : ∃ m, m < b.length ∧ cut = a ++ b.take m := by
  have hlength : cut.length < (a ++ b).length :=
    lt_of_le_of_ne hcut.length_le fun hc => hstrict (hcut.eq_of_length hc)
  refine ⟨cut.length - a.length, ?_, ?_⟩
  · rw [List.length_append] at hlength
    omega
  · conv_lhs => rw [List.prefix_iff_eq_take.mp hcut]
    rw [List.take_append, List.take_of_length_le hlong]

/-- A reply that holds an object and was cut off anywhere is a failure. The
    transport is at fault if the blank line is not complete, and the protocol
    otherwise, also when the cut is inside a character. -/
theorem conclude_of_cut (client : Client) {status : Nat} (hline : StatusLine status head)
    (hstatus : status = 200 ∨ status = 500) (hblank : SingleBlankLine head) {t : Text}
    {es : Entries} (ht : t.WellFormed) (hparse : Json.parse t = .ok (.object es))
    (hlast : t.getLast? = some (ascii '\x7d')) {chunks : List Bytes}
    (hcut : chunks.flatten <+: head ++ (blankLine ++ Utf8.encode t))
    (hstrict : chunks.flatten ≠ head ++ (blankLine ++ Utf8.encode t)) :
    (chunks.flatten.length < (head ++ blankLine).length →
      ∃ fault, client.conclude (.closed chunks) = .error (.transport fault)) ∧
    ((head ++ blankLine).length ≤ chunks.flatten.length →
      ∃ fault, client.conclude (.closed chunks) = .error (.protocol fault)) := by
  rw [← List.append_assoc] at hcut hstrict
  simp only [Client.conclude, envelopeOfBytes]
  refine ⟨fun hshort => ?_, fun hlong => ?_⟩
  -- Whatever is there of the head, the blank line behind it is not complete.
  · have hprefix := List.prefix_of_prefix_length_le hcut (List.prefix_append _ _) hshort.le
    rcases ofBytes_of_splitHead? (splitHead?_of_cut hblank hprefix hshort) with ⟨fault, h⟩
    exact ⟨fault, by rw [h]; rfl⟩
  -- The head is complete, and the body is the beginning of an object.
  · rcases exists_take_of_cut hcut hstrict hlong with ⟨m, hm, hrest⟩
    rcases decodeMarked_take ht hparse hm with ⟨p, r, tail, rfl, hr, htail, hbody⟩
    rcases Json.parse_of_cut hparse hr hlast htail with ⟨fault, hfault⟩
    refine ⟨fault, ?_⟩
    rw [hrest, List.append_assoc, ofBytes_append hline hblank, hbody]
    exact envelope_of_fault hstatus hfault

/-- A reply of the sample, cut off inside the blank line and inside a character
    of the body. -/
theorem conclude_of_cut_sample :
    let client : Client := ⟨⟨"localhost", 8332, ⟨"user", "secret"⟩, 1000⟩, 1⟩
    let raw := sampleHead ++ (blankLine ++ Utf8.encode (Value.object sampleEntries).compact)
    (∃ fault, client.conclude (.closed [raw.take 31]) = .error (.transport fault)) ∧
      ∃ fault, client.conclude (.closed [raw.take 60]) = .error (.protocol fault) := by
  intro client raw
  obtain ⟨es, hparse⟩ :
      ∃ es, Json.parse (Value.object sampleEntries).compact = .ok (.object es) := by
    rcases Value.parse_sendable sample_sendable none with ⟨w, hparse, hsame⟩
    cases hsame with
    | object _ => exact ⟨_, hparse⟩
  have hlength : raw.length = 69 := by decide +kernel
  have hcut : ∀ n, [raw.take n].flatten = raw.take n := fun n => List.flatten_singleton
  have hall : ∀ n, n < 69 → [raw.take n].flatten <+: raw ∧ [raw.take n].flatten ≠ raw := by
    intro n hn
    rw [hcut]
    refine ⟨List.take_prefix n raw, fun hc => ?_⟩
    have := congrArg List.length hc
    rw [List.length_take, hlength] at this
    omega
  have h := fun n hn => conclude_of_cut client sample_statusLine (.inl rfl) (by decide +kernel)
    (Value.wellFormed_printAt sample_sendable.wellFormed none 0) hparse (by decide +kernel)
    (hall n hn).1 (hall n hn).2
  refine ⟨(h 31 (by decide)).1 ?_, (h 60 (by decide)).2 ?_⟩
  · rw [hcut]; decide +kernel
  · rw [hcut]; decide +kernel

end Cut

end Rpc

end NodeWatch
