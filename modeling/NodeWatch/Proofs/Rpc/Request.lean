import NodeWatch.Proofs.Bytes.Base64
import NodeWatch.Proofs.Rpc.Reply

/-!
# What the Node Receives

A request is read by someone who knows nothing of the client. The bytes before
the first blank line are the head, the head is a few lines, one of them says how
many bytes come after it, and these are the text of an object. It has to be so
for whatever is typed in as a user name and a password, and for whatever is
asked.

What makes the head safe is that no line of it is empty and none holds a part of
the end of a line. Credentials are written in an alphabet that has no such
letter, and the length in digits. The body comes when the head is over, so it
may hold anything. The host is the one text that stands in the head as it is,
and the one that something is asked of.

## Main definitions

* `lineEnd`, `linesOf`: The lines of a head.
* `Plain`: A line that breaks no head.
* `Turn`, `Client.converse`: Calls in a row, and what becomes of them.

## Theorems

* `linesOf_intercalate`: The lines of a head are found again.
* `singleBlankLine_intercalate`: Plain lines have no blank line among them.
* `getElem?_converse`: A number is spent on every call.
* `receives_converse`: What the node receives with a call.
-/

namespace NodeWatch

namespace Rpc

open Json (Value Entries)

/-! ### Lines -/

/-- The end of a line. -/
def lineEnd : Bytes := [0x0D, 0x0A]

/-- A byte in front of the first of some lines. -/
def onFirst (b : UInt8) : List Bytes → List Bytes
  | [] => [[b]]
  | line :: rest => (b :: line) :: rest

/-- The lines that some bytes are made of. -/
def linesOf : Bytes → List Bytes
  | [] => [[]]
  | 0x0D :: 0x0A :: rest => [] :: linesOf rest
  | b :: rest => onFirst b (linesOf rest)

/-- A line that can stand in a head: something, and no part of the end of a line. -/
structure Plain (line : Bytes) : Prop where
  ne_nil : line ≠ []
  noReturn : 0x0D ∉ line
  noFeed : 0x0A ∉ line

section Lines

variable {line first rest : Bytes} {lines : List Bytes}

theorem linesOf_cons {b : UInt8} (hb : b ≠ 0x0D) (rest : Bytes) :
    linesOf (b :: rest) = onFirst b (linesOf rest) := by
  rw [linesOf.eq_def]
  split
  · next h => exact absurd h (List.cons_ne_nil b rest)
  · next h => exact absurd (List.cons.inj h).1 hb
  · next h =>
      rcases List.cons.inj h with ⟨rfl, rfl⟩
      rfl

theorem linesOf_append (hline : 0x0D ∉ line) (h : linesOf rest = first :: lines) :
    linesOf (line ++ rest) = (line ++ first) :: lines := by
  induction line with
  | nil => exact h
  | cons b line ih =>
      rcases not_or.mp (fun hmem => hline (List.mem_cons.mpr hmem)) with ⟨hne, hrest⟩
      rw [List.cons_append, linesOf_cons (Ne.symm hne), ih hrest]
      rfl

theorem linesOf_intercalate (hne : lines ≠ []) (h : ∀ line ∈ lines, Plain line) :
    linesOf (lineEnd.intercalate lines) = lines := by
  induction lines with
  | nil => exact absurd rfl hne
  | cons line rest ih =>
      have hline := (h line List.mem_cons_self).noReturn
      cases rest with
      | nil =>
          have hlast : linesOf (line ++ []) = [line ++ []] :=
            linesOf_append hline (by rw [linesOf])
          rw [List.append_nil] at hlast
          exact (congrArg linesOf List.intercalate_singleton).trans hlast
      | cons next rest =>
          have hrest := ih (List.cons_ne_nil next rest) fun l hl =>
            h l (List.mem_cons_of_mem line hl)
          have hstart : linesOf (lineEnd ++ lineEnd.intercalate (next :: rest))
              = [] :: next :: rest := congrArg (List.cons []) hrest
          rw [List.intercalate_cons_cons, List.append_assoc, linesOf_append hline hstart,
            List.append_nil]

theorem singleBlankLine_cons {b : UInt8} (hb : ¬ blankLine <+: b :: (rest ++ blankLine))
    (h : SingleBlankLine rest) : SingleBlankLine (b :: rest) := by
  intro i hi
  cases i with
  | zero => exact hb
  | succ i => exact h i (Nat.succ_lt_succ_iff.mp hi)

theorem singleBlankLine_append (hline : 0x0D ∉ line) (h : SingleBlankLine rest) :
    SingleBlankLine (line ++ rest) := by
  induction line with
  | nil => exact h
  | cons b line ih =>
      rcases not_or.mp (fun hmem => hline (List.mem_cons.mpr hmem)) with ⟨hne, hrest⟩
      exact singleBlankLine_cons (fun hc => hne (List.cons_prefix_cons.mp hc).1) (ih hrest)

/-- The end of a line makes no blank line with what comes after it, because
    that begins with something else. -/
theorem singleBlankLine_lineEnd {b : UInt8} (hb : 0x0D ≠ b) (h : SingleBlankLine (b :: rest)) :
    SingleBlankLine (lineEnd ++ b :: rest) := by
  refine singleBlankLine_cons (fun hc => ?_) (singleBlankLine_cons (fun hc => ?_) h)
  · have htail := (List.cons_prefix_cons.mp (List.cons_prefix_cons.mp hc).2).2
    exact hb (List.cons_prefix_cons.mp htail).1
  · exact absurd (List.cons_prefix_cons.mp hc).1 (by decide)

theorem singleBlankLine_intercalate (h : ∀ line ∈ lines, Plain line) :
    SingleBlankLine (lineEnd.intercalate lines) := by
  induction lines with
  | nil => exact fun i hi => absurd hi (Nat.not_lt_zero i)
  | cons line rest ih =>
      have hline := h line List.mem_cons_self
      have hrest := ih fun l hl => h l (List.mem_cons_of_mem line hl)
      cases rest with
      | nil =>
          rw [List.intercalate_singleton, ← List.append_nil line]
          exact singleBlankLine_append hline.noReturn hrest
      | cons next rest =>
          rw [List.intercalate_cons_cons, List.append_assoc]
          refine singleBlankLine_append hline.noReturn ?_
          -- The next line is not empty, and the blank line would need its first byte.
          obtain ⟨b, tail, htail, hb⟩ : ∃ b tail,
              lineEnd.intercalate (next :: rest) = b :: tail ∧ 0x0D ≠ b := by
            have hnext := h next (List.mem_cons_of_mem line List.mem_cons_self)
            rcases List.exists_cons_of_ne_nil hnext.ne_nil with ⟨b, bytes, rfl⟩
            refine ⟨b, (lineEnd.intercalate ((b :: bytes) :: rest)).tail, ?_, ?_⟩
            · cases rest with
              | nil => rw [List.intercalate_singleton, List.tail_cons]
              | cons l rest =>
                  rw [List.intercalate_cons_cons, List.cons_append, List.cons_append,
                    List.tail_cons]
            · exact fun hc => hnext.noReturn (hc ▸ List.mem_cons_self)
          rw [htail] at hrest ⊢
          exact singleBlankLine_lineEnd hb hrest

end Lines

/-! ### The head -/

/-- A text with no part of the end of a line. -/
def OneLine (t : Text) : Prop := 0x0D ∉ t ∧ 0x0A ∉ t

instance (t : Text) : Decidable (OneLine t) := inferInstanceAs (Decidable (_ ∧ _))

theorem OneLine.append {t u : Text} (ht : OneLine t) (hu : OneLine u) : OneLine (t ++ u) :=
  ⟨List.not_mem_append ht.1 hu.1, List.not_mem_append ht.2 hu.2⟩

/-- The ends of a line come before most of ASCII. -/
theorem oneLine_of_le {t : Text} (h : ∀ u ∈ t, 0x2B ≤ u) : OneLine t :=
  ⟨fun hc => absurd (h _ hc) (by decide), fun hc => absurd (h _ hc) (by decide)⟩

theorem plain_encode {t : Text} (hne : t ≠ []) (h : OneLine t) : Plain (Utf8.encode t) where
  ne_nil := fun hc => hne (Utf8.eq_nil_of_encode hc)
  noReturn := fun hc => h.1 (Utf8.mem_of_mem_encode hc (by decide))
  noFeed := fun hc => h.2 (Utf8.mem_of_mem_encode hc (by decide))

theorem encode_join (parts : List Text) :
    Utf8.encode (Text.join "\r\n" parts) = lineEnd.intercalate (parts.map Utf8.encode) := by
  have hend : ("\r\n" : Text) = 0x0D :: [0x0A] := by decide
  -- What stands between two parts is ASCII, so no pair is made across it.
  induction parts with
  | nil => rfl
  | cons part rest ih =>
      cases rest with
      | nil => rw [Text.join, List.intercalate_singleton, List.map_singleton,
          List.intercalate_singleton]
      | cons next rest =>
          rw [Text.join, List.intercalate_cons_cons, List.append_assoc, hend, List.cons_append,
            Utf8.encode_append_cons (by decide), Utf8.encode_cons (by decide),
            List.singleton_append, Utf8.encode_cons (by decide), ← hend]
          rw [Text.join] at ih
          rw [ih, List.map_cons (l := next :: rest), List.map_cons, List.intercalate_cons_cons,
            List.append_assoc]
          rfl

section Request

variable (host : Text) (credentials : Credentials) (length : Nat)

/-- The lines of the head of a request. -/
def headLines : List Text :=
  ["POST / HTTP/1.0", "Host: " ++ host, "Authorization: " ++ authorization credentials,
    "Content-Type: application/json", "Content-Length: " ++ Text.ofNat length]

theorem head_eq_join :
    head host credentials length = Text.join "\r\n" (headLines host credentials length)
      ++ ("\r\n\r\n" : Text) := by
  -- The texts that the head is written with run over the ends of the lines.
  have hfirst : ("POST / HTTP/1.0\r\nHost: " : Text)
      = ("POST / HTTP/1.0" : Text) ++ (("\r\n" : Text) ++ ("Host: " : Text)) := by decide
  have hsecond : ("\r\nAuthorization: " : Text)
      = ("\r\n" : Text) ++ ("Authorization: " : Text) := by decide
  have hthird : ("\r\nContent-Type: application/json\r\nContent-Length: " : Text)
      = ("\r\n" : Text) ++ (("Content-Type: application/json" : Text) ++
        (("\r\n" : Text) ++ ("Content-Length: " : Text))) := by decide
  simp only [head, headLines, Text.join, List.intercalate_cons_cons, List.intercalate_singleton,
    hfirst, hsecond, hthird, List.append_assoc]

theorem encode_head :
    Utf8.encode (head host credentials length)
      = lineEnd.intercalate ((headLines host credentials length).map Utf8.encode) ++ blankLine := by
  have hblank : ("\r\n\r\n" : Text) = 0x0D :: [0x0A, 0x0D, 0x0A] := by decide
  rw [head_eq_join, hblank, Utf8.encode_append_cons (by decide), encode_join]
  rfl

variable {host}

/-- None of the lines of a head can break it, unless the host does. -/
theorem plain_of_mem_headLines (hreturn : 0x0D ∉ host) (hfeed : 0x0A ∉ host) :
    ∀ line ∈ headLines host credentials length, Plain (Utf8.encode line) := by
  have hword : ∀ {word t : Text}, word ≠ [] → OneLine word → OneLine t →
      Plain (Utf8.encode (word ++ t)) :=
    fun hne hw ht => plain_encode (fun hc => hne (List.append_eq_nil_iff.mp hc).1) (hw.append ht)
  have hletters : OneLine (authorization credentials) :=
    OneLine.append (by decide) (oneLine_of_le fun u hu => (Base64.encode_bounds _ u hu).1)
  have hdigits : OneLine (Text.ofNat length) :=
    oneLine_of_le fun u hu => UInt16.le_trans (by decide) ((Json.digits_ofNat length).2 u hu).1
  simp only [headLines, List.forall_mem_cons, List.not_mem_nil, false_implies, implies_true,
    and_true]
  exact ⟨plain_encode (by decide) (by decide), hword (by decide) (by decide) ⟨hreturn, hfeed⟩,
    hword (by decide) (by decide) hletters, plain_encode (by decide) (by decide),
    hword (by decide) (by decide) hdigits⟩

/-- A request is its head, a blank line that comes before no other, and the
    body. The head is five lines, of which the last says how long the body is and
    another holds the credentials. -/
theorem exists_head_of_request (hreturn : 0x0D ∉ host) (hfeed : 0x0A ∉ host) (body : Text) :
    ∃ head payload digits,
      request host credentials body = head ++ (blankLine ++ Utf8.encode body) ∧
      SingleBlankLine head ∧ (∀ line ∈ linesOf head, Plain line) ∧
      linesOf head = [Utf8.encode "POST / HTTP/1.0", Utf8.encode ("Host: " ++ host),
        Utf8.encode ("Authorization: Basic " ++ payload),
        Utf8.encode "Content-Type: application/json",
        Utf8.encode ("Content-Length: " ++ digits)] ∧
      digits.isDigits = true ∧ digits.digitsValue = (Utf8.encode body).length ∧
      Base64.decode payload
        = some (Utf8.encode credentials.user ++ 0x3A :: Utf8.encode credentials.password) := by
  let length := (Utf8.encode body).length
  let lines := (headLines host credentials length).map Utf8.encode
  have hplain : ∀ line ∈ lines, Plain line :=
    List.forall_mem_map.mpr (plain_of_mem_headLines credentials length hreturn hfeed)
  have hlines : linesOf (lineEnd.intercalate lines) = lines :=
    linesOf_intercalate (List.cons_ne_nil _ _) hplain
  have hdigits := Json.digits_ofNat length
  refine ⟨lineEnd.intercalate lines,
    Base64.encode (Utf8.encode (credentials.user ++ ascii ':' :: credentials.password)),
    Text.ofNat length, ?_, singleBlankLine_intercalate hplain, ?_, ?_, ?_,
    Json.digitsValue_ofNat length, ?_⟩
  · rw [request, encode_head, List.append_assoc]
  · rw [hlines]
    exact hplain
  · rw [hlines]
    rfl
  · rw [Text.isDigits, List.all_eq_true.mpr hdigits.isDigit, Bool.and_true, Bool.not_eq_true',
      List.isEmpty_eq_false_iff]
    exact hdigits.1
  · rw [Base64.decode_encode, Utf8.encode_append_cons (by decide), Utf8.encode_cons (by decide)]
    rfl

end Request

/-! ### The body -/

section Body

variable {id : Nat} {method : Text} {params : List Value}

theorem part_envelope {u : Value} (h : Value.Part u (envelope id method params)) :
    (u = envelope id method params ∨ u = .string "1.1" ∨ u = .int (Int64.ofNat id) ∨
      u = .string method ∨ u = .array params) ∨ ∃ v ∈ params, Value.Part u v := by
  cases h with
  | self => exact .inl (.inl rfl)
  | entry he h =>
      simp only [List.mem_cons, List.not_mem_nil, or_false] at he
      rcases he with rfl | rfl | rfl | rfl
      · cases h with
        | self => exact .inl (.inr (.inl rfl))
      · cases h with
        | self => exact .inl (.inr (.inr (.inl rfl)))
      · cases h with
        | self => exact .inl (.inr (.inr (.inr (.inl rfl))))
      · cases h with
        | self => exact .inl (.inr (.inr (.inr (.inr rfl))))
        | item hv h => exact .inr ⟨_, hv, h⟩

theorem sendable_string {s : Text} (h : s.WellFormed) : (Value.string s).Sendable where
  distinct := by
    intro es hes
    cases hes
  wellFormed := by
    refine ⟨fun t ht => ?_, fun es hes => ?_⟩
    · cases ht
      exact h
    · cases hes
  finite := by
    intro x hx
    cases hx
  survive := by
    intro x hx
    cases hx

/-- Nothing of a call is lost if nothing of its parameters is. -/
theorem sendable_envelope (hmethod : method.WellFormed) (hparams : ∀ v ∈ params, v.Sendable) :
    (envelope id method params).Sendable where
  distinct := by
    intro es h
    rcases part_envelope h with h | ⟨v, hv, h⟩
    · rcases h with h | h | h | h | h <;> cases h
      exact (by decide : ([("jsonrpc" : Text), "id", "method", "params"]).Nodup)
    · exact (hparams v hv).distinct es h
  wellFormed := by
    refine ⟨fun s h => ?_, fun es h => ?_⟩
    · rcases part_envelope h with h | ⟨v, hv, h⟩
      · rcases h with h | h | h | h | h <;> cases h
        · decide
        · exact hmethod
      · exact (hparams v hv).wellFormed.strings s h
    · rcases part_envelope h with h | ⟨v, hv, h⟩
      · rcases h with h | h | h | h | h <;> cases h
        exact fun e he => (by decide : ∀ k ∈ [("jsonrpc" : Text), "id", "method", "params"],
          k.WellFormed) e.1 (List.mem_map_of_mem (f := Prod.fst) he)
      · exact (hparams v hv).wellFormed.keys es h
  finite := by
    intro x h
    rcases part_envelope h with h | ⟨v, hv, h⟩
    · rcases h with h | h | h | h | h <;> cases h
    · exact (hparams v hv).finite x h
  survive := by
    intro x h
    rcases part_envelope h with h | ⟨v, hv, h⟩
    · rcases h with h | h | h | h | h <;> cases h
    · exact (hparams v hv).survive x h

/-- The entries of an envelope in the order in which they are written. -/
theorem sorted_envelope :
    (envelope id method params).sorted
      = .object [("id", .int (Int64.ofNat id)), ("jsonrpc", .string "1.1"),
        ("method", .string method), ("params", .array (params.map Value.sorted))] := by
  have hmethod : Text.isLE "method" "params" = true := by decide
  have hid : Text.isLE "id" "method" = true := by decide
  have hbehind : Text.isLE "jsonrpc" "id" = false := by decide
  have hversion : Text.isLE "jsonrpc" "method" = true := by decide
  simp only [envelope, Value.sorted, Value.sortedEntries, Value.sortedItems_eq_map,
    Json.sortByKey, List.foldr_cons, List.foldr_nil, Json.insertByKey, hmethod, hid, hbehind,
    hversion, if_true, Bool.false_eq_true, if_false]

end Body

/-! ### Calls in a row -/

/-- A call, and what comes back on its connection. -/
structure Turn where
  method : Text
  params : List Value
  exchange : Exchange

/-- What a client sends when it is called again and again, and what comes of it. -/
def Client.converse (client : Client) : List Turn → List (Bytes × Except Error Value)
  | [] => []
  | turn :: rest =>
    let (sent, next) := client.request turn.method turn.params
    (sent, client.conclude turn.exchange) :: next.converse rest

/-- A number is spent on every call, whatever becomes of it. -/
theorem getElem?_converse (client : Client) (turns : List Turn) (k : Nat) :
    (client.converse turns)[k]? = turns[k]?.map fun turn =>
      (request client.config.host client.config.credentials
        (envelope (client.nextId + k) turn.method turn.params).compact,
        client.conclude turn.exchange) := by
  -- The client is another one after every call, and only its number differs.
  induction turns generalizing client k with
  | nil => rfl
  | cons turn rest ih =>
      cases k with
      | zero => rfl
      | succ k =>
          have hnumber : client.nextId + (k + 1) = client.nextId + 1 + k := by omega
          have hconclude : ∀ exchange,
              (client.request turn.method turn.params).2.conclude exchange
                = client.conclude exchange := by
            intro exchange
            cases exchange <;> rfl
          rw [Client.converse, List.getElem?_cons_succ, List.getElem?_cons_succ, ih]
          simp only [hconclude, hnumber]
          rfl

/-- What the node receives with any call of a client whose host does not hold
    the end of a line. Before the first blank line are five lines, which the
    credentials and the call neither add to nor break; the last says how many
    bytes come after it. These are read as the call with its number in the row,
    and the credentials are read as they were given. Nothing is asked of the
    other calls, nor of what became of them. -/
theorem receives_converse {config : Config} {client : Client}
    (hclient : Client.ofConfig config = .ok client) (hreturn : 0x0D ∉ config.host)
    (hfeed : 0x0A ∉ config.host) {turns : List Turn} {k : Nat} {turn : Turn}
    (hturn : turns[k]? = some turn) (hmethod : turn.method.WellFormed)
    (hparams : ∀ v ∈ turn.params, v.Sendable) :
    ∃ outcome head text payload digits params,
      (client.converse turns)[k]? = some (head ++ (blankLine ++ Utf8.encode text), outcome) ∧
      SingleBlankLine head ∧ (∀ line ∈ linesOf head, Plain line) ∧
      linesOf head = [Utf8.encode "POST / HTTP/1.0", Utf8.encode ("Host: " ++ config.host),
        Utf8.encode ("Authorization: Basic " ++ payload),
        Utf8.encode "Content-Type: application/json",
        Utf8.encode ("Content-Length: " ++ digits)] ∧
      digits.isDigits = true ∧ digits.digitsValue = (Utf8.encode text).length ∧
      Utf8.decode (Utf8.encode text) = text ∧
      Json.parse text = .ok (.object [("id", .int (Int64.ofNat (k + 1))),
        ("jsonrpc", .string "1.1"), ("method", .string turn.method), ("params", .array params)]) ∧
      List.Forall₂ Value.Same params turn.params ∧
      (k + 1 < 2 ^ 63 → (Int64.ofNat (k + 1)).toInt = k + 1) ∧
      Base64.decode payload = some (Utf8.encode config.credentials.user ++
        0x3A :: Utf8.encode config.credentials.password) := by
  -- A new client has sent nothing, so its first number is one.
  have hconfig : client = ⟨config, 1⟩ := by
    unfold Client.ofConfig at hclient
    split at hclient
    · exact absurd hclient (by simp only [reduceCtorEq, not_false_eq_true])
    · split at hclient
      · exact (Except.ok.inj hclient).symm
      · exact absurd hclient (by simp only [reduceCtorEq, not_false_eq_true])
  have hsendable : (envelope (k + 1) turn.method turn.params).Sendable :=
    sendable_envelope hmethod hparams
  obtain ⟨head, payload, digits, hrequest, hblank, hplain, hlines, hdigits, hlength, hpayload⟩ :=
    exists_head_of_request config.credentials hreturn hfeed
      (envelope (k + 1) turn.method turn.params).compact
  refine ⟨client.conclude turn.exchange, head, _, payload, digits, turn.params.map Value.sorted, ?_,
    hblank, hplain, hlines, hdigits, hlength, ?_, ?_, ?_, Int64.toInt_ofNat_of_lt, hpayload⟩
  · rw [getElem?_converse, hturn, Option.map_some, hconfig, Nat.add_comm 1 k, hrequest]
  · exact Utf8.decode_encode (Value.wellFormed_printAt hsendable.wellFormed none 0)
  · rw [← sorted_envelope]
    exact Value.parse_sorted hsendable none
  · exact List.forall₂_map_left_iff.mpr
      (List.forall₂_same.mpr fun v hv => (hparams v hv).distinct.same_sorted)

/-- Settings with the end of a line in the name of the user and half a pair in
    the password. -/
def sampleConfig : Config := ⟨"localhost", 8332, ⟨"user\r\nHost: other", [0xD800]⟩, 1000⟩

/-- A call that has no well-formed method and no reply, and one with a blank
    line among its parameters. -/
def sampleTurns : List Turn :=
  [⟨[0xD800], [], .silent⟩, ⟨"getblockhash", [.string "\r\n\r\n"], .closed []⟩]

/-- The second call of the sample is received with the second number, and its
    head has five lines. -/
theorem receives_converse_sample :
    ∃ client, Client.ofConfig sampleConfig = .ok client ∧ ∃ outcome head text params,
      (client.converse sampleTurns)[1]? = some (head ++ (blankLine ++ Utf8.encode text), outcome) ∧
      SingleBlankLine head ∧ (linesOf head).length = 5 ∧
      Json.parse text = .ok (.object [("id", .int 2), ("jsonrpc", .string "1.1"),
        ("method", .string "getblockhash"), ("params", .array params)]) := by
  have hclient : Client.ofConfig sampleConfig = .ok ⟨sampleConfig, 1⟩ := by
    rw [Client.ofConfig, if_neg (by decide), if_pos (by decide)]
  obtain ⟨outcome, head, text, payload, digits, params, hsent, hblank, -, hlines, -, -, -, hparse,
      -⟩ :=
    receives_converse hclient (by decide) (by decide) (show sampleTurns[1]? = some _ from rfl)
      (by decide) (List.forall_mem_singleton.mpr (sendable_string (by decide)))
  refine ⟨_, hclient, outcome, head, text, params, hsent, hblank, ?_, hparse⟩
  rw [hlines]
  rfl

end Rpc

end NodeWatch
