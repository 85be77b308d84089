import NodeWatch.Lookup.Stage
import NodeWatch.Proofs.Decimal.Digits

/-!
# The Turns of a Lookup

A lookup asks and is answered, and what it asks next depends on the answers. So
what the node is asked is as much a result of a lookup as its outcome is, and
both are stated here about the turns that were taken, each a question with its
answer. The node may be anything: it may answer any value or fail with anything,
and it may do so differently each time it is asked.

The turns are counted by the node itself. It is given a list to write them into
and is otherwise left as it was, so nothing is asked that is not on the list.

`Course` says which turns belong together and what they come to, with no stages
in between, and `resolve_course` says that the turns of a lookup are the only
course that fits what the node answers. It follows that whatever is true of all
courses is true of a lookup: how many turns it takes, which failure is told, and
what it matters that the transaction which names the pool cannot be read.

## Main definitions

* `Turn`: A question and its answer.
* `logged`, `turns`: The turns that are taken with a node.
* `replies`: What a node answers to given questions.
* `Leads`: The turns from a move of the machine on.
* `PoolBy`, `Fetch`, `Course`: The turns of a lookup and their outcome.
* `Fails`: A turn with which a lookup fails.

## Theorems

* `finish_logged`: A run of the machine is a list of turns.
* `Leads.unique`: The answers determine the turns.
* `leads_begin_iff`: The courses are what the machine goes through.
* `Course.split`: The turns from the question for a block on.
* `Course.failed_iff`: Which failure is told.
* `resolve_course`: The turns of a lookup and its outcome.
-/

namespace NodeWatch

namespace Lookup

open Json (Value)

/-- A question and its answer. -/
abbrev Turn := Rpc.Call × Rpc.Answer

section Node

variable {σ : Type} (node : σ → Rpc.Call → Rpc.Answer × σ)

/-- A node that writes down its turns. -/
def logged (s : σ × List Turn) (call : Rpc.Call) : Rpc.Answer × (σ × List Turn) :=
  let (answer, t) := node s.1 call
  (answer, t, s.2 ++ [(call, answer)])

/-- The turns that a lookup takes. -/
def turns (query : Query) (s : σ) : List Turn := (resolve (logged node) query (s, [])).2.2

/-- The answers to questions that are asked one after the other. -/
def replies : σ → List Rpc.Call → List Rpc.Answer
  | _, [] => []
  | s, call :: calls => (node s call).1 :: replies (node s call).2 calls

end Node

/-- The turns from a move of the machine on, and the outcome they lead to. -/
inductive Leads (query : Query) : Move → List Turn → Outcome → Prop where
  | done {outcome : Outcome} : Leads query (.done outcome) [] outcome
  | ask {call : Rpc.Call} {stage : Stage} {answer : Rpc.Answer} {log : List Turn}
      {outcome : Outcome} (h : Leads query (next query stage answer) log outcome) :
      Leads query (.ask call stage) ((call, answer) :: log) outcome

/-- The first of the transactions that a block lists. -/
def listedFirst (found : Value) : Value := (found.field "tx").at (.index 0)

/-- The hexadecimal text of the first input of a transaction. -/
def script (transaction : Value) : Text :=
  ((transaction.field "vin").at (.index 0)).textOr "coinbase" []

/-- The name of a pool by the answer about the transaction that pays it. There
    is none if there is no transaction, and none if its first input is garbled. -/
inductive PoolBy : Rpc.Answer → Text → Prop where
  | tag {transaction : Value} {tag : Text} (h : PoolTag.ofCoinbase (script transaction) = .ok tag) :
      PoolBy (.ok transaction) tag
  | garbled {transaction : Value} {e : Hex.Error}
      (h : PoolTag.ofCoinbase (script transaction) = .error e) :
      PoolBy (.ok transaction) PoolTag.placeholder
  | failed {e : Rpc.Error} : PoolBy (.error e) PoolTag.placeholder

/-- The turns in which a block is asked for by its hash, and what they come to. -/
inductive Fetch (hash : Text) : List Turn → Outcome → Prop where
  | failed {e : Rpc.Error} : Fetch hash [(.blockByHash hash, .error e)] (.failed e.message)
  | plain {found : Value} (h : ∀ txid, listedFirst found ≠ .string txid) :
      Fetch hash [(.blockByHash hash, .ok found)] (.block (Block.ofJson found hash))
  | paid {found : Value} {txid pool : Text} {answer : Rpc.Answer}
      (h : listedFirst found = .string txid) (hpool : PoolBy answer pool) :
      Fetch hash [(.blockByHash hash, .ok found), (.transaction txid true, answer)]
        (.block { Block.ofJson found hash with pool })

/-- The question for the hash at a height that is written in digits. -/
def askHeight (text : Text) : Rpc.Call := .blockHash (Double.ofNat (Text.digitsValue text))

/-- The turns of a lookup and what they come to. -/
inductive Course (text : Text) (tip : Double) : List Turn → Outcome → Prop where
  | noHash {e : Rpc.Error} (hheight : Hex.isHeight text = true) :
      Course text tip [(askHeight text, .error e)] (.failed e.message)
  | badHash {v : Value} (hheight : Hex.isHeight text = true) (hv : ∀ hash, v ≠ .string hash) :
      Course text tip [(askHeight text, .ok v)]
        (.failed (Json.AccessError.conversion v.kind .string).message)
  | byHeight {hash : Text} {log : List Turn} {outcome : Outcome}
      (hheight : Hex.isHeight text = true) (hfetch : Fetch hash log outcome) :
      Course text tip ((askHeight text, .ok (.string hash)) :: log) outcome
  | pending {entry : Value} (hheight : Hex.isHeight text = false) :
      Course text tip [(.mempoolEntry text, .ok entry)] (.pending (PendingTx.ofJson entry))
  | confirmed {e : Rpc.Error} {tx : Value} (hheight : Hex.isHeight text = false) :
      Course text tip [(.mempoolEntry text, .error e), (.transaction text true, .ok tx)]
        (.confirmed (ConfirmedTx.ofJson tx tip))
  | byHash {e₁ e₂ : Rpc.Error} {log : List Turn} {outcome : Outcome}
      (hheight : Hex.isHeight text = false) (hfetch : Fetch text log outcome) :
      Course text tip
        ((.mempoolEntry text, .error e₁) :: (.transaction text true, .error e₂) :: log) outcome

/-- The turns with which a lookup fails, and what they tell. A block is not
    found, by its height or by its hash, or its hash is no text. -/
inductive Fails : Turn → Text → Prop where
  | height {height : Double} {e : Rpc.Error} : Fails (.blockHash height, .error e) e.message
  | kind {height : Double} {v : Value} (hv : ∀ hash, v ≠ .string hash) :
      Fails (.blockHash height, .ok v) (Json.AccessError.conversion v.kind .string).message
  | hash {hash : Text} {e : Rpc.Error} : Fails (.blockByHash hash, .error e) e.message

/-! ### A run of the machine -/

section Run

variable {σ : Type} {node : σ → Rpc.Call → Rpc.Answer × σ} {query : Query}

theorem finish_done (s : σ) (outcome : Outcome) :
    finish node query s (.done outcome) = (outcome, s) := by
  rw [finish]

theorem finish_ask (s : σ) (call : Rpc.Call) (stage : Stage) :
    finish node query s (.ask call stage)
      = finish node query (node s call).2 (next query stage (node s call).1) := by
  rw [finish]

/-- From any move on the machine takes the turns that the answers of the node
    lead to. Writing them down changes nothing. -/
theorem finish_logged (node : σ → Rpc.Call → Rpc.Answer × σ) (s : σ) (move : Move)
    (old : List Turn) :
    ∃ log, Leads query move log (finish node query s move).1 ∧
      replies node s (log.map Prod.fst) = log.map Prod.snd ∧
      finish (logged node) query (s, old) move
        = ((finish node query s move).1, (finish node query s move).2, old ++ log) := by
  induction s, move using finish.induct node query generalizing old with
  | case1 s outcome =>
      rw [finish_done, finish_done]
      exact ⟨[], .done, rfl, by rw [List.append_nil]⟩
  | case2 s call stage answer t hnode ih =>
      rcases ih (old ++ [(call, answer)]) with ⟨log, hleads, hreplies, hlogged⟩
      rw [finish_ask, hnode, finish_ask, logged, hnode]
      refine ⟨(call, answer) :: log, .ask hleads, ?_, ?_⟩
      · rw [List.map_cons, List.map_cons, replies, hnode, hreplies]
      · rw [hlogged, List.append_assoc, List.singleton_append]

/-- There is no other way to go on with the answers of a node. -/
theorem Leads.unique {s : σ} {move : Move} {log log' : List Turn} {outcome outcome' : Outcome}
    (h : Leads query move log outcome) (h' : Leads query move log' outcome')
    (hreplies : replies node s (log.map Prod.fst) = log.map Prod.snd)
    (hreplies' : replies node s (log'.map Prod.fst) = log'.map Prod.snd) :
    log' = log ∧ outcome' = outcome := by
  induction h generalizing s log' outcome' with
  | done =>
      cases h'
      exact ⟨rfl, rfl⟩
  | ask _ ih =>
      cases h' with
      | ask hnext =>
          simp only [List.map_cons, replies, List.cons.injEq] at hreplies hreplies'
          obtain rfl := hreplies'.1.symm.trans hreplies.1
          rcases ih hnext hreplies.2 hreplies'.2 with ⟨rfl, rfl⟩
          exact ⟨rfl, rfl⟩

theorem exists_replies_append (node : σ → Rpc.Call → Rpc.Answer × σ) (s : σ)
    (calls : List Rpc.Call) (call : Rpc.Call) :
    ∃ answer, replies node s (calls ++ [call]) = replies node s calls ++ [answer] := by
  induction calls generalizing s with
  | nil => exact ⟨_, rfl⟩
  | cons first calls ih =>
      rcases ih (node s first).2 with ⟨answer, hrest⟩
      refine ⟨answer, ?_⟩
      rw [List.cons_append, replies, hrest, replies, List.cons_append]

end Run

/-! ### The courses -/

section Courses

variable {query : Query} {text hash : Text} {tip : Double} {log : List Turn} {outcome : Outcome}

theorem leads_done_iff {result : Outcome} :
    Leads query (.done result) log outcome ↔ log = [] ∧ outcome = result := by
  constructor
  · rintro ⟨⟩
    exact ⟨rfl, rfl⟩
  · rintro ⟨rfl, rfl⟩
    exact .done

theorem leads_ask_iff {call : Rpc.Call} {stage : Stage} :
    Leads query (.ask call stage) log outcome ↔
      ∃ answer rest, log = (call, answer) :: rest ∧
        Leads query (next query stage answer) rest outcome := by
  constructor
  · rintro ⟨⟩
    exact ⟨_, _, rfl, by assumption⟩
  · rintro ⟨answer, rest, rfl, h⟩
    exact .ask h

theorem firstTransaction?_eq_some_iff {found : Value} {txid : Text} :
    firstTransaction? found = some txid ↔ listedFirst found = .string txid := by
  rw [firstTransaction?, ← listedFirst]
  cases listedFirst found <;>
    simp only [Value.asText?, reduceCtorEq, Option.some.injEq, Value.string.injEq]

theorem poolBy_ok_iff {transaction : Value} {pool : Text} :
    PoolBy (.ok transaction) pool ↔ pool = poolOf transaction := by
  rw [poolOf, ← script]
  cases h : PoolTag.ofCoinbase (script transaction) with
  | error e =>
      refine ⟨fun hpool => ?_, fun heq => heq ▸ .garbled h⟩
      cases hpool with
      | tag htag => cases h.symm.trans htag
      | garbled => rfl
  | ok tag =>
      refine ⟨fun hpool => ?_, fun heq => heq ▸ .tag h⟩
      cases hpool with
      | tag htag => exact Except.ok.inj (htag.symm.trans h)
      | garbled he => cases h.symm.trans he

theorem exists_poolBy (answer : Rpc.Answer) : ∃ pool, PoolBy answer pool := by
  cases answer with
  | error e => exact ⟨_, .failed⟩
  | ok transaction => exact ⟨_, poolBy_ok_iff.mpr rfl⟩

theorem leads_withBlock_iff {found : Value} :
    Leads query (withBlock found hash) log outcome ↔
      Fetch hash ((.blockByHash hash, .ok found) :: log) outcome := by
  unfold withBlock
  cases hfirst : firstTransaction? found with
  | none =>
      have hnone : ∀ txid, listedFirst found ≠ .string txid := fun txid h => by
        rw [firstTransaction?_eq_some_iff.mpr h] at hfirst
        cases hfirst
      simp only [leads_done_iff]
      constructor
      · rintro ⟨rfl, rfl⟩
        exact .plain hnone
      · intro h
        cases h with
        | plain => exact ⟨rfl, rfl⟩
        | paid h => exact absurd h (hnone _)
  | some txid =>
      rw [firstTransaction?_eq_some_iff] at hfirst
      simp only [leads_ask_iff]
      constructor
      · rintro ⟨answer, rest, rfl, h⟩
        cases answer with
        | error e =>
            rcases leads_done_iff.mp h with ⟨rfl, rfl⟩
            exact .paid hfirst .failed
        | ok transaction =>
            rcases leads_done_iff.mp h with ⟨rfl, rfl⟩
            exact .paid hfirst (poolBy_ok_iff.mpr rfl)
      · intro h
        cases h with
        | plain h => exact absurd hfirst (h txid)
        | @paid _ txid' pool answer h hpool =>
            obtain rfl := Value.string.inj (h.symm.trans hfirst)
            refine ⟨answer, [], rfl, ?_⟩
            cases answer with
            | error e =>
                cases hpool
                exact .done
            | ok transaction =>
                rw [poolBy_ok_iff.mp hpool]
                exact .done

theorem leads_askBlock_iff : Leads query (askBlock hash) log outcome ↔ Fetch hash log outcome := by
  rw [askBlock, leads_ask_iff]
  constructor
  · rintro ⟨answer, rest, rfl, h⟩
    cases answer with
    | error e =>
        rcases leads_done_iff.mp h with ⟨rfl, rfl⟩
        exact .failed
    | ok found => exact leads_withBlock_iff.mp h
  · intro h
    cases h with
    | failed => exact ⟨_, _, rfl, .done⟩
    | plain h => exact ⟨_, _, rfl, leads_withBlock_iff.mpr (.plain h)⟩
    | paid h hpool => exact ⟨_, _, rfl, leads_withBlock_iff.mpr (.paid h hpool)⟩

theorem leads_height_iff (hheight : Hex.isHeight text = true) :
    Leads query (begin ⟨text, true, tip⟩) log outcome ↔ Course text tip log outcome := by
  have hnumber : Double.ofNumeral text = Double.ofNat (Text.digitsValue text) := by
    simp only [Hex.isHeight, Bool.and_eq_true, decide_eq_true_eq, List.all_eq_true] at hheight
    exact Double.ofNumeral_digits (List.length_pos_iff.mp hheight.1.1) (by omega) hheight.2
  rw [begin, if_pos rfl, hnumber, ← askHeight, leads_ask_iff]
  constructor
  · rintro ⟨answer, rest, rfl, h⟩
    cases answer with
    | error e =>
        rcases leads_done_iff.mp h with ⟨rfl, rfl⟩
        exact .noHash hheight
    | ok v =>
        cases v with
        | string hash => exact .byHeight hheight (leads_askBlock_iff.mp h)
        | _ =>
            rcases leads_done_iff.mp h with ⟨rfl, rfl⟩
            exact .badHash hheight fun hash hc => Value.noConfusion hc
  · intro h
    cases h with
    | noHash => exact ⟨_, _, rfl, .done⟩
    | @badHash v _ hv =>
        refine ⟨_, _, rfl, ?_⟩
        cases v with
        | string hash => exact absurd rfl (hv hash)
        | _ => exact .done
    | byHeight _ hfetch => exact ⟨_, _, rfl, leads_askBlock_iff.mpr hfetch⟩
    | pending hother | confirmed hother | byHash hother => cases hheight.symm.trans hother

theorem leads_other_iff (hheight : Hex.isHeight text = false) :
    Leads ⟨text, false, tip⟩ (begin ⟨text, false, tip⟩) log outcome ↔
      Course text tip log outcome := by
  rw [begin, if_neg Bool.false_ne_true, leads_ask_iff]
  constructor
  · rintro ⟨answer, rest, rfl, hpending⟩
    cases answer with
    | ok entry =>
        rcases leads_done_iff.mp hpending with ⟨rfl, rfl⟩
        exact .pending hheight
    | error e₁ =>
        rcases leads_ask_iff.mp hpending with ⟨answer, rest, rfl, hconfirmed⟩
        cases answer with
        | ok tx =>
            rcases leads_done_iff.mp hconfirmed with ⟨rfl, rfl⟩
            exact .confirmed hheight
        | error e₂ => exact .byHash hheight (leads_askBlock_iff.mp hconfirmed)
  · intro h
    cases h with
    | noHash hother | badHash hother | byHeight hother => cases hheight.symm.trans hother
    | pending => exact ⟨_, _, rfl, .done⟩
    | confirmed => exact ⟨_, _, rfl, .ask .done⟩
    | byHash _ hfetch => exact ⟨_, _, rfl, .ask (leads_askBlock_iff.mpr hfetch)⟩

/-- The courses are what the machine goes through. -/
theorem leads_begin_iff :
    Leads ⟨text, Hex.isHeight text, tip⟩ (begin ⟨text, Hex.isHeight text, tip⟩) log outcome ↔
      Course text tip log outcome := by
  cases hheight : Hex.isHeight text with
  | true => exact leads_height_iff hheight
  | false => exact leads_other_iff hheight

theorem Fetch.length_le (h : Fetch hash log outcome) : log.length ≤ 2 := by
  cases h <;> exact Nat.le_of_ble_eq_true rfl

theorem Course.length_le (h : Course text tip log outcome) : log.length ≤ 4 := by
  cases h with
  | byHeight _ hfetch => exact Nat.succ_le_succ (hfetch.length_le.trans (Nat.le_succ 2))
  | byHash _ hfetch => exact Nat.add_le_add_right hfetch.length_le 2
  | _ => exact Nat.le_of_ble_eq_true rfl

/-! ### Failures -/

theorem exists_last_iff {turn : Turn} {P : Turn → Prop} (h : log.getLast? = some turn) :
    (∃ last, log.getLast? = some last ∧ P last) ↔ P turn := by
  simp only [h, Option.some.injEq, exists_eq_left']

theorem Fetch.failed_iff {message : Text} (h : Fetch hash log outcome) :
    outcome = .failed message ↔ ∃ last, log.getLast? = some last ∧ Fails last message := by
  cases h with
  | failed =>
      rw [exists_last_iff rfl, Outcome.failed.injEq]
      constructor
      · rintro rfl
        exact .hash
      · rintro ⟨⟩
        rfl
  | plain | paid =>
      rw [exists_last_iff rfl]
      exact iff_of_false (by rintro ⟨⟩) (by rintro ⟨⟩)

theorem Fetch.getLast?_cons (h : Fetch hash log outcome) (front : Turn) :
    (front :: log).getLast? = log.getLast? := by
  cases h <;> rfl

/-- A lookup fails if its last turn does, and with the words of that turn. -/
theorem Course.failed_iff {message : Text} (h : Course text tip log outcome) :
    outcome = .failed message ↔ ∃ last, log.getLast? = some last ∧ Fails last message := by
  cases h with
  | noHash =>
      rw [exists_last_iff rfl, Outcome.failed.injEq]
      constructor
      · rintro rfl
        exact .height
      · rintro ⟨⟩
        rfl
  | badHash _ hv =>
      rw [exists_last_iff rfl, Outcome.failed.injEq]
      constructor
      · rintro rfl
        exact .kind hv
      · rintro ⟨⟩
        rfl
  | byHeight _ hfetch =>
      rw [hfetch.getLast?_cons]
      exact hfetch.failed_iff
  | pending | confirmed =>
      rw [exists_last_iff rfl]
      exact iff_of_false (by rintro ⟨⟩) (by rintro ⟨⟩)
  | byHash _ hfetch =>
      rw [List.getLast?_cons_cons, hfetch.getLast?_cons]
      exact hfetch.failed_iff

/-! ### Blocks -/

section Split

variable {before after : List Turn} {found : Value}

theorem split_cons {turn front : Turn} {rest : List Turn}
    (h : front :: rest = before ++ turn :: after) :
    before = [] ∧ front = turn ∧ rest = after ∨
      ∃ more, before = front :: more ∧ rest = more ++ turn :: after := by
  rcases List.cons_eq_append_iff.mp h with ⟨hbefore, hrest⟩ | ⟨more, hbefore, hrest⟩
  · rcases List.cons.inj hrest with ⟨rfl, rfl⟩
    exact .inl ⟨hbefore, rfl, rfl⟩
  · exact .inr ⟨more, hbefore, hrest⟩

theorem nil_ne_split {turn : Turn} (before : List Turn) : [] ≠ before ++ turn :: after :=
  (List.append_ne_nil_of_right_ne_nil before (List.cons_ne_nil turn after)).symm

/-- In the turns in which a block is asked for it is asked for first. -/
theorem Fetch.front {hash' : Text} (h : Fetch hash' log outcome)
    (hlog : log = before ++ (.blockByHash hash, .ok found) :: after) :
    before = [] ∧ hash' = hash := by
  cases h with
  | failed =>
      rcases split_cons hlog with ⟨-, hfirst, -⟩ | ⟨more, -, hmore⟩
      · cases hfirst
      · exact absurd hmore (nil_ne_split more)
  | plain =>
      rcases split_cons hlog with ⟨hbefore, hfirst, -⟩ | ⟨more, -, hmore⟩
      · cases hfirst
        exact ⟨hbefore, rfl⟩
      · exact absurd hmore (nil_ne_split more)
  | paid =>
      rcases split_cons hlog with ⟨hbefore, hfirst, -⟩ | ⟨more, -, hmore⟩
      · cases hfirst
        exact ⟨hbefore, rfl⟩
      · rcases split_cons hmore with ⟨-, hsecond, -⟩ | ⟨more', -, hmore'⟩
        · cases hsecond
        · exact absurd hmore' (nil_ne_split more')

/-- From the question for a block on the turns are those of `Fetch`, and what
    comes before the question allows all of them. -/
theorem Course.split (h : Course text tip log outcome)
    (hlog : log = before ++ (.blockByHash hash, .ok found) :: after) :
    Fetch hash ((.blockByHash hash, .ok found) :: after) outcome ∧
      ∀ {log' : List Turn} {outcome' : Outcome}, Fetch hash log' outcome' →
        Course text tip (before ++ log') outcome' := by
  cases h with
  | noHash | badHash | pending =>
      rcases split_cons hlog with ⟨-, hfirst, -⟩ | ⟨more, -, hmore⟩
      · cases hfirst
      · exact absurd hmore (nil_ne_split more)
  | byHeight hheight hfetch =>
      rcases split_cons hlog with ⟨-, hfirst, -⟩ | ⟨more, rfl, hmore⟩
      · cases hfirst
      · rcases hfetch.front hmore with ⟨rfl, rfl⟩
        rw [hmore] at hfetch
        exact ⟨hfetch, .byHeight hheight⟩
  | confirmed =>
      rcases split_cons hlog with ⟨-, hfirst, -⟩ | ⟨more, -, hmore⟩
      · cases hfirst
      · rcases split_cons hmore with ⟨-, hsecond, -⟩ | ⟨more', -, hmore'⟩
        · cases hsecond
        · exact absurd hmore' (nil_ne_split more')
  | byHash hheight hfetch =>
      rcases split_cons hlog with ⟨-, hfirst, -⟩ | ⟨more, rfl, hmore⟩
      · cases hfirst
      · rcases split_cons hmore with ⟨-, hsecond, -⟩ | ⟨more', rfl, hmore'⟩
        · cases hsecond
        · rcases hfetch.front hmore' with ⟨rfl, rfl⟩
          rw [hmore'] at hfetch
          exact ⟨hfetch, .byHash hheight⟩

end Split

end Courses

/-! ### Lookups -/

section Resolve

variable {σ : Type}

/-- A lookup goes through a course with what the node answers. -/
theorem exists_course (node : σ → Rpc.Call → Rpc.Answer × σ) (s : σ) (text : Text)
    (tip : Double) :
    ∃ log outcome, turns node ⟨text, Hex.isHeight text, tip⟩ s = log ∧
      (resolve node ⟨text, Hex.isHeight text, tip⟩ s).1 = ⟨text, outcome, .unset⟩ ∧
      Course text tip log outcome ∧ replies node s (log.map Prod.fst) = log.map Prod.snd := by
  rcases finish_logged node s (begin ⟨text, Hex.isHeight text, tip⟩) [] with
    ⟨log, hleads, hreplies, hlogged⟩
  refine ⟨log, _, ?_, rfl, leads_begin_iff.mp hleads, hreplies⟩
  rw [turns, resolve, hlogged]
  rfl

/-- The course is the only one that fits the answers. -/
theorem course_unique {node : σ → Rpc.Call → Rpc.Answer × σ} {s : σ} {text : Text} {tip : Double}
    {log log' : List Turn} {outcome outcome' : Outcome} (h : Course text tip log outcome)
    (hreplies : replies node s (log.map Prod.fst) = log.map Prod.snd)
    (h' : Course text tip log' outcome')
    (hreplies' : replies node s (log'.map Prod.fst) = log'.map Prod.snd) :
    log' = log ∧ outcome' = outcome :=
  (leads_begin_iff.mpr h).unique (leads_begin_iff.mpr h') hreplies hreplies'

/-- What a lookup asks of any node and what it comes to. The result is about
    the text that was looked up, with nothing highlighted. The turns and the
    outcome are those of the one course that fits the answers, which has four
    turns at most, and a lookup fails if the last of them does. When a block
    was found, the transaction that pays its finder is asked for if the block
    lists one, and if it cannot be had or read, no more than the name of the
    pool is lost: another node that answers all but this question alike is
    asked the same questions, and the outcome is the same but for the name. -/
theorem resolve_course (node : σ → Rpc.Call → Rpc.Answer × σ) (s : σ) (text : Text)
    (tip : Double) :
    let query : Query := ⟨text, Hex.isHeight text, tip⟩
    let log := turns node query s
    let result := (resolve node query s).1
    (result.query = text ∧ result.cursor = .unset) ∧
      (∀ log' outcome, log' = log ∧ outcome = result.outcome ↔
        Course text tip log' outcome ∧
          replies node s (log'.map Prod.fst) = log'.map Prod.snd) ∧
      log.length ≤ 4 ∧
      (∀ message, result.outcome = .failed message ↔
        ∃ last, log.getLast? = some last ∧ Fails last message) ∧
      (∀ before hash found after, log = before ++ (.blockByHash hash, .ok found) :: after →
        (∀ txid, listedFirst found = .string txid → ∃ answer pool,
          after = [(.transaction txid true, answer)] ∧ PoolBy answer pool ∧
            result.outcome = .block { Block.ofJson found hash with pool }) ∧
        ((∀ txid, listedFirst found ≠ .string txid) →
          after = [] ∧ result.outcome = .block (Block.ofJson found hash))) ∧
      ∀ {σ' : Type} (node' : σ' → Rpc.Call → Rpc.Answer × σ') (s' : σ') before hash found txid
        answer,
        log = before ++ [(.blockByHash hash, .ok found), (.transaction txid true, answer)] →
        replies node' s' (before.map Prod.fst ++ [.blockByHash hash])
          = before.map Prod.snd ++ [.ok found] →
        ∃ answer' pool, turns node' query s'
            = before ++ [(.blockByHash hash, .ok found), (.transaction txid true, answer')] ∧
          PoolBy answer' pool ∧ (resolve node' query s').1
            = ⟨text, .block { Block.ofJson found hash with pool }, .unset⟩ := by
  intro query log result
  rcases exists_course node s text tip with ⟨log', outcome, hlog, hresult, hcourse, hreplies⟩
  obtain rfl : log = log' := hlog
  have houtcome : result.outcome = outcome := congrArg Result.outcome hresult
  rw [houtcome]
  refine ⟨⟨congrArg Result.query hresult, congrArg Result.cursor hresult⟩, fun log' outcome' => ?_,
    hcourse.length_le, fun message => hcourse.failed_iff, fun before hash found after hsplit => ?_,
    fun node' s' before hash found txid answer hsplit hreplies' => ?_⟩
  · refine ⟨?_, fun h => course_unique hcourse hreplies h.1 h.2⟩
    rintro ⟨rfl, rfl⟩
    exact ⟨hcourse, hreplies⟩
  · have hfetch := (hcourse.split hsplit).1
    refine ⟨fun txid hfirst => ?_, fun hnone => ?_⟩
    · cases hfetch with
      | plain hnone => exact absurd hfirst (hnone txid)
      | paid hfirst' hpool =>
          obtain rfl := Value.string.inj (hfirst'.symm.trans hfirst)
          exact ⟨_, _, rfl, hpool, rfl⟩
    · cases hfetch with
      | plain => exact ⟨rfl, rfl⟩
      | paid hfirst => exact absurd hfirst (hnone _)
  · rcases hcourse.split hsplit with ⟨hfetch, hany⟩
    have hfirst : listedFirst found = .string txid := by
      cases hfetch with
      | paid hfirst => exact hfirst
    -- The other node answers the last question as it likes, and its course ends with that.
    rcases exists_replies_append node' s' (before.map Prod.fst ++ [.blockByHash hash])
      (.transaction txid true) with ⟨answer', hlast⟩
    rcases exists_poolBy answer' with ⟨pool, hpool⟩
    have hcourse' := hany (.paid hfirst hpool)
    rw [hreplies', List.append_assoc, List.append_assoc] at hlast
    rcases exists_course node' s' text tip with ⟨log', outcome', hlog', hresult', htaken, htold⟩
    rcases course_unique htaken htold hcourse'
      (by rw [List.map_append, List.map_append]; exact hlast) with ⟨rfl, rfl⟩
    exact ⟨answer', pool, hlog', hpool, hresult'⟩

/-- A block that lists one transaction. -/
def sampleBlock : Value := .object [("tx", .array [.string "coins"])]

/-- A node that knows this block by any hash, and no transactions. -/
def sampleNode (s : Unit) : Rpc.Call → Rpc.Answer × Unit
  | .block .. => (.ok sampleBlock, s)
  | _ => (.error (.other "unknown"), s)

/-- With this node a lookup takes all four turns, and finds the block without
    the name of a pool. -/
theorem resolve_course_sample :
    let query : Query := ⟨"abc", Hex.isHeight "abc", 0⟩
    let unknown : Rpc.Answer := .error (.other "unknown")
    turns sampleNode query () = [(.mempoolEntry "abc", unknown), (.transaction "abc" true, unknown),
        (.blockByHash "abc", .ok sampleBlock), (.transaction "coins" true, unknown)] ∧
      (resolve sampleNode query ()).1.outcome = .block (Block.ofJson sampleBlock "abc") := by
  intro query unknown
  have hcourse : Course "abc" 0
      [(.mempoolEntry "abc", unknown), (.transaction "abc" true, unknown),
        (.blockByHash "abc", .ok sampleBlock), (.transaction "coins" true, unknown)]
      (.block (Block.ofJson sampleBlock "abc")) := .byHash (by decide) (.paid rfl .failed)
  rcases ((resolve_course sampleNode () "abc" 0).2.1 _ _).mpr ⟨hcourse, rfl⟩ with ⟨hlog, houtcome⟩
  exact ⟨hlog.symm, houtcome.symm⟩

end Resolve

end Lookup

end NodeWatch
