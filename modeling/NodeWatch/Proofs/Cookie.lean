import NodeWatch.Cookie
import NodeWatch.Proofs.Rpc.Request

/-!
# From a Cookie File to the Node

The first line of a cookie file is cut at its first colon, and the two parts
are joined again by a colon when a request is written. So the node is shown the
line that it wrote into the file, whatever else is in it: more colons, a
carriage return, characters of many bytes, nothing at all in front of the colon
or behind it. The cut has to be the first one only because a user has no colon;
any other would be joined to the same line.

The line is described without the way in which it is found. It goes up to the
first line feed or to the end of the text, and one carriage return in that
place belongs to the end of the line.

## Main definitions

* `FirstLine`: The first line of a text.

## Theorems

* `firstLine_iff`: Every text has one first line.
* `parse_eq_joined_iff`: What the credentials of a line are.
* `authorization_of_cookie`: What is shown to the node.
-/

namespace NodeWatch

namespace Cookie

/-- The first line of a text: what comes before the first line feed, or all of
    it. One carriage return at its end is no part of it. -/
inductive FirstLine : Text → Text → Prop where
  | returned {line rest : Text} (hfeed : 0x0A ∉ line) (hrest : Json.Next (· = 0x0A) rest) :
      FirstLine (line ++ 0x0D :: rest) line
  | bare {line rest : Text} (hfeed : 0x0A ∉ line) (hreturn : line.getLast? ≠ some 0x0D)
      (hrest : Json.Next (· = 0x0A) rest) : FirstLine (line ++ rest) line

/-! ### The first of some unit -/

section First

variable {a rest : Text} {u : CodeUnit}

theorem takeWhile_append_of_first (ha : u ∉ a) (hrest : Json.Next (· = u) rest) :
    (a ++ rest).takeWhile (· ≠ u) = a := by
  have hpos : ∀ v ∈ a, decide (v ≠ u) = true :=
    fun v hv => decide_eq_true (ne_of_mem_of_not_mem hv ha)
  rw [List.takeWhile_append_of_pos hpos,
    Json.takeWhile_of_next (hrest.mono fun v hv => decide_eq_false (not_not_intro hv)),
    List.append_nil]

theorem dropWhile_append_of_first (ha : u ∉ a) (hrest : Json.Next (· = u) rest) :
    (a ++ rest).dropWhile (· ≠ u) = rest := by
  have hpos : ∀ v ∈ a, decide (v ≠ u) = true :=
    fun v hv => decide_eq_true (ne_of_mem_of_not_mem hv ha)
  rw [List.dropWhile_append_of_pos hpos,
    Json.dropWhile_of_next (hrest.mono fun v hv => decide_eq_false (not_not_intro hv))]

/-- Every text is cut in front of the first of some unit, or at its end. -/
theorem exists_first (u : CodeUnit) (t : Text) :
    ∃ a rest, t = a ++ rest ∧ u ∉ a ∧ Json.Next (· = u) rest := by
  have hkept : ∀ v ∈ t.takeWhile (fun v => decide (v ≠ u)), v ≠ u := by
    intro v hv
    have hsort := List.mem_takeWhile_imp hv
    exact of_decide_eq_true hsort
  exact ⟨t.takeWhile (· ≠ u), t.dropWhile (· ≠ u), List.takeWhile_append_dropWhile.symm,
    fun hmem => hkept u hmem rfl,
    (Json.next_dropWhile _ t).mono fun v hv => Classical.not_not.mp (of_decide_eq_false hv)⟩

end First

/-! ### The line -/

section Line

variable {text line source : Text} {credentials : Rpc.Credentials}

theorem firstLine_append {a rest : Text} (ha : 0x0A ∉ a) (hrest : Json.Next (· = 0x0A) rest) :
    firstLine (a ++ rest) = if a.getLast? = some 0x0D then a.dropLast else a := by
  simp only [firstLine, takeWhile_append_of_first ha hrest]

/-- Every text has one first line. -/
theorem firstLine_iff : FirstLine text line ↔ firstLine text = line := by
  constructor
  · rintro (⟨hfeed, hrest⟩ | ⟨hfeed, hreturn, hrest⟩)
    · next rest =>
        have hwhole : 0x0A ∉ line ++ [0x0D] := List.not_mem_append hfeed (by decide)
        have hline := firstLine_append hwhole hrest
        rw [List.append_assoc, List.singleton_append] at hline
        rw [hline, if_pos List.getLast?_concat, List.dropLast_concat]
    · rw [firstLine_append hfeed hrest, if_neg hreturn]
  · rintro rfl
    rcases exists_first 0x0A text with ⟨a, rest, rfl, ha, hrest⟩
    rw [firstLine_append ha hrest]
    by_cases hreturn : a.getLast? = some 0x0D
    -- The carriage return is cut off the line and stands in front of the rest.
    · have hwhole : a.dropLast ++ [0x0D] = a := List.dropLast_append_getLast? _ hreturn
      have hkept : 0x0A ∉ a.dropLast := fun hmem => ha (List.mem_of_mem_dropLast hmem)
      have hfirst := FirstLine.returned hkept hrest
      rw [← List.singleton_append, ← List.append_assoc, hwhole] at hfirst
      rw [if_pos hreturn]
      exact hfirst
    · rw [if_neg hreturn]
      exact .bare ha hreturn hrest

/-- The credentials of a line are those that a colon joins to it, and the first
    of them has no colon. -/
theorem parse_eq_joined_iff (hline : FirstLine text line) :
    parse text source = .ok credentials ↔
      ascii ':' ∉ credentials.user ∧
        line = credentials.user ++ ascii ':' :: credentials.password := by
  have hcolon : ∀ {rest : Text}, Json.Next (· = ascii ':') (ascii ':' :: rest) :=
    Json.next_cons.mpr rfl
  rw [parse, firstLine_iff.mp hline]
  constructor
  · intro h
    -- The line is neither empty nor without a colon.
    split at h
    · exact absurd h (by simp only [reduceCtorEq, not_false_eq_true])
    · split at h
      · next hmem =>
          cases h
          rcases exists_first (ascii ':') line with ⟨a, rest, rfl, ha, hrest⟩
          cases rest with
          | nil =>
              rw [List.append_nil] at hmem
              exact absurd hmem ha
          | cons u rest =>
              obtain rfl := Json.next_cons.mp hrest
              simp only [takeWhile_append_of_first ha hcolon, dropWhile_append_of_first ha hcolon]
              exact ⟨ha, rfl⟩
      · exact absurd h (by simp only [reduceCtorEq, not_false_eq_true])
  · rintro ⟨huser, rfl⟩
    rw [if_neg (List.append_ne_nil_of_right_ne_nil _ (List.cons_ne_nil _ _)),
      if_pos (List.mem_append_right _ List.mem_cons_self),
      takeWhile_append_of_first huser hcolon, dropWhile_append_of_first huser hcolon]
    rfl

end Line

/-- What the node is shown of a cookie file. A text has credentials if its
    first line is not empty and has a colon, and otherwise the fault says which
    of the two is missing. What the credentials are sent as is that line again,
    for any host and with any body: the request has one line for it, which the
    credentials cannot break, and its letters are the bytes of the first line. -/
theorem authorization_of_cookie {text line : Text} (hline : FirstLine text line)
    (source host body : Text) :
    ((∃ credentials, parse text source = .ok credentials) ↔ line ≠ [] ∧ ascii ':' ∈ line) ∧
      (line = [] → parse text source = .error (.empty source)) ∧
      (line ≠ [] → ascii ':' ∉ line → parse text source = .error (.colon source)) ∧
      ∀ credentials, parse text source = .ok credentials →
        line = credentials.user ++ ascii ':' :: credentials.password ∧
        ascii ':' ∉ credentials.user ∧
        ∃ payload, Rpc.OneLine payload ∧ Base64.decode payload = some (Utf8.encode line) ∧
          Rpc.request host credentials body
            = Rpc.lineEnd.intercalate [Utf8.encode "POST / HTTP/1.0",
                Utf8.encode ("Host: " ++ host), Utf8.encode ("Authorization: Basic " ++ payload),
                Utf8.encode "Content-Type: application/json",
                Utf8.encode ("Content-Length: " ++ Text.ofNat (Utf8.encode body).length)]
              ++ (Rpc.blankLine ++ Utf8.encode body) := by
  have hparse := firstLine_iff.mp hline
  refine ⟨⟨?_, ?_⟩, fun hempty => ?_, fun hne hcolon => ?_, fun credentials h => ?_⟩
  · rintro ⟨credentials, h⟩
    obtain ⟨-, rfl⟩ := (parse_eq_joined_iff hline).mp h
    exact ⟨List.append_ne_nil_of_right_ne_nil _ (List.cons_ne_nil _ _),
      List.mem_append_right _ List.mem_cons_self⟩
  · rintro ⟨hne, hcolon⟩
    rw [parse, hparse, if_neg hne, if_pos hcolon]
    exact ⟨_, rfl⟩
  · rw [parse, hparse, if_pos hempty]
  · rw [parse, hparse, if_neg hne, if_neg hcolon]
  · rcases (parse_eq_joined_iff hline).mp h with ⟨huser, hjoined⟩
    refine ⟨hjoined, huser, Base64.encode (Utf8.encode line),
      Rpc.oneLine_of_le fun u hu => (Base64.encode_bounds _ u hu).1, Base64.decode_encode _, ?_⟩
    rw [Rpc.request, Rpc.encode_head, List.append_assoc, Rpc.headLines, Rpc.authorization,
      ← hjoined]
    rfl

/-- There is no user. The secret has a colon, a character of two bytes and a
    carriage return, and of the two in front of the line feed only one is its. -/
theorem authorization_of_cookie_sample :
    let text : Text := ":a:é\r\r\nrest"
    let credentials : Rpc.Credentials := ⟨[], "a:é\r"⟩
    FirstLine text ":a:é\r" ∧ parse text ".cookie" = .ok credentials ∧
      ∃ payload, Base64.decode payload = some [0x3A, 0x61, 0x3A, 0xC3, 0xA9, 0x0D] ∧
        Rpc.request "localhost" credentials []
          = Rpc.lineEnd.intercalate [Utf8.encode "POST / HTTP/1.0", Utf8.encode "Host: localhost",
              Utf8.encode ("Authorization: Basic " ++ payload),
              Utf8.encode "Content-Type: application/json", Utf8.encode "Content-Length: 0"]
            ++ Rpc.blankLine := by
  intro text credentials
  have hline : FirstLine text ":a:é\r" := firstLine_iff.mpr (by decide)
  have hparse : parse text ".cookie" = .ok credentials := by decide
  obtain ⟨-, -, payload, -, hpayload, hrequest⟩ :=
    (authorization_of_cookie hline ".cookie" "localhost" []).2.2.2 credentials hparse
  exact ⟨hline, hparse, payload, hpayload, hrequest⟩

end Cookie

end NodeWatch
