import NodeWatch.Proofs.Bytes.Hex
import NodeWatch.Proofs.Dashboard.Highlight
import NodeWatch.Proofs.Monitor.OneLookup

/-!
# Modes of the Keyboard

The same key means different things at different times. While the prompt is
open it takes every key, so that a text with a `q` in it can be typed; an open
list takes the arrows, and with them the keys that would turn to another page;
else the keys lead to other pages, to the prompt or out. What has to be ruled
out is that a key reaches past the mode that it belongs to.

With one key at a time, be it typed text or a special key, each mode is
described completely. In the prompt the keys edit a text and do nothing else,
so any number of them is one fold over the text, `run_typing`, and the session
goes on beside it as if nobody typed. Outside of it, typed text and the special
keys have a table each, `command_text` and `command_special`, from which it is
read off what becomes of the page, of the prompt, and whether the user leaves.
That the escape key leads out only from an empty screen is a matter of the
session: there is nothing to go back to then.

## Main definitions

* `KeyPress.Single`: Typed text, or one special key.
* `App`, `App.press`, `App.run`: A screen on a session, in use.
* `edit`, `turns`: What keys do to the text of the prompt and to the page.
* `Special.command`: What special keys do while the prompt is closed.
* `Queryable`: What can be looked up.

## Theorems

* `press_editing`, `run_typing`: Keys in the prompt.
* `exited_press`, `prompt_press`, `tab_press`: Keys outside of it.
* `escape_accepted`: When the escape key has something to do.
* `key_machine`: All modes, in any state of a screen and its session.
-/

namespace NodeWatch

namespace Dashboard

open Lookup (Result)
open Monitor (Session Event Request UserEvent)
open Monitor.Session (Occurrence)

/-- A special key. -/
inductive Special where
  | up | down | left | right | enter | escape | tab | backspace | delete
deriving DecidableEq, Repr

/-- Whether a special key was pressed. -/
def KeyPress.holds (key : KeyPress) : Special → Bool
  | .up => key.up
  | .down => key.down
  | .left => key.left
  | .right => key.right
  | .enter => key.enter
  | .escape => key.escape
  | .tab => key.tab
  | .backspace => key.backspace
  | .delete => key.delete

/-- Typed text without a special key, or one special key without text. -/
def KeyPress.Single (key : KeyPress) : Prop :=
  ∃ special : Option Special, (∀ k, key.holds k = decide (special = some k)) ∧
    (key.input = [] ↔ special.isSome = true)

/-- A screen on a session. -/
structure App where
  screen : Screen
  session : Session

/-- What happens while a screen is in use: a key, or something else that
    happens to the session. -/
inductive Use where
  | key (key : KeyPress)
  | occurs (o : Occurrence)

namespace App

/-- Before anything happened. -/
def initial : App := ⟨.initial, .initial⟩

/-- A key, on a screen that shows the session as it is. -/
def press (a : App) (key : KeyPress) : App :=
  ⟨(a.screen.press a.session a.session.search.current key).1, (a.screen.typed a.session key).1⟩

/-- The screen and the session after something happened. -/
def use (a : App) : Use → App
  | .key key => a.press key
  | .occurs o => { a with session := (a.session.occur o).1 }

/-- The screen and the session after several things happened. -/
def run (a : App) (uses : List Use) : App := uses.foldl use a

end App

/-- The keys that are pressed. -/
def keysOf (uses : List Use) : List KeyPress :=
  uses.filterMap fun
    | .key key => some key
    | .occurs _ => none

/-- What else happens. -/
def occurrencesOf (uses : List Use) : List Occurrence :=
  uses.filterMap fun
    | .key _ => none
    | .occurs o => some o

/-- The text of the prompt after a key. -/
def edit (text : Text) (key : KeyPress) : Text :=
  if key.backspace || key.delete then text.dropLast
  else if key.ctrl || key.alt then text
  else text ++ key.input

/-- The pages that a key turns, once around being four. -/
def turns (key : KeyPress) : Nat :=
  if key.tab then (if key.shift then 3 else 1)
  else if key.right then 1
  else if key.left then 3
  else 0

/-- What a special key does while the prompt is closed. -/
def Special.command (shift : Bool) : (inList : Bool) → Special → Command
  | true, .escape => .session .close
  | false, .escape => .escape
  | _, .enter => .session .activate
  | _, .down => .session (.navigate 1)
  | _, .up => .session (.navigate (Double.ofInt (-1)))
  | false, .tab => .switchTab !shift
  | false, .right => .switchTab true
  | false, .left => .switchTab false
  | _, _ => .ignore

/-- The characters between two others. -/
def Between (first last : Char) (u : CodeUnit) : Prop := ascii first ≤ u ∧ u ≤ ascii last

/-- Sixty-four hexadecimal digits, or one to eight decimal ones. -/
def Queryable (text : Text) : Prop :=
  (text.length = 64 ∧
    ∀ u ∈ text, Between '0' '9' u ∨ Between 'a' 'f' u ∨ Between 'A' 'F' u) ∨
  (1 ≤ text.length ∧ text.length ≤ 8 ∧ ∀ u ∈ text, Between '0' '9' u)

/-! ### What can be looked up -/

section Query

theorem isDigit_iff_between (u : CodeUnit) : u.isDigit = true ↔ Between '0' '9' u := by
  unfold CodeUnit.isDigit
  rw [Bool.and_eq_true, decide_eq_true_iff, decide_eq_true_iff]
  rfl

theorem isHexDigit_iff_between (u : CodeUnit) :
    u.isHexDigit = true ↔ Between '0' '9' u ∨ Between 'a' 'f' u ∨ Between 'A' 'F' u :=
  Hex.isHexDigit_iff_ranges

theorem isQuery_iff (text : Text) : Hex.isQuery text = true ↔ Queryable text := by
  simp only [Hex.isQuery, Hex.isHash, Hex.isHeight, Hex.isHex, Queryable, Bool.or_eq_true,
    Bool.and_eq_true, beq_iff_eq, decide_eq_true_iff, List.all_eq_true, isDigit_iff_between,
    isHexDigit_iff_between, and_assoc]

/-- What the user submits is looked up without the blanks around it and only if
    it can be; else nothing happens. -/
theorem dispatch_submit_cases (s : Session) (text : Text) :
    s.dispatch (.submit text) = (false, s, []) ∨
      (s.dispatch (.submit text)).1 = true ∧ Queryable text.trim ∧
        (s.dispatch (.submit text)).2.1.search.worker
          = some (.waiting ⟨text.trim, Hex.isHeight text.trim, s.snapshot.chain.blocks⟩) := by
  unfold Session.dispatch
  cases hsearch : s.operate (.submit text) with
  | none => exact .inl rfl
  | some search =>
      simp only [Session.operate] at hsearch
      by_cases hquery : Hex.isQuery text.trim = true
      · rw [if_pos hquery] at hsearch
        rcases Search.begun_of_submit hsearch with ⟨-, rfl⟩
        exact .inr ⟨rfl, (isQuery_iff _).mp hquery, rfl⟩
      · rw [if_neg hquery] at hsearch
        exact absurd hsearch (Option.some_ne_none search).symm

end Query

/-! ### In the prompt -/

section Prompt

variable {screen : Screen} {s : Session} {current : Option Result} {key : KeyPress} {text : Text}

theorem command_prompting (hprompt : screen.prompt = some text) :
    (screen.focus current).command key = promptCommand key := by
  simp only [Focus.command, Screen.focus, hprompt, Option.isSome_some, if_true]

/-- A screen whose prompt holds a text, with that text in the prompt. -/
theorem with_prompt (hprompt : screen.prompt = some text) :
    { screen with prompt := some text } = screen := by
  rw [← hprompt]

/-- A key that neither submits nor cancels edits the text, and that is all. -/
theorem press_editing (hprompt : screen.prompt = some text) (hkey : key.Single)
    (henter : key.enter = false) (hescape : key.escape = false) :
    screen.press s current key = ({ screen with prompt := some (edit text key) }, none) := by
  rcases hkey with ⟨special, hholds, hinput⟩
  have hbackspace : key.backspace = decide (special = some .backspace) := hholds .backspace
  have hdelete : key.delete = decide (special = some .delete) := hholds .delete
  have hmoving : (key.tab || key.left || key.right || key.up || key.down) = true →
      key.input = [] ∧ key.backspace = false ∧ key.delete = false := by
    have htab : key.tab = decide (special = some .tab) := hholds .tab
    have hleft : key.left = decide (special = some .left) := hholds .left
    have hright : key.right = decide (special = some .right) := hholds .right
    have hup : key.up = decide (special = some .up) := hholds .up
    have hdown : key.down = decide (special = some .down) := hholds .down
    rw [hinput, hbackspace, hdelete, htab, hleft, hright, hup, hdown]
    rcases special with _ | special
    · decide
    · cases special <;> decide
  have herase : (key.backspace || key.delete) = true → key.input = [] := by
    rw [hinput, hbackspace, hdelete]
    rcases special with _ | special
    · decide
    · exact fun _ => rfl
  simp only [Screen.press, command_prompting hprompt, promptCommand, henter, hescape,
    Bool.false_eq_true, if_false]
  by_cases hback : (key.backspace || key.delete) = true
  · rw [if_pos hback]
    simp only [Screen.obey, Screen.eventOf, hprompt, Option.map_some, edit, if_pos hback]
  · rw [if_neg hback]
    by_cases hmove : (key.tab || key.left || key.right || key.up || key.down) = true
    -- A key without text leaves the text as it is.
    · have hsame : edit text key = text := by
        simp only [edit, if_neg hback, (hmoving hmove).1, List.append_nil, ite_self]
      rw [if_pos hmove, hsame, with_prompt hprompt]
      rfl
    · rw [if_neg hmove]
      by_cases htyped : (!key.input.isEmpty && !key.ctrl && !key.alt) = true
      · rw [if_pos htyped]
        rw [Bool.and_eq_true, Bool.and_eq_true, Bool.not_eq_true', Bool.not_eq_true',
          Bool.not_eq_true'] at htyped
        simp only [Screen.obey, Screen.eventOf, hprompt, Option.getD_some, edit, if_neg hback,
          htyped.1.2, htyped.2, Bool.or_self, Bool.false_eq_true, if_false]
      · have hsame : edit text key = text := by
          simp only [edit, if_neg hback]
          cases hmodified : (key.ctrl || key.alt) with
          | true => rfl
          | false =>
              rw [Bool.or_eq_false_iff] at hmodified
              simp only [hmodified.1, hmodified.2, Bool.not_false, Bool.and_true,
                Bool.not_eq_true', Bool.not_eq_false, List.isEmpty_iff] at htyped
              simp only [htyped, List.append_nil, Bool.false_eq_true, if_false]
        rw [if_neg htyped, hsame, with_prompt hprompt]
        rfl

/-- The escape key closes the prompt, and that is all. -/
theorem press_cancelling (hprompt : screen.prompt = some text) (hescape : key.escape = true) :
    screen.press s current key = ({ screen with prompt := none }, none) := by
  simp only [Screen.press, command_prompting hprompt, promptCommand, hescape, if_true]
  rfl

/-- The enter key submits the text of the prompt and closes it. -/
theorem press_submitting (hprompt : screen.prompt = some text) (henter : key.enter = true)
    (hescape : key.escape = false) :
    screen.press s current key
      = ({ screen with
            prompt := none
            tab := if (s.dispatch (.submit text)).1 then .mempool else screen.tab },
          some (.user (.submit text))) := by
  simp only [Screen.press, command_prompting hprompt, promptCommand, hescape, henter,
    Bool.false_eq_true, if_false, if_true, Screen.obey, Screen.eventOf, hprompt, Option.getD_some]

end Prompt

/-! ### Outside of the prompt -/

section Closed

variable {screen : Screen} {s : Session} {current : Option Result} {key : KeyPress}

theorem command_closed (hprompt : screen.prompt = none) :
    (screen.focus current).command key
      = if (screen.focus current).inList then listCommand key else pageCommand key := by
  simp only [Focus.command, Screen.focus, hprompt, Option.isSome_none, Bool.false_eq_true, if_false]

/-- What typed text does while the prompt is closed. -/
theorem command_text (hprompt : screen.prompt = none) (hholds : ∀ k, key.holds k = false) :
    (screen.focus current).command key
      = if key.input = ("/" : Text) ∧ (screen.focus current).inList = false then .openPrompt
        else if key.input = ("q" : Text) then .quit else .ignore := by
  have hescape : key.escape = false := hholds .escape
  have henter : key.enter = false := hholds .enter
  have harrow : arrow key = .ignore := by
    have hdown : key.down = false := hholds .down
    have hup : key.up = false := hholds .up
    simp only [arrow, hdown, hup, Bool.false_eq_true, if_false]
  rw [command_closed hprompt]
  cases (screen.focus current).inList with
  | true =>
      simp only [if_true, listCommand, hescape, henter, harrow, Bool.false_eq_true, if_false,
        Bool.true_eq_false, and_false]
  | false =>
      have htab : key.tab = false := hholds .tab
      have hright : key.right = false := hholds .right
      have hleft : key.left = false := hholds .left
      simp only [pageCommand, hescape, henter, htab, hright, hleft, harrow, Bool.false_eq_true,
        if_false, and_true]

/-- What a special key does while the prompt is closed. -/
theorem command_special (hprompt : screen.prompt = none) {k : Special}
    (hholds : ∀ k', key.holds k' = decide (k = k')) (hinput : key.input = []) :
    (screen.focus current).command key
      = k.command key.shift (screen.focus current).inList := by
  have hup : key.up = decide (k = .up) := hholds .up
  have hdown : key.down = decide (k = .down) := hholds .down
  have hleft : key.left = decide (k = .left) := hholds .left
  have hright : key.right = decide (k = .right) := hholds .right
  have henter : key.enter = decide (k = .enter) := hholds .enter
  have hescape : key.escape = decide (k = .escape) := hholds .escape
  have htab : key.tab = decide (k = .tab) := hholds .tab
  rw [command_closed hprompt]
  cases (screen.focus current).inList with
  | true =>
      simp only [if_true, listCommand, arrow, hinput, hup, hdown, henter, hescape]
      cases k <;> rfl
  | false =>
      simp only [Bool.false_eq_true, if_false, pageCommand, arrow, hinput, hup, hdown, hleft,
        hright, henter, hescape, htab]
      cases k <;> rfl

theorem index_next (tab : Tab) : tab.next.index = (tab.index + 1) % 4 := by
  cases tab <;> decide +kernel

theorem index_previous (tab : Tab) : tab.previous.index = (tab.index + 3) % 4 := by
  cases tab <;> decide +kernel

theorem index_mod (tab : Tab) : tab.index % 4 = tab.index := by
  cases tab <;> rfl

/-- A single key is typed text or one special key. -/
theorem KeyPress.Single.cases (hkey : key.Single) :
    ((∀ k, key.holds k = false) ∧ key.input ≠ []) ∨
      ∃ k, (∀ k', key.holds k' = decide (k = k')) ∧ key.input = [] := by
  rcases hkey with ⟨special, hholds, hinput⟩
  cases special with
  | none =>
      refine .inl ⟨fun k => (hholds k).trans (decide_eq_false (Option.some_ne_none k).symm), ?_⟩
      exact fun hc => absurd (hinput.mp hc) Bool.false_ne_true
  | some k =>
      refine .inr ⟨k, fun k' => ?_, hinput.mpr rfl⟩
      rw [hholds k']
      exact decide_eq_decide.mpr Option.some_inj

/-- The user leaves with `q`, and with the escape key from an empty screen. -/
theorem exited_press (hprompt : screen.prompt = none) (hkey : key.Single)
    (hescape : s.escape.1 = false ↔ s.search.current = none) :
    (screen.press s s.search.current key).1.exited = true ↔
      screen.exited = true ∨ key.input = ("q" : Text) ∨
        (key.escape = true ∧ s.search.current = none) := by
  rcases hkey.cases with ⟨hholds, -⟩ | ⟨k, hholds, hinput⟩
  · have hno : key.escape = false := hholds .escape
    simp only [Screen.press, command_text hprompt hholds, hno, Bool.false_eq_true, false_and,
      or_false]
    split
    · next hslash =>
        have hne : key.input ≠ ("q" : Text) := by
          rw [hslash.1]
          decide
        exact (or_iff_left hne).symm
    · split
      · next hquit => exact ⟨fun _ => .inr hquit, fun _ => rfl⟩
      · next hquit => exact (or_iff_left hquit).symm
  · have hk : key.escape = decide (k = .escape) := hholds .escape
    have hne : key.input ≠ ("q" : Text) := by
      rw [hinput]
      decide
    simp only [Screen.press, command_special hprompt hholds hinput, hk, hne, false_or,
      decide_eq_true_iff]
    cases hlist : (screen.focus s.search.current).inList with
    | true =>
        -- With a list open there is a result on the screen.
        have hsome : s.search.current ≠ none := by
          intro hc
          rw [hc] at hlist
          exact absurd hlist Bool.false_ne_true
        cases k <;> exact (or_iff_left fun hc => hsome hc.2).symm
    | false =>
        cases k with
        | escape =>
            simp only [Special.command, Screen.obey, true_and, Bool.or_eq_true,
              Bool.not_eq_true', hescape]
        | _ => exact (or_iff_left fun hc => Special.noConfusion hc.1).symm

/-- The prompt opens with `/`, unless a list has the attention. -/
theorem prompt_press (hprompt : screen.prompt = none) (hkey : key.Single) :
    (screen.press s current key).1.prompt
      = if key.input = ("/" : Text) ∧ (screen.focus current).inList = false then some []
        else none := by
  rcases hkey.cases with ⟨hholds, -⟩ | ⟨k, hholds, hinput⟩
  · simp only [Screen.press, command_text hprompt hholds]
    split
    · rfl
    · split <;> exact hprompt
  · have hne : ¬ (key.input = ("/" : Text) ∧ (screen.focus current).inList = false) := by
      rw [hinput]
      exact fun hc => absurd hc.1 (by decide)
    simp only [Screen.press, command_special hprompt hholds hinput, if_neg hne]
    cases (screen.focus current).inList <;> cases k <;> exact hprompt

/-- The tab key and the arrows turn to another page, unless a list has the
    attention. -/
theorem tab_press (hprompt : screen.prompt = none) (hkey : key.Single) :
    (screen.press s current key).1.tab.index
      = (screen.tab.index + if (screen.focus current).inList then 0 else turns key) % 4 := by
  have hstay : screen.tab.index = (screen.tab.index + 0) % 4 := (index_mod screen.tab).symm
  rcases hkey.cases with ⟨hholds, -⟩ | ⟨k, hholds, hinput⟩
  · have htab : key.tab = false := hholds .tab
    have hright : key.right = false := hholds .right
    have hleft : key.left = false := hholds .left
    simp only [Screen.press, command_text hprompt hholds, turns, htab, hright, hleft,
      Bool.false_eq_true, if_false, ite_self]
    split
    · exact hstay
    · split <;> exact hstay
  · have htab : key.tab = decide (k = .tab) := hholds .tab
    have hright : key.right = decide (k = .right) := hholds .right
    have hleft : key.left = decide (k = .left) := hholds .left
    simp only [Screen.press, command_special hprompt hholds hinput, turns, htab, hright, hleft]
    cases (screen.focus current).inList with
    | true => cases k <;> exact hstay
    | false =>
        cases k with
        | tab =>
            cases key.shift with
            | true => exact index_previous screen.tab
            | false => exact index_next screen.tab
        | right => exact index_next screen.tab
        | left => exact index_previous screen.tab
        | _ => exact hstay

/-- The escape key has something to do unless the screen is empty. -/
theorem escape_accepted (hblank : s.search.current = none → s.search.history = []) :
    s.escape.1 = false ↔ s.search.current = none := by
  have hrefused : s.escape.1 = false ↔ s.search.escape = none := by
    change (s.withSearch s.search.escape).1 = false ↔ _
    cases s.search.escape with
    | none => exact ⟨fun _ => rfl, fun _ => rfl⟩
    | some search =>
        exact ⟨fun hc => absurd hc.symm Bool.false_ne_true,
          fun hc => absurd hc (Option.some_ne_none search)⟩
  rw [hrefused]
  constructor
  · intro h
    cases hcurrent : s.search.current with
    | none => rfl
    | some r =>
        have hdismiss : s.search.dismiss ≠ none := by
          rw [Search.dismiss, hcurrent]
          exact Option.some_ne_none _
        rw [Search.escape, Option.orElse_eq_orElse, Option.orElse_eq_or, Option.or_eq_none_iff,
          Option.orElse_eq_or, Option.or_eq_none_iff] at h
        exact absurd h.2.2 hdismiss
  · intro h
    simp only [Search.escape, Search.close, Search.back, Search.dismiss, h, hblank h]
    rfl

end Closed

/-! ### A screen in use -/

namespace App

section Uses

variable {a : App} {text : Text}

theorem press_eq {key : KeyPress} {screen : Screen} {event : Option Event}
    (h : a.screen.press a.session a.session.search.current key = (screen, event)) :
    a.press key = ⟨screen, ((event.map a.session.step).getD (a.session, [])).1⟩ := by
  simp only [press, Screen.typed, h]

/-- Whatever the keys do, they do it by events of the session. -/
theorem session_run (a : App) (uses : List Use) :
    ∃ run, (a.run uses).session = a.session.after run := by
  induction uses generalizing a with
  | nil => exact ⟨[], rfl⟩
  | cons u rest ih =>
      have hfirst : ∃ run, (a.use u).session = a.session.after run := by
        cases u with
        | occurs o => exact ⟨[o], rfl⟩
        | key key =>
            change ∃ run, (a.screen.typed a.session key).1 = _
            unfold Screen.typed
            cases (a.screen.press a.session a.session.search.current key).2 with
            | none => exact ⟨[], rfl⟩
            | some event => exact ⟨[.event event], rfl⟩
      rcases hfirst with ⟨first, hfirst⟩
      rcases ih (a.use u) with ⟨later, hlater⟩
      refine ⟨first ++ later, ?_⟩
      change ((a.use u).run rest).session = _
      rw [hlater, hfirst, Session.after_append]

/-- Any number of keys in the prompt edit its text one after the other, and the
    session goes on beside them as if nobody typed. -/
theorem run_typing (hprompt : a.screen.prompt = some text) (uses : List Use)
    (huses : ∀ key ∈ keysOf uses, key.Single ∧ key.enter = false ∧ key.escape = false) :
    a.run uses = ⟨{ a.screen with prompt := some ((keysOf uses).foldl edit text) },
      a.session.after (occurrencesOf uses)⟩ := by
  induction uses generalizing a text with
  | nil =>
      have hsame : { a.screen with prompt := some text } = a.screen := with_prompt hprompt
      change a = ⟨{ a.screen with prompt := some text }, a.session⟩
      rw [hsame]
  | cons u rest ih =>
      cases u with
      | occurs o =>
          have hrest := ih (a := { a with session := (a.session.occur o).1 }) hprompt huses
          exact hrest
      | key key =>
          rcases huses key List.mem_cons_self with ⟨hsingle, henter, hescape⟩
          have hpress : a.press key
              = ⟨{ a.screen with prompt := some (edit text key) }, a.session⟩ :=
            press_eq (press_editing hprompt hsingle henter hescape)
          have hrest := @ih (a.press key) (edit text key) (by rw [hpress])
            fun key' hmem => huses key' (List.mem_cons_of_mem key hmem)
          change (a.press key).run rest = _
          rw [hrest, hpress]
          rfl

end Uses

end App

/-- The modes of the keyboard, in any state that a screen and its session come
    to. While the prompt is open, any number of keys other than the enter and
    the escape key edit its text and change nothing else, whatever else happens
    to the session in the meantime; then the escape key closes it, and the enter
    key closes it and submits exactly the text that was edited, which shows the
    second page if it is accepted. While the prompt is closed, the user leaves
    with `q` and with the escape key from an empty screen only, the prompt opens
    with `/` only, and the page turns by the tab key and the arrows only, the
    last two unless a list has the attention. What is submitted is refused and
    changes nothing, or can be looked up without the blanks around it, and is. -/
theorem key_machine (before : List Use) :
    let a := App.initial.run before
    (∀ text uses, a.screen.prompt = some text →
      (∀ key ∈ keysOf uses, key.Single ∧ key.enter = false ∧ key.escape = false) →
      let typed := (keysOf uses).foldl edit text
      let s := a.session.after (occurrencesOf uses)
      a.run uses = ⟨{ a.screen with prompt := some typed }, s⟩ ∧
      ∀ key, key.Single →
        (key.escape = true → (a.run uses).press key = ⟨{ a.screen with prompt := none }, s⟩) ∧
        (key.enter = true → (a.run uses).press key
          = ⟨{ a.screen with
                prompt := none
                tab := if (s.dispatch (.submit typed)).1 then .mempool else a.screen.tab },
              (s.dispatch (.submit typed)).2.1⟩)) ∧
    (a.screen.prompt = none → ∀ key, key.Single →
      let inList := (a.screen.focus a.session.search.current).inList
      let b := (a.press key).screen
      (b.exited = true ↔ a.screen.exited = true ∨ key.input = ("q" : Text) ∨
        (key.escape = true ∧ a.session.search.current = none)) ∧
      b.prompt = (if key.input = ("/" : Text) ∧ inList = false then some [] else none) ∧
      b.tab.index = (a.screen.tab.index + if inList then 0 else turns key) % 4) ∧
    ∀ text, a.session.dispatch (.submit text) = (false, a.session, []) ∨
      (a.session.dispatch (.submit text)).1 = true ∧ Queryable text.trim ∧
        (a.session.dispatch (.submit text)).2.1.search.worker
          = some (.waiting ⟨text.trim, Hex.isHeight text.trim,
              a.session.snapshot.chain.blocks⟩) := by
  intro a
  refine ⟨fun text uses hprompt huses => ?_, fun hprompt key hkey => ?_,
    dispatch_submit_cases a.session⟩
  · intro typed s
    have hrun : a.run uses = ⟨{ a.screen with prompt := some typed }, s⟩ :=
      App.run_typing hprompt uses huses
    refine ⟨hrun, fun key hkey => ⟨fun hescape => ?_, fun henter => ?_⟩⟩
    · rw [hrun]
      exact App.press_eq (press_cancelling rfl hescape)
    · have hescape : key.escape = false := by
        rcases hkey with ⟨special, hholds, -⟩
        have hspecial := (hholds .enter).symm.trans henter
        rw [show key.escape = decide (special = some .escape) from hholds .escape,
          of_decide_eq_true hspecial]
        rfl
      rw [hrun]
      exact App.press_eq (press_submitting rfl henter hescape)
  · rcases App.session_run App.initial before with ⟨run, hsession⟩
    have hescape : a.session.escape.1 = false ↔ a.session.search.current = none := by
      refine escape_accepted ?_
      change (App.initial.run before).session.search.current = none → _
      rw [hsession]
      exact Session.blank_after run fun _ => rfl
    exact ⟨exited_press hprompt hkey hescape, prompt_press hprompt hkey, tab_press hprompt hkey⟩

/-- A `q` in the prompt is a letter like others, and the session is started
    while the user types. The height that is left is looked up. -/
theorem key_machine_sample :
    let type (text : Text) : KeyPress := { plainKey with input := text }
    let uses : List Use := [.key (type "1"), .key (type "q"), .occurs (.event .start),
      .key { plainKey with backspace := true }, .key (type "2")]
    let a := App.initial.run [.key (type "/")]
    let b := (a.run uses).press { plainKey with enter := true }
    (a.run uses).screen = ⟨.overview, some "12", false⟩ ∧
      b.screen = ⟨.mempool, none, false⟩ ∧
      b.session.search.worker = some (.waiting ⟨"12", true, 0⟩) ∧
      (b.press (type "q")).screen.exited = true := by
  intro type uses a b
  have htype : ∀ text : Text, text ≠ [] → (type text).Single := fun text htext =>
    ⟨none, fun k => by cases k <;> rfl, fun hc => absurd hc htext,
      fun hc => absurd hc Bool.false_ne_true⟩
  have hspecial : ∀ key : KeyPress, key.input = [] → ∀ special,
      (∀ k, key.holds k = decide (some special = some k)) → key.Single :=
    fun key hinput special hholds => ⟨some special, hholds, fun _ => rfl, fun _ => hinput⟩
  have huses : ∀ key ∈ keysOf uses, key.Single ∧ key.enter = false ∧ key.escape = false := by
    intro key hkey
    change key ∈ [type "1", type "q", { plainKey with backspace := true }, type "2"] at hkey
    simp only [List.mem_cons, List.not_mem_nil, or_false] at hkey
    rcases hkey with rfl | rfl | rfl | rfl
    · exact ⟨htype "1" (by decide), rfl, rfl⟩
    · exact ⟨htype "q" (by decide), rfl, rfl⟩
    · exact ⟨hspecial _ rfl .backspace fun k => by cases k <;> rfl, rfl, rfl⟩
    · exact ⟨htype "2" (by decide), rfl, rfl⟩
  have henter : ({ plainKey with enter := true } : KeyPress).Single :=
    hspecial _ rfl .enter fun k => by cases k <;> rfl
  rcases (key_machine [.key (type "/")]).1 [] uses rfl huses with ⟨hrun, hkeys⟩
  have hb := (hkeys _ henter).2 rfl
  let started := Session.initial.after [.event .start]
  have haccepted : (started.dispatch (.submit "12")).1 = true := by decide +kernel
  have hsession : b.session = (started.dispatch (.submit "12")).2.1 := congrArg App.session hb
  have hworker : (started.dispatch (.submit "12")).2.1.search.worker
      = some (.waiting ⟨"12", true, 0⟩) := rfl
  have hscreen : b.screen = ⟨.mempool, none, false⟩ := by
    refine (congrArg App.screen hb).trans ?_
    change (⟨if (started.dispatch (.submit "12")).1 then .mempool else .overview, none, false⟩
      : Screen) = _
    rw [haccepted]
    rfl
  -- The state after the enter key is one that a screen comes to, too.
  have hclosed := (key_machine (.key (type "/") :: uses ++
    [.key { plainKey with enter := true }])).2.1
  have hall : App.initial.run (.key (type "/") :: uses ++
      [.key { plainKey with enter := true }]) = b := rfl
  rw [hall] at hclosed
  have hquit := (hclosed (congrArg Screen.prompt hscreen) _ (htype "q" (by decide))).1
  exact ⟨congrArg App.screen hrun, hscreen,
    (congrArg (fun t : Session => t.search.worker) hsession).trans hworker,
    hquit.mpr (.inr (.inl rfl))⟩

end Dashboard

end NodeWatch
