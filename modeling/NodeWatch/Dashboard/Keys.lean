import NodeWatch.Lookup.Navigation
import NodeWatch.Monitor.Session

/-!
# Keys

What a key does depends on what has the attention. The open prompt takes
everything; else an open list takes the keys that move through it; else the
keys lead to the result on the screen, to another tab, to the prompt or out.
The status line offers the keys that do something.

## Main definitions

* `Dashboard.KeyPress`: A key with what was typed.
* `Dashboard.Command`: What a key does.
* `Dashboard.Focus`: What has the attention.
* `Dashboard.Focus.command`: The command of a key.
* `Dashboard.Focus.hints`: The keys that are offered.
-/

namespace NodeWatch

namespace Dashboard

open Monitor (UserEvent)

/-- A key with what was typed; a special key may come with text. -/
structure KeyPress where
  input : Text
  up : Bool
  down : Bool
  left : Bool
  right : Bool
  enter : Bool
  escape : Bool
  tab : Bool
  shift : Bool
  ctrl : Bool
  alt : Bool
  backspace : Bool
  delete : Bool
deriving DecidableEq

/-- What a key does. -/
inductive Command where
  | openPrompt
  | cancelPrompt
  | submitPrompt
  | erase
  | type (text : Text)
  | switchTab (forward : Bool)
  | session (event : UserEvent)
  | escape
  | quit
  | ignore
deriving DecidableEq

/-- What has the attention. -/
structure Focus where
  prompting : Bool
  current : Option Lookup.Result

/-- The command of an arrow that moves a cursor. -/
def arrow (key : KeyPress) : Command :=
  if key.down then .session (.navigate 1)
  else if key.up then .session (.navigate (Double.ofInt (-1)))
  else .ignore

/-- The command of a key while the prompt is open. -/
def promptCommand (key : KeyPress) : Command :=
  if key.escape then .cancelPrompt
  else if key.enter then .submitPrompt
  else if key.backspace || key.delete then .erase
  else if key.tab || key.left || key.right || key.up || key.down then .ignore
  else if !key.input.isEmpty && !key.ctrl && !key.alt then .type key.input
  else .ignore

/-- The command of a key while a list is open. -/
def listCommand (key : KeyPress) : Command :=
  if key.escape then .session .close
  else if key.enter then .session .activate
  else if key.input = ("q" : Text) then .quit
  else arrow key

/-- The command of a key while nothing else has the attention. -/
def pageCommand (key : KeyPress) : Command :=
  if key.input = ("/" : Text) then .openPrompt
  else if key.input = ("q" : Text) then .quit
  else if key.escape then .escape
  else if key.enter then .session .activate
  else if key.tab then .switchTab !key.shift
  else if key.right then .switchTab true
  else if key.left then .switchTab false
  else arrow key

/-- A list of the result on the screen is open. -/
def Focus.inList (focus : Focus) : Bool := (focus.current.bind Lookup.Result.openList).isSome

/-- The command of a key. -/
def Focus.command (focus : Focus) (key : KeyPress) : Command :=
  if focus.prompting then promptCommand key
  else if focus.inList then listCommand key
  else pageCommand key

/-- The keys that are offered on a confirmed transaction. -/
def transactionHints (tx : Lookup.ConfirmedTx) (cursor : Lookup.Cursor) : Text :=
  match tx.openList cursor with
  | some .outputs => "[↑/↓] navigate  [Esc] back  [q] quit"
  | some .inputs => "[↑/↓] navigate  [↵] lookup  [Esc] back  [q] quit"
  | none =>
    let isOn := Lookup.isOn cursor.selected
    if isOn tx.outputsRow then "[↵] show outputs  [↑/↓] navigate  [Esc] dismiss  [q] quit"
    else if isOn tx.inputsRow then "[↵] show inputs  [↑/↓] navigate  [Esc] dismiss  [q] quit"
    else if isOn Lookup.blockRow then "[↵] view block  [↑/↓] navigate  [Esc] dismiss  [q] quit"
    else "[↑/↓] navigate  [Esc] dismiss  [q] quit"

/-- The keys that are offered. -/
def Focus.hints (focus : Focus) : Text :=
  if focus.prompting then "[Enter] search  [Esc] cancel"
  else match focus.current with
    | none => "[Tab/←/→] switch  [/] search  [q] quit"
    | some r =>
      match r.confirmed? with
      | none => "[Esc] dismiss  [q] quit"
      | some tx => transactionHints tx r.cursor

end Dashboard

end NodeWatch
