import NodeWatch.Dashboard.Keys
import NodeWatch.Dashboard.Pages
import NodeWatch.Dashboard.ResultPanel
import NodeWatch.Dashboard.Strip
import NodeWatch.Dashboard.Tab
import NodeWatch.Report.Calendar

/-!
# The screen

The screen of the dashboard on top of a session: the tab that is shown, and
the prompt while it is open. It looks at a copy of the session that is made
whenever the session asks for a redraw. A key is turned into a command; most
commands go on to the session, the others change the screen alone.

## Main definitions

* `Dashboard.Screen`: The tab and the prompt.
* `Dashboard.Effect`: What a key does besides.
* `Dashboard.Screen.press`: A key.
* `Dashboard.Screen.draw`: The drawing.
-/

namespace NodeWatch

namespace Dashboard

open Monitor (Session Snapshot Status UserEvent Event)

/-- The tab that is shown, and the prompt while it is open. -/
structure Screen where
  tab : Tab
  prompt : Option Text
  /-- The user wanted to leave. -/
  exited : Bool
deriving DecidableEq

namespace Screen

/-- The screen at the beginning. -/
def initial : Screen := ⟨.overview, none, false⟩

/-- What has the attention, given the result on the screen. -/
def focus (s : Screen) (current : Option Lookup.Result) : Focus := ⟨s.prompt.isSome, current⟩

/-- The event that a command stands for, if it concerns the session. -/
def eventOf (s : Screen) : Command → Option Event
  | .submitPrompt => some (.user (.submit (s.prompt.getD [])))
  | .session event => some (.user event)
  | .escape => some .escape
  | _ => none

/-- The screen after a command, given whether the session accepted its event. -/
def obey (s : Screen) (command : Command) (accepted : Bool) : Screen :=
  match command with
  | .openPrompt => { s with prompt := some [] }
  | .cancelPrompt => { s with prompt := none }
  | .erase => { s with prompt := s.prompt.map List.dropLast }
  | .type text => { s with prompt := some (s.prompt.getD [] ++ text) }
  | .submitPrompt => { s with prompt := none, tab := if accepted then .mempool else s.tab }
  | .switchTab forward => { s with tab := if forward then s.tab.next else s.tab.previous }
  | .escape => { s with exited := s.exited || !accepted }
  | .quit => { s with exited := true }
  | .session _ => s
  | .ignore => s

/-- A key: the screen after it, and the event that the session is to take. The
    focus is that of the copy, and what the session makes of the event decides
    about the rest. -/
def press (s : Screen) (session : Session) (current : Option Lookup.Result) (key : KeyPress) :
    Screen × Option Event :=
  let command := (s.focus current).command key
  let accepted := match command with
    | .submitPrompt => (session.dispatch (.submit (s.prompt.getD []))).1
    | .escape => session.escape.1
    | _ => false
  (s.obey command accepted, s.eventOf command)

/-- The width of the prompt. -/
def promptWidth : Nat := 46

/-- The end of a text that fits into a number of columns. -/
def tailOf (text : Text) (columns : Double) : Text :=
  let length := Double.ofNat text.length
  if columns < length then Span.onwards text (length - columns) else text

/-- How the node is doing. -/
def statusLine (status : Status) : Element :=
  match status.connected, status.lastError with
  | false, some (u :: message) =>
    row [.text { background := some .red, color := some .white, bold := some true } " ERROR ",
      colored .red (ascii ' ' :: u :: message)]
  | connected, _ =>
    row [if connected then bold (some .green) " ● CONNECTED"
        else bold (some .yellow) " ○ CONNECTING…",
      colored .gray (("  Last update: " : Text) ++ match status.lastUpdate with
        | none => unknown
        | some ms => Report.clock ms)]

/-- The name of a chain that is known. -/
def chainBadge (name : Text) : List Element :=
  if name = [] ∨ name = Monitor.unknownChain then []
  else
    let main := name = ("main" : Text)
    [.text { bold := some true, background := some (if main then .green else .yellow)
             color := some (if main then .white else .black) }
      (ascii ' ' :: name ++ [ascii ' '])]

/-- What the overall drawing depends on besides the session. -/
structure Frame where
  width : Double
  /-- The time in seconds. -/
  now : Double
  endpoint : Text
  /-- How often the node is asked, in seconds. -/
  refreshSeconds : Double

/-- A line with a border and room between its parts. -/
def line (parts : List Element) : Element := .box { border := true, justify := some .between } parts

/-- The page of a tab. -/
def page (s : Screen) (frame : Frame) (snapshot : Snapshot) (current : Option Lookup.Result) :
    Element :=
  match s.tab with
  | .overview => overview snapshot
  | .mempool =>
    match current with
    | some r => resultPanel r frame.now
    | none => Dashboard.page [mempoolFigures snapshot, blocksStrip snapshot frame.width frame.now]
  | .network => networkPage snapshot
  | .peers => peersPage snapshot

/-- The label of a tab. -/
def tabLabel (s : Screen) (tab : Tab) : Element :=
  let shown := s.tab = tab
  .text { bold := some shown, inverse := some shown, dim := some !shown }
    ((if 0 < tab.index then ("│" : Text) else []) ++ ascii ' ' :: tab.label ++ [ascii ' '])

/-- The prompt, or how to open it. -/
def promptField (prompt : Option Text) : Element :=
  match prompt with
  | none => colored .gray " / search "
  | some text =>
    colored .white (ascii ' ' :: tailOf text (Double.ofNat (promptWidth - 3)) ++ ("│" : Text))

/-- Whether the node is being asked, or how often it is. -/
def refreshNote (refreshing : Bool) (seconds : Double) : Element :=
  if refreshing then colored .yellow " ↻ refreshing"
  else colored .gray ((" ↻ every " : Text) ++ seconds.display ++ ("s" : Text))

/-- The drawing of a screen over a copy of the session. -/
def draw (s : Screen) (frame : Frame) (snapshot : Snapshot) (current : Option Lookup.Result) :
    Element :=
  let idle := s.prompt.isNone && current.isNone
  .box { column := true, width := some frame.width }
    [line (row [bold (some .brightYellow) " ₿ blocktop ",
        colored .gray (ascii ' ' :: frame.endpoint ++ [ascii ' '])] ::
        chainBadge snapshot.chain.name),
      line [row (Tab.all.map s.tabLabel),
        .box { width := some (Double.ofNat promptWidth) } [promptField s.prompt]],
      .box { grow := some 1 } [s.page frame snapshot current],
      line [statusLine snapshot.status,
        row ((if idle then [refreshNote snapshot.status.refreshing frame.refreshSeconds] else []) ++
          [colored (if idle then .gray else .yellow)
            (("  " : Text) ++ (s.focus current).hints ++ [ascii ' '])])]]

end Screen

end Dashboard

end NodeWatch
