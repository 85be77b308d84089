import NodeWatch.Dashboard.Screen
import NodeWatch.Simulation.World

/-!
# A terminal in virtual time

A screen on a simulated session, as somebody sits in front of it. What is on
the terminal was drawn at some time and stays there until there is something
to draw anew: a key that changes the tab or the prompt, or a redraw that the
session delivers. The ages in a drawing are those of the time when it was
made, however long ago that is.

## Main definitions

* `Simulation.Terminal`: The screen, the session, and the time of the drawing.
* `Simulation.Terminal.press`: A key.
* `Simulation.Terminal.follow`: What happened to the session in the meantime.
* `Simulation.Terminal.draw`: The drawing.
-/

namespace NodeWatch

namespace Simulation

open Dashboard (Screen KeyPress Element)

/-- A screen on a simulated session. -/
structure Terminal where
  world : World
  screen : Screen
  /-- When the terminal was drawn, in milliseconds. -/
  drawnAt : Double

namespace Terminal

/-- A terminal at the beginning of a session. -/
def initial (world : World) : Terminal := ⟨world, .initial, world.now⟩

/-- The terminal after something happened to the session. It was drawn anew if
    a redraw was delivered, at the time of the last delivery. -/
def follow (t : Terminal) (world : World) : Terminal :=
  { t with
    world
    drawnAt := if world.redraws = t.world.redraws then t.drawnAt else world.viewedAt }

/-- Whether two screens have to be drawn differently. -/
def differ (a b : Screen) : Bool := a.tab != b.tab || a.prompt != b.prompt

/-- A key. The screen it is meant for shows the session as it was when the
    last redraw was delivered. -/
def press (t : Terminal) (key : KeyPress) : Terminal :=
  let (screen, event) := t.screen.press t.world.session t.world.view.current key
  { world := event.elim t.world t.world.act
    screen
    drawnAt := if differ t.screen screen then t.world.now else t.drawnAt }

/-- Everything that happens without time passing. -/
def settle (t : Terminal) : Terminal := t.follow t.world.settle

/-- What is on the terminal, given the surroundings of the screen. -/
def draw (t : Terminal) (frame : Screen.Frame) : Element :=
  t.screen.draw { frame with now := (t.drawnAt / 1000).floor } t.world.view.snapshot
    t.world.view.current

end Terminal

end Simulation

end NodeWatch
