import NodeWatch.Double.Arithmetic
import NodeWatch.Text.Basic

/-!
# Tabs

The pages follow each other in a circle.

## Main definitions

* `Dashboard.Tab`: The tabs.
* `Dashboard.Tab.around`, `Dashboard.Tab.shift`: A number of steps along the circle.
-/

namespace NodeWatch

namespace Dashboard

/-- A tab. -/
inductive Tab where
  | overview | mempool | network | peers
deriving DecidableEq, Repr

namespace Tab

/-- The tabs in their order. -/
def all : List Tab := [.overview, .mempool, .network, .peers]

/-- The label of a tab. -/
def label : Tab → Text
  | .overview => "Dashboard"
  | .mempool => "Mempool"
  | .network => "Network"
  | .peers => "Peers"

/-- The place of a tab. -/
def index : Tab → Nat
  | .overview => 0
  | .mempool => 1
  | .network => 2
  | .peers => 3

/-- The tab at a place; at a place between tabs and where there is none the
    first one. -/
def ofPlace (x : Double) : Tab :=
  match x.toInt? with
  | some 1 => .mempool
  | some 2 => .network
  | some 3 => .peers
  | _ => .overview

/-- A number of steps along the circle from a place, which is taken round the
    circle as well. -/
def around (x steps : Double) : Tab :=
  let n := Double.ofNat all.length
  ofPlace (((x + steps) % n + n) % n)

/-- A number of steps along the circle of tabs. -/
def shift (tab : Tab) (steps : Double) : Tab := around (Double.ofNat tab.index) steps

/-- The next tab. -/
def next (tab : Tab) : Tab := tab.shift 1

/-- The tab before. -/
def previous (tab : Tab) : Tab := tab.shift (Double.ofInt (-1))

end Tab

end Dashboard

end NodeWatch
