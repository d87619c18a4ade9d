import BusWindow.RoutingKey
import BusWindow.SortedMap

/-!
# Tallies — how many messages went out under each routing key

    Folded routing keys are counted one after the other, into a map that
    knows no order. A tally lists what it holds in ascending order of the
    keys.
-/

namespace BusWindow

/-- Folded routing keys with their counts, in ascending order. -/
abbrev Tally := List (String × Nat)

namespace Tally

/-- Folded routing keys with their counts. Their order says nothing. -/
abbrev Counts := List (String × Nat)

/-- One more of a key. -/
def Counts.increment (key : String) : Counts → Counts
  | [] => [(key, 1)]
  | (k, n) :: rest => if k = key then (k, n + 1) :: rest else (k, n) :: increment key rest

/-- How often some routing keys occur when they are folded. -/
def counts (keys : List String) : Counts :=
  keys.foldl (fun counts key => counts.increment (RoutingKey.fold key)) []

/-- The tally of counts. -/
def ofCounts (counts : Counts) : Tally := counts.mergeSort fun a b => !decide (b.1 < a.1)

/-- The tally of some routing keys. -/
def ofKeys (keys : List String) : Tally := ofCounts (counts keys)

end Tally

end BusWindow
