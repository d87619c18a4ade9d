import BusWindow.Message
import BusWindow.Query

/-!
# Which messages answer a query
-/

namespace BusWindow

/-- Whether one byte list occurs in another without a gap. -/
def occursIn (part : Bytes) : Bytes → Bool
  | [] => part.isEmpty
  | b :: rest => part.isPrefixOf (b :: rest) || occursIn part rest

/-- Whether a routing key meets the constraint. -/
def KeyFilter.accepts : KeyFilter → String → Bool
  | .any, _ => true
  | .exact key, routingKey => key == routingKey

/-- Whether a message meets every constraint of a clause. -/
def Clause.accepts (clause : Clause) (m : Message) : Bool :=
  decide (clause.low ≤ m.seq) && decide (m.seq ≤ clause.high)
    && clause.words.all (fun word => occursIn (Utf8.ofString word) m.body)
    && clause.routingKey.accepts m.routingKey

/-- Whether a message answers one of the clauses; no clause, no answer. -/
def anyAccepts (clauses : List Clause) (m : Message) : Bool :=
  clauses.any fun clause => clause.accepts m

end BusWindow
