import BusWindow.Delivery
import BusWindow.Store.System

/-!
# Errands — what a client wants of the store

    An errand is at most one operation on the store, together with what the
    client makes of its outcome. Whoever runs the errand decides when the
    store gets to work on it. A query that cannot be understood is refused
    before the store hears of it, and so is a delivery that is not kept.
-/

namespace BusWindow

/-- An operation on the store and what is made of its outcome. -/
inductive Errand (β : Type) where
  /-- Needs nothing of the store. -/
  | done (result : β)
  /-- Calls, and waits for the answer until the time set for calls is over. -/
  | ask (demand : Demand) (finish : Except StoreError Reply → β)
  /-- Sends records one after the other, and waits for each one's slot, if
      there is a limit not longer than it. The outcome is how many went off. -/
  | give (records : List Record) (patience : Option Duration) (finish : Nat → β)
  /-- Asks the owner to stop; the outcome is whether the request went off. -/
  | shutdown (patience : Option Duration) (finish : Bool → β)
  /-- Starts the owner, if it is there and not started. -/
  | start (finish : Bool → β)
  /-- Drops the owner, if it is there and not started. -/
  | discard (finish : Bool → β)
  /-- Waits until the owner has nothing left to do. -/
  | settle (result : β)

namespace Errand

/-- An errand whose result is used further. -/
def map {β γ : Type} (f : β → γ) : Errand β → Errand γ
  | .done result => .done (f result)
  | .ask demand finish => .ask demand (f ∘ finish)
  | .give records patience finish => .give records patience (f ∘ finish)
  | .shutdown patience finish => .shutdown patience (f ∘ finish)
  | .start finish => .start (f ∘ finish)
  | .discard finish => .discard (f ∘ finish)
  | .settle result => .settle (f result)

/-- Asks a query. -/
def query (raw : String) : Errand (Except StoreError Reply) :=
  match Query.parse raw with
  | .ok q => .ask (.query q) id
  | .error e => .done (.error (.invalidRange e))

/-- Hands a record to the store, and waits as long as there is no slot. -/
def ingest (r : Record) : Errand Unit := .give [r] none fun _ => ()

/-- Hands a delivery to the store if it can be kept, and tells whether it
    can. -/
def accept (ignored : List String) (d : Delivery) : Errand Bool :=
  match d.record ignored with
  | .ok r => (ingest r).map fun _ => true
  | .error _ => .done false

/-- How often an errand can go on at most. -/
def length {β : Type} : Errand β → Nat
  | .give records _ _ => records.length + 1
  | _ => 1

end Errand

end BusWindow
