import BusWindow.Fifo

/-!
# Mailboxes — bounded queues whose senders wait for a slot

    A mailbox has a fixed number of slots. A sender that finds none waits in
    line with its message. When the receiver takes a message, the slot goes
    to the first sender in line and to nobody else, even before that sender
    has put its message there. A closed mailbox holds nothing and takes
    nothing. There is no mailbox with more than `greatestLimit` slots.
-/

namespace BusWindow

/-- A bounded queue with the senders that wait for a slot. -/
structure Mailbox (α : Type) where
  limit : Nat
  closed : Bool
  queue : Fifo α
  /-- Senders that own a slot and have not used it yet. -/
  granted : List (Nat × α)
  /-- Senders in line for a slot. -/
  waiting : Fifo (Nat × α)
  deriving Repr

/-- What becomes of a message. -/
inductive Sent where
  /-- It is in the queue. -/
  | accepted
  /-- Its sender waits for a slot. -/
  | waits
  /-- The mailbox is closed, and the message is gone. -/
  | lost
  deriving DecidableEq, Repr

namespace Mailbox

variable {α : Type}

/-- An open mailbox with at least one slot. -/
def empty (limit : Nat) : Mailbox α := ⟨max limit 1, false, Fifo.empty, [], Fifo.empty⟩

/-- The most slots that can be counted. -/
def greatestLimit : Nat := 0x1FFFFFFFFFFFFFFF

/-- Whether there can be a mailbox with so many slots. -/
def canHave (limit : Nat) : Bool := decide (limit ≤ greatestLimit)

/-- How many slots are taken. -/
def taken (m : Mailbox α) : Nat := m.queue.size + m.granted.length

/-- Whether a slot is free. -/
def hasRoom (m : Mailbox α) : Bool := decide (m.taken < m.limit)

/-- Puts a message into a slot. -/
def push (m : Mailbox α) (a : α) : Mailbox α := { m with queue := m.queue.push a }

/-- Gives a free slot to the first sender in line. -/
def grant (m : Mailbox α) : Mailbox α :=
  if m.hasRoom then
    match m.waiting.pop? with
    | some (sender, rest) => { m with granted := m.granted ++ [sender], waiting := rest }
    | none => m
  else m

/-- Takes the oldest message, and hands its slot on. -/
def take? (m : Mailbox α) : Option (α × Mailbox α) :=
  match m.queue.pop? with
  | some (a, rest) => some (a, { m with queue := rest }.grant)
  | none => none

/-- Sends a message, or has its sender `id` wait. -/
def send (m : Mailbox α) (id : Nat) (a : α) : Mailbox α × Sent :=
  if m.closed then (m, .lost)
  else if m.hasRoom then (m.push a, .accepted)
  else ({ m with waiting := m.waiting.push (id, a) }, .waits)

/-- Lets a sender that waits use the slot it was given. -/
def resume (m : Mailbox α) (id : Nat) : Mailbox α × Sent :=
  if m.closed then (m, .lost)
  else
    match m.granted.find? fun g => g.1 == id with
    | some (_, a) =>
      ({ m with granted := m.granted.filter fun g => g.1 != id }.push a, .accepted)
    | none => (m, .waits)

/-- Takes back the message of a sender that waits. A slot that it was given
    goes to the next one in line. -/
def withdraw (m : Mailbox α) (id : Nat) : Mailbox α :=
  if m.granted.any fun g => g.1 == id then
    { m with granted := m.granted.filter fun g => g.1 != id }.grant
  else { m with waiting := m.waiting.filter fun w => w.1 != id }

/-- The mailbox once its receiver is gone. -/
def close (m : Mailbox α) : Mailbox α :=
  { m with closed := true, queue := Fifo.empty, granted := [], waiting := Fifo.empty }

end Mailbox

end BusWindow
