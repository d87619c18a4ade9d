import BusWindow.Store.Buffer
import BusWindow.Store.Error
import BusWindow.Store.Mailbox

/-!
# The store — one owner, two mailboxes, and the calls of its clients

    The owner alone touches the buffer. Records reach it through one
    mailbox and requests through another. Before it serves a request it
    takes in the records that wait, at most as many as their mailbox holds,
    so that a client sees what was sent before it asked. A request whose
    client has given up is skipped. When the owner stops, every call that
    still waits is dropped.

    `step` is the one rule by which the store moves: it says which action is
    possible in a state, where it leads, and what happened. Nothing is said
    about who chooses the actions, so every order of them is a run.
-/

namespace BusWindow

/-- The sizes that a store is made with. -/
structure StoreSettings where
  capacity : Nat
  maxResults : Nat
  requestQueue : Nat
  ingestQueue : Nat
  timeout : Duration
  deriving DecidableEq, Repr, Inhabited

namespace Store

/-- What the owner is doing. -/
inductive Owner where
  | notStarted
  | ready
  /-- Takes in records, at most `left` of them, before it serves a request. -/
  | draining (left : Nat) (id : Nat) (demand : Demand)
  | stopped
  deriving DecidableEq, Repr

/-- What can stand in the mailbox for requests. -/
inductive Request where
  | demand (id : Nat) (what : Demand)
  | shutdown
  deriving DecidableEq, Repr

/-- How far a call has come. -/
inductive Call where
  | waiting
  | answered (reply : Reply)
  /-- The owner stopped before it came to the call. -/
  | dropped
  deriving Repr

/-- A call that the owner will not come to any more. -/
def Call.drop : Call → Call
  | .waiting => .dropped
  | c => c

/-- The store with everything that is on its way to it or back. -/
structure System where
  settings : StoreSettings
  owner : Owner
  buffer : Buffer
  records : Mailbox Record
  requests : Mailbox Request
  /-- Calls whose clients have neither got an answer nor given up. -/
  calls : List (Nat × Call)
  /-- The number that the next call or sender gets. -/
  next : Nat
  deriving Repr

/-- A store whose owner has not been started. -/
def System.new (settings : StoreSettings) : System where
  settings := settings
  owner := .notStarted
  buffer := Buffer.empty settings.capacity
  records := Mailbox.empty settings.ingestQueue
  requests := Mailbox.empty settings.requestQueue
  calls := []
  next := 0

/-- A new store, if both of its mailboxes can have the slots that are asked
    for. -/
def System.new? (settings : StoreSettings) : Option System :=
  if Mailbox.canHave settings.ingestQueue && Mailbox.canHave settings.requestQueue then
    some (System.new settings)
  else none

/-- What can happen next. -/
inductive Action where
  /-- The owner begins its work. -/
  | start
  /-- The owner is dropped before it has begun. -/
  | discard
  /-- The owner is dropped while it waits for a record or a request. -/
  | abort
  /-- The owner takes in a record. -/
  | takeRecord (arrival : Timestamp)
  /-- The owner takes a request. -/
  | takeRequest
  /-- The owner takes in a record on the way to a request. -/
  | drainRecord (arrival : Timestamp)
  /-- The owner serves the request it has taken. -/
  | serve
  /-- A client calls. -/
  | ask (demand : Demand)
  /-- A client calls with a query that cannot be understood. -/
  | refuse (e : InvalidRange)
  /-- A client fetches what its call has led to. -/
  | collect (id : Nat)
  /-- A client stops waiting for its call. -/
  | giveUp (id : Nat)
  /-- A publisher sends a record. -/
  | send (record : Record)
  /-- A publisher in line looks for its slot. -/
  | resumeSend (id : Nat)
  /-- A publisher in line goes away. -/
  | withdrawSend (id : Nat)
  /-- Somebody asks the owner to stop. -/
  | sendShutdown
  /-- A shutdown in line looks for its slot. -/
  | resumeShutdown (id : Nat)
  /-- A shutdown in line goes away. -/
  | withdrawShutdown (id : Nat)
  deriving Repr

/-- What has happened. -/
inductive Event where
  | ownerStarted
  | ownerStopped
  /-- A record has become a message. -/
  | numbered (m : Message)
  /-- The owner has taken a request and looks for records first. -/
  | taken (id : Nat)
  | served (id : Nat) (demand : Demand) (reply : Reply)
  /-- The client of a request had given up. -/
  | skipped (id : Nat)
  /-- A call has joined the mailbox. -/
  | queued (id : Nat) (demand : Demand)
  /-- A call has failed at once. -/
  | refused (id : Nat) (e : StoreError)
  /-- A call has come back with its answer, or without one. -/
  | returned (id : Nat) (reply : Option Reply)
  | gaveUp (id : Nat)
  | recordSent (id : Nat) (sent : Sent)
  | shutdownSent (id : Nat) (sent : Sent)
  | withdrawn (id : Nat)
  deriving Repr

namespace System

/-- How far a call has come, if it is still open. -/
def call? (s : System) (id : Nat) : Option Call := s.calls.lookup id

/-- Whether the client of a call still waits. -/
def isWaiting (s : System) (id : Nat) : Bool :=
  match s.call? id with
  | some .waiting => true
  | _ => false

/-- The store without one of its calls. -/
def forget (s : System) (id : Nat) : System :=
  { s with calls := s.calls.filter fun c => c.1 != id }

/-- The store with an answer to one of its calls. -/
def answer (s : System) (id : Nat) (reply : Reply) : System :=
  { s with calls := s.calls.map fun c => if c.1 = id then (c.1, .answered reply) else c }

/-- The store once its owner is gone. -/
def stop (s : System) : System :=
  { s with
    owner := .stopped
    records := s.records.close
    requests := s.requests.close
    calls := s.calls.map fun c => (c.1, Call.drop c.2) }

/-- The store with one more message. -/
def number (s : System) (arrival : Timestamp) (r : Record) : System :=
  { s with buffer := s.buffer.add arrival r }

/-- The owner takes in the first record that waits. -/
def takeIn (s : System) (arrival : Timestamp) : Option (System × Event) :=
  match s.records.take? with
  | some (r, records) =>
    some ({ s with records := records }.number arrival r,
      .numbered (s.buffer.message arrival r))
  | none => none

/-- The owner, with no record left to take in first, serves a request. -/
def serve (s : System) (id : Nat) (demand : Demand) : System × Event :=
  if s.isWaiting id then
    let reply := s.buffer.reply s.settings.maxResults demand
    ({ s with owner := .ready, buffer := s.buffer.after demand }.answer id reply,
      .served id demand reply)
  else ({ s with owner := .ready }, .skipped id)

/-- The store with one number more given away. -/
def numberTaken (s : System) : System := { s with next := s.next + 1 }

/-- The store with one call more in the mailbox for requests. -/
def enqueue (s : System) (demand : Demand) : System :=
  { s with
    requests := s.requests.push (.demand s.next demand)
    calls := s.calls ++ [(s.next, .waiting)]
    next := s.next + 1 }

/-- Where an action leads, and what happens; `none` when it is not possible. -/
def step (s : System) : Action → Option (System × Event)
  | .start =>
    match s.owner with
    | .notStarted => some ({ s with owner := .ready }, .ownerStarted)
    | _ => none
  | .discard =>
    match s.owner with
    | .notStarted => some (s.stop, .ownerStopped)
    | _ => none
  | .abort =>
    match s.owner with
    | .ready => some (s.stop, .ownerStopped)
    | _ => none
  | .takeRecord arrival =>
    match s.owner with
    | .ready => s.takeIn arrival
    | _ => none
  | .takeRequest =>
    match s.owner, s.requests.take? with
    | .ready, some (.shutdown, requests) =>
      some ({ s with requests := requests }.stop, .ownerStopped)
    | .ready, some (.demand id demand, requests) =>
      some ({ s with requests := requests, owner := .draining s.records.limit id demand },
        .taken id)
    | _, _ => none
  | .drainRecord arrival =>
    match s.owner with
    | .draining (left + 1) id demand =>
      { s with owner := .draining left id demand }.takeIn arrival
    | _ => none
  | .serve =>
    match s.owner with
    | .draining left id demand =>
      if left = 0 ∨ s.records.queue.size = 0 then some (s.serve id demand) else none
    | _ => none
  | .ask demand =>
    if s.requests.closed then some (s.numberTaken, .refused s.next .closed)
    else if s.requests.hasRoom then
      some (s.enqueue demand, .queued s.next demand)
    else some (s.numberTaken, .refused s.next .overloaded)
  | .refuse e => some (s.numberTaken, .refused s.next (.invalidRange e))
  | .collect id =>
    match s.call? id with
    | some (.answered reply) => some (s.forget id, .returned id (some reply))
    | some .dropped => some (s.forget id, .returned id none)
    | _ => none
  | .giveUp id => if s.isWaiting id then some (s.forget id, .gaveUp id) else none
  | .send record =>
    let sent := s.records.send s.next record
    some ({ s with records := sent.1 }.numberTaken, .recordSent s.next sent.2)
  | .resumeSend id =>
    let sent := s.records.resume id
    some ({ s with records := sent.1 }, .recordSent id sent.2)
  | .withdrawSend id => some ({ s with records := s.records.withdraw id }, .withdrawn id)
  | .sendShutdown =>
    let sent := s.requests.send s.next .shutdown
    some ({ s with requests := sent.1 }.numberTaken, .shutdownSent s.next sent.2)
  | .resumeShutdown id =>
    let sent := s.requests.resume id
    some ({ s with requests := sent.1 }, .shutdownSent id sent.2)
  | .withdrawShutdown id =>
    some ({ s with requests := s.requests.withdraw id }, .withdrawn id)

end System

end Store

end BusWindow
