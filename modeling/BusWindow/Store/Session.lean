import BusWindow.Store.Errand

/-!
# Sessions — errands run against one store, under a clock of their own

    A session runs errands together. All of them are begun in order, each up
    to the point where it has to wait. Then, again and again, the owner works
    until it has nothing left to do, and every errand looks whether it can go
    on. When nothing moves, the clock jumps to the next moment at which a
    client loses its patience, so an answer never depends on how fast the
    machine is. An errand that could only wait for ever has no result.
-/

namespace BusWindow

open Store

/-- A store, and the time in nanoseconds. -/
structure Session where
  system : System
  clock : Nat
  deriving Repr

/-- Where an errand stands. -/
inductive Wait (β : Type) where
  | finished (result : β)
  /-- Waits for the answer to a call. -/
  | answer (id : Nat) (deadline : Nat) (finish : Except StoreError Reply → β)
  /-- Waits for a slot for a record; `sent` records went off before, and
      `more` come after it. -/
  | slot (id : Nat) (deadline : Option Nat) (sent : Nat) (more : List Record)
      (patience : Option Duration) (finish : Nat → β)
  /-- Waits for a slot for a shutdown. -/
  | shutdownSlot (id : Nat) (deadline : Option Nat) (finish : Bool → β)
  /-- Waits for the owner. -/
  | ownerIdle (result : β)

/-- The moment at which an errand loses its patience. -/
def Wait.deadline? {β : Type} : Wait β → Option Nat
  | .answer _ deadline _ => some deadline
  | .slot _ deadline _ _ _ _ => deadline
  | .shutdownSlot _ deadline _ => deadline
  | _ => none

/-- The result of an errand that has one. -/
def Wait.result? {β : Type} : Wait β → Option β
  | .finished result => some result
  | _ => none

namespace Session

/-- A session over a store that has not been started. -/
def new (settings : StoreSettings) : Session := ⟨System.new settings, 0⟩

/-- The time as a timestamp. -/
def now (s : Session) : Timestamp := ⟨s.clock / 1000000000, s.clock % 1000000000⟩

/-- Performs an action, if it is possible. -/
def perform (s : Session) (action : Action) : Session × Option Event :=
  match s.system.step action with
  | some (system, event) => ({ s with system := system }, some event)
  | none => (s, none)

/-- What the owner does next, if there is anything for it to do. -/
def ownerStep (s : Session) : Option (System × Event) :=
  [.takeRecord s.now, .takeRequest, .drainRecord s.now, .serve].findSome? s.system.step

/-- Lets the owner work, for at most `fuel` steps. -/
def workFor : Nat → Session → Session
  | 0, s => s
  | fuel + 1, s =>
    match s.ownerStep with
    | some (system, _) => workFor fuel { s with system := system }
    | none => s

/-- Lets the owner work until it has nothing left to do. A record takes one
    step of it and a request two. -/
def work (s : Session) : Session :=
  workFor (s.system.records.queue.size + 2 * s.system.requests.queue.size + 1) s

/-- The moment at which patience is over. -/
def deadline (s : Session) (patience : Option Duration) : Option Nat :=
  patience.map fun d => s.clock + d.nanos

/-- Whether a moment has come. -/
def isOver (s : Session) : Option Nat → Bool
  | some t => decide (t ≤ s.clock)
  | none => false

/-- Sends records until one of them has to wait. -/
def give {β : Type} (patience : Option Duration) (finish : Nat → β) :
    Nat → List Record → Session → Session × Wait β
  | sent, [], s => (s, .finished (finish sent))
  | sent, r :: more, s =>
    match s.perform (.send r) with
    | (s, some (.recordSent id .waits)) =>
      (s, .slot id (s.deadline patience) sent more patience finish)
    | (s, _) => give patience finish (sent + 1) more s

/-- Begins an errand and carries it to the first wait. A call whose time is
    over as it begins is given up at once. -/
def begin {β : Type} (s : Session) : Errand β → Session × Wait β
  | .done result => (s, .finished result)
  | .ask demand finish =>
    match s.perform (.ask demand) with
    | (s, some (.queued id _)) =>
      if s.system.settings.timeout.nanos = 0 then
        ((s.perform (.giveUp id)).1,
          .finished (finish (.error (.timeout s.system.settings.timeout))))
      else (s, .answer id (s.clock + s.system.settings.timeout.nanos) finish)
    | (s, some (.refused _ e)) => (s, .finished (finish (.error e)))
    | (s, _) => (s, .finished (finish (.error .closed)))
  | .give records patience finish => give patience finish 0 records s
  | .shutdown patience finish =>
    match s.perform .sendShutdown with
    | (s, some (.shutdownSent id .waits)) => (s, .shutdownSlot id (s.deadline patience) finish)
    | (s, _) => (s, .finished (finish true))
  | .start finish =>
    match s.perform .start with
    | (s, some _) => (s, .finished (finish true))
    | (s, none) => (s, .finished (finish false))
  | .discard finish =>
    match s.perform .discard with
    | (s, some _) => (s, .finished (finish true))
    | (s, none) => (s, .finished (finish false))
  | .settle result => (s, .ownerIdle result)

/-- Looks whether an errand can go on, and says whether it did. -/
def poll {β : Type} (s : Session) (w : Wait β) : Session × Wait β × Bool :=
  match w with
  | .finished result => (s, .finished result, false)
  | .answer id deadline finish =>
    match s.perform (.collect id) with
    | (s, some (.returned _ (some reply))) => (s, .finished (finish (.ok reply)), true)
    | (s, some _) => (s, .finished (finish (.error .closed)), true)
    | (s, none) =>
      if s.isOver (some deadline) then
        ((s.perform (.giveUp id)).1,
          .finished (finish (.error (.timeout s.system.settings.timeout))), true)
      else (s, w, false)
  | .slot id deadline sent more patience finish =>
    match s.perform (.resumeSend id) with
    | (s, some (.recordSent _ .waits)) =>
      if s.isOver deadline then
        ((s.perform (.withdrawSend id)).1, .finished (finish sent), true)
      else (s, w, false)
    | (s, _) =>
      let r := give patience finish (sent + 1) more s
      (r.1, r.2, true)
  | .shutdownSlot id deadline finish =>
    match s.perform (.resumeShutdown id) with
    | (s, some (.shutdownSent _ .waits)) =>
      if s.isOver deadline then
        ((s.perform (.withdrawShutdown id)).1, .finished (finish false), true)
      else (s, w, false)
    | (s, _) => (s, .finished (finish true), true)
  | .ownerIdle result => (s, .finished result, true)

/-- Begins errands in order. -/
def beginAll {β : Type} (s : Session) : List (Errand β) → Session × List (Wait β)
  | [] => (s, [])
  | e :: rest =>
    let r := s.begin e
    let more := r.1.beginAll rest
    (more.1, r.2 :: more.2)

/-- Polls errands in order, and says whether one of them went on. -/
def pollAll {β : Type} (s : Session) : List (Wait β) → Session × List (Wait β) × Bool
  | [] => (s, [], false)
  | w :: rest =>
    let r := s.poll w
    let more := r.1.pollAll rest
    (more.1, r.2.1 :: more.2.1, r.2.2 || more.2.2)

/-- The first moment at which an errand loses its patience. -/
def nextDeadline {β : Type} (waits : List (Wait β)) : Option Nat :=
  (waits.filterMap Wait.deadline?).min?

/-- Takes back what an errand still has in line. -/
def abandon {β : Type} (s : Session) : Wait β → Session
  | .answer id _ _ => (s.perform (.giveUp id)).1
  | .slot id _ _ _ _ _ => (s.perform (.withdrawSend id)).1
  | .shutdownSlot id _ _ => (s.perform (.withdrawShutdown id)).1
  | _ => s

/-- Carries errands on for at most `fuel` rounds, until all are finished or
    none can ever be. -/
def finishFor {β : Type} : Nat → Session → List (Wait β) → Session × List (Option β)
  | 0, s, waits => (waits.foldl abandon s, waits.map Wait.result?)
  | fuel + 1, s, waits =>
    if waits.all fun w => (Wait.result? w).isSome then (s, waits.map Wait.result?)
    else
      let r := s.work.pollAll waits
      if r.2.2 then finishFor fuel r.1 r.2.1
      else
        match nextDeadline waits with
        | some t => finishFor fuel { r.1 with clock := max r.1.clock t } waits
        | none => (waits.foldl abandon r.1, waits.map Wait.result?)

/-- Runs errands together. Each round moves an errand or, the round after the
    clock has jumped, lets one lose its patience. -/
def run {β : Type} (s : Session) (errands : List (Errand β)) : Session × List (Option β) :=
  let r := s.beginAll errands
  let steps := errands.foldl (fun n e => n + e.length) 0
  finishFor (2 * steps + 2) r.1 r.2

end Session

end BusWindow
