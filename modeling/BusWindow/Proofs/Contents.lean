import BusWindow.Proofs.Visibility

/-!
# Contents — what a store holds once the records on their way are in

    A record whose sending is completed may lie in the mailbox for a while
    before it gets its number. What a store holds is therefore told with the
    records of the mailbox counted in: a plain list of messages and the count
    of all there have been. The list says nothing of mailboxes, queues or
    turns of the owner.

    * `Listing` is the plain list with its operations; `Buffer.listing_add`
      and `Buffer.reply_eq` say that a buffer does the same;
    * `System.contents` is what a store holds; `Step.contents` sorts the
      steps by what they do to it. The owner's taking in of a record does
      nothing: only the completed sending of a record and the serving of a
      clearing do.
-/

namespace BusWindow

/-- Messages that are kept, oldest first, and how many there have been. -/
structure Listing where
  received : Nat
  messages : List Message

namespace Listing

/-- Nothing has come in yet. -/
def new : Listing := ⟨0, []⟩

/-- Takes in a record, at the time that a clock shows for its number. What
    does not fit any more leaves at the old end. -/
def ingest (capacity : Nat) (clock : Nat → Timestamp) (l : Listing) (r : Record) : Listing :=
  let m : Message := ⟨l.received, clock l.received, r⟩
  ⟨l.received + 1, (l.messages ++ [m]).rtake capacity⟩

/-- Drops every message and keeps the count. -/
def clear (l : Listing) : Listing := { l with messages := [] }

/-- What a demand leaves of a listing. -/
def after (l : Listing) : Demand → Listing
  | .clear => l.clear
  | _ => l

/-- The messages that a demand asks for. -/
def asked (limit : Nat) (l : Listing) : Demand → List Message
  | .query .all => l.messages.rtake limit
  | .query (.filter clauses) => (l.messages.reverse.filter (anyAccepts clauses)).take limit
  | .dump => l.messages
  | .clear => []
  | .stats => []

/-- The answer to a demand. -/
def reply (capacity limit : Nat) (l : Listing) (d : Demand) : Reply :=
  ⟨l.asked limit d, l.received, l.messages.length, capacity⟩

end Listing

namespace Buffer

/-- A buffer as a listing. -/
def listing (b : Buffer) : Listing := ⟨b.received, b.toList⟩

/-- A full buffer lets its oldest message go for a new one. -/
theorem listing_add {b : Buffer} (fits : b.size ≤ b.capacity) {clock : Nat → Timestamp}
    {arrival : Timestamp} (time : clock b.received = arrival) (r : Record) :
    (b.add arrival r).listing = b.listing.ingest b.capacity clock r := by
  have hmessages : (b.add arrival r).toList
      = (b.toList ++ [b.message arrival r]).rtake b.capacity := by
    have hlength : (b.toList ++ [b.message arrival r]).length = b.size + 1 := by
      rw [List.length_append, length_toList]
      rfl
    have hperform := toList_perform_ingest b arrival r
    rw [perform] at hperform
    rw [hperform, List.rtake, hlength]
    by_cases hfull : b.capacity < b.size + 1
    · have hdrop : b.size + 1 - b.capacity = 1 := by omega
      rw [if_pos hfull, hdrop, List.drop_one]
    · have hdrop : b.size + 1 - b.capacity = 0 := by omega
      rw [if_neg hfull, hdrop, List.drop_zero]
  rw [listing, hmessages, message, ← time]
  rfl

theorem listing_after (b : Buffer) (d : Demand) : (b.after d).listing = b.listing.after d := by
  cases d <;> rfl

theorem reply_eq (b : Buffer) (limit : Nat) (d : Demand) :
    b.reply limit d = b.listing.reply b.capacity limit d := by
  have hasked : b.asked limit d = b.listing.asked limit d := by
    cases d with
    | query q =>
        cases q with
        | all =>
            show b.toList.drop (b.size - min b.size limit) = b.toList.rtake limit
            rw [List.rtake, length_toList]
            congr 1
            omega
        | filter clauses => rfl
    | clear => rfl
    | dump => rfl
    | stats => rfl
  rw [reply, Listing.reply, hasked, listing, length_toList]

end Buffer

namespace Store

variable {settings : StoreSettings} {clock : Nat → Timestamp} {t t' : Trace} {s s' : System}
  {a : Action} {e : Event} {id : Nat} {sent : Sent}

/-- What a store holds: its buffer with the records of the mailbox taken in. -/
def System.contents (clock : Nat → Timestamp) (s : System) : Listing :=
  s.records.contents.foldl (Listing.ingest s.settings.capacity clock) s.buffer.listing

/-- Once no record waits, a store holds what its buffer does. -/
theorem System.contents_of_drained (clock : Nat → Timestamp) (h : s.records.contents = []) :
    s.contents clock = s.buffer.listing := by
  rw [System.contents, h, List.foldl_nil]

/-- A clock shows the times at which the records of a trace came in. -/
def Trace.Shows (t : Trace) (clock : Nat → Timestamp) : Prop :=
  ∀ m ∈ t.numbered, clock m.seq.toNat = m.receivedAt

theorem Trace.Shows.front (h : Trace.Shows (t ++ t') clock) : t.Shows clock := by
  intro m hm
  refine h m ?_
  rw [Trace.numbered_append]
  exact List.mem_append_left _ hm

/-- The clock that stands still between the records of a trace. -/
def Trace.arrival (t : Trace) (n : Nat) : Timestamp :=
  (t.numbered[n]?.map Message.receivedAt).getD ⟨0, 0⟩

/-- Some clock shows the times of a run. -/
theorem Run.shows_arrival (run : Run settings t s) : t.Shows t.arrival := by
  intro m hm
  obtain ⟨n, hn⟩ := List.mem_iff_getElem?.mp hm
  have hseq : m.seq = n := Work.getElem?_history (run.numbered_eq ▸ hn)
  rw [Trace.arrival, hseq, Int.toNat_natCast, hn]
  rfl

theorem Run.capacity_eq (run : Run settings t s) : s.buffer.capacity = s.settings.capacity := by
  rw [run.buffer_eq, run.settings_eq]
  exact Buffer.capacity_performAll _ _

/-- The buffer never outgrows its capacity. -/
theorem Run.fits (run : Run settings t s) : s.buffer.size ≤ s.buffer.capacity := by
  rw [run.buffer_eq, Buffer.size_performAll, Buffer.capacity_performAll]
  exact Nat.min_le_left _ _

/-- As long as the owner has not stopped, both mailboxes are open. -/
theorem Run.open_mailboxes (run : Run settings t s) (running : s.owner ≠ .stopped) :
    s.records.closed = false ∧ s.requests.closed = false := by
  induction run with
  | new => exact ⟨rfl, rfl⟩
  | @step t s s' a e run h ih =>
      -- a step that does not stop the owner closes nothing
      cases Step.of_step h with
      | discard => exact absurd rfl running
      | abort => exact absurd rfl running
      | takeShutdown => exact absurd rfl running
      | start owner => exact ih (by rw [owner]; exact nofun)
      | takeRecord owner take =>
          obtain ⟨hrecords, hrequests⟩ := ih running
          exact ⟨(Mailbox.closed_of_take? take).trans hrecords, hrequests⟩
      | takeDemand owner take =>
          obtain ⟨hrecords, hrequests⟩ := ih (by rw [owner]; exact nofun)
          exact ⟨hrecords, (Mailbox.closed_of_take? take).trans hrequests⟩
      | drainRecord owner take =>
          obtain ⟨hrecords, hrequests⟩ := ih (by rw [owner]; exact nofun)
          exact ⟨(Mailbox.closed_of_take? take).trans hrecords, hrequests⟩
      | serve owner => exact ih (by rw [owner]; exact nofun)
      | skip owner => exact ih (by rw [owner]; exact nofun)
      | send => exact ⟨(Mailbox.closed_send _ _ _).trans (ih running).1, (ih running).2⟩
      | resumeSend => exact ⟨(Mailbox.closed_resume _ _).trans (ih running).1, (ih running).2⟩
      | withdrawSend => exact ⟨(Mailbox.closed_withdraw _ _).trans (ih running).1, (ih running).2⟩
      | sendShutdown => exact ⟨(ih running).1, (Mailbox.closed_send _ _ _).trans (ih running).2⟩
      | resumeShutdown => exact ⟨(ih running).1, (Mailbox.closed_resume _ _).trans (ih running).2⟩
      | withdrawShutdown =>
          exact ⟨(ih running).1, (Mailbox.closed_withdraw _ _).trans (ih running).2⟩
      | _ => exact ih running

/-! ## What a step does to the contents -/

/-- The call or the sender by which the contents change, as an event tells of
    it. -/
def Event.changer? : Event → Option Nat
  | .recordSent id .accepted => some id
  | .served id .clear _ => some id
  | _ => none

/-- What a step can do to the contents. -/
inductive Change (clock : Nat → Timestamp) (s s' : System) : Action → Event → Prop where
  | none {a : Action} {e : Event} (changer : e.changer? = none)
      (contents : s'.contents clock = s.contents clock) : Change clock s s' a e
  | send {r : Record}
      (contents : s'.contents clock = (s.contents clock).ingest s.settings.capacity clock r) :
      Change clock s s' (.send r) (.recordSent s.next .accepted)
  | resume {id : Nat} {r : Record} (line : (id, r) ∈ s.records.line)
      (contents : s'.contents clock = (s.contents clock).ingest s.settings.capacity clock r) :
      Change clock s s' (.resumeSend id) (.recordSent id .accepted)
  | clear {id : Nat} {reply : Reply} (records : s'.records = s.records)
      (buffer : s'.buffer.listing = s.buffer.listing.clear) :
      Change clock s s' .serve (.served id .clear reply)

/-- A record that lies at the end of the mailbox is the last one to be taken
    in. -/
theorem contents_of_append {r : Record} (settings : s'.settings = s.settings)
    (buffer : s'.buffer = s.buffer) (records : s'.records.contents = s.records.contents ++ [r]) :
    s'.contents clock = (s.contents clock).ingest s.settings.capacity clock r := by
  rw [System.contents, settings, buffer, records, List.foldl_concat]
  rfl

/-- Taking in the first record of the mailbox changes nothing, for it is
    counted in already. -/
theorem contents_of_take {r : Record} {arrival : Timestamp} (run : Run settings t s)
    (time : clock s.buffer.received = arrival) (settings : s'.settings = s.settings)
    (take : s.records.take? = some (r, s'.records)) (buffer : s'.buffer = s.buffer.add arrival r) :
    s'.contents clock = s.contents clock := by
  rw [System.contents, System.contents, settings, buffer, Mailbox.contents_of_take? take,
    List.foldl_cons, Buffer.listing_add run.fits time, run.capacity_eq]

/-- As long as the owner does not stop, only the completed sending of a
    record and the serving of a clearing change the contents. -/
theorem Step.contents (h : Step s a s' e) (run : Run settings t s)
    (shows : Trace.Shows (t ++ [(a, e)]) clock) (running : s'.owner ≠ .stopped) :
    Change clock s s' a e := by
  -- the number of a new message is what the counter of the buffer stands at
  have htime {arrival : Timestamp} {r : Record} (he : e = .numbered (s.buffer.message arrival r)) :
      clock s.buffer.received = arrival := by
    refine shows (s.buffer.message arrival r) ?_
    rw [Trace.numbered_concat, he]
    exact List.mem_append_right _ List.mem_cons_self
  cases h with
  | discard => exact absurd rfl running
  | abort => exact absurd rfl running
  | takeShutdown => exact absurd rfl running
  | takeRecord owner take => exact .none rfl (contents_of_take run (htime rfl) rfl take rfl)
  | drainRecord owner take => exact .none rfl (contents_of_take run (htime rfl) rfl take rfl)
  | @serve left id d =>
      cases d with
      | clear => exact .clear rfl rfl
      | query q => exact .none rfl rfl
      | dump => exact .none rfl rfl
      | stats => exact .none rfl rfl
  | @send r =>
      rcases Mailbox.send_cases s.records s.next r with heq | ⟨-, heq⟩ | heq
      · rw [heq]
        exact .none rfl rfl
      · rw [heq]
        exact .send (contents_of_append rfl rfl (Mailbox.contents_push _ _))
      · rw [heq]
        exact .none rfl rfl
  | @resumeSend id =>
      rcases Mailbox.resume_cases s.records id with heq | heq | ⟨r, hmem, heq⟩
      · rw [heq]
        exact .none rfl rfl
      · rw [heq]
        exact .none rfl rfl
      · rw [heq]
        exact .resume (List.mem_append_left _ hmem)
          (contents_of_append rfl rfl (Mailbox.contents_push _ _))
  | withdrawSend =>
      refine .none rfl ?_
      show (s.records.withdraw _).contents.foldl _ _ = _
      rw [Mailbox.contents_withdraw]
      rfl
  | _ => exact .none rfl rfl

/-- A step that neither completes the sending of a record nor serves a
    clearing leaves the contents as they are. -/
theorem Step.contents_eq (h : Step s a s' e) (run : Run settings t s)
    (shows : Trace.Shows (t ++ [(a, e)]) clock) (running : s'.owner ≠ .stopped)
    (none : e.changer? = none) : s'.contents clock = s.contents clock := by
  cases h.contents run shows running with
  | none _ contents => exact contents
  | send => exact nomatch none
  | resume => exact nomatch none
  | clear => exact nomatch none

/-- As long as the owner has not stopped, a sending that is over was
    accepted. -/
theorem Step.accepted (h : Step s a s' (.recordSent id sent)) (run : Run settings t s)
    (running : s.owner ≠ .stopped) (ended : sent ≠ .waits) : sent = .accepted := by
  obtain ⟨hopen, -⟩ := run.open_mailboxes running
  cases h with
  | send => exact Mailbox.send_accepted hopen ended
  | resumeSend => exact Mailbox.resume_accepted hopen ended

/-- Where there is room, a record is accepted at once. -/
theorem Run.accepts (run : Run settings t s) (running : s.owner ≠ .stopped)
    (room : s.records.hasRoom = true) (r : Record) :
    s.step (.send r) = some ({ s with records := s.records.push r }.numberTaken,
      .recordSent s.next .accepted) := by
  obtain ⟨hopen, -⟩ := run.open_mailboxes running
  have hsend : s.records.send s.next r = (s.records.push r, .accepted) := by
    simp [Mailbox.send, hopen, room]
  rw [System.step, hsend]

end Store

end BusWindow
