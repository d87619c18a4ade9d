import BusWindow.Proofs.Calls
import BusWindow.Proofs.Contents

/-!
# Schedules — the answers of a client do not depend on the scheduler

    One client takes one step after the other and waits for each to come
    back. Between any two actions of the client the owner may take as many
    turns as it likes, of whatever kind is possible: records come in through
    its own branch or on the way to a request, early or late. The answers are
    always those of a plain list on which the steps are done at once.

    * `Listing.perform` is the plain machine, and `Schedule` all ways in
      which the steps can be carried out on a store;
    * `Idle` and `Progress` relate a store to a plain list, between two steps
      and during a call; each action of the client and each turn of the owner
      keeps the relation (`Schedule.stands`);
    * `answers_independent_of_schedule` is the whole statement.
-/

namespace BusWindow

/-- A message without the time at which it came in. -/
def Message.timeless (m : Message) : Message := { m with receivedAt := ⟨0, 0⟩ }

namespace Store

/-- A step of a client. -/
inductive ClientStep where
  | ingest (r : Record)
  | call (q : Inquiry)

/-- What a step of a client comes back with. Handing over a record is not
    answered. -/
inductive Answer where
  | ingested
  | came (v : Except StoreError Reply)

/-- An answer without the times at which its messages came in. -/
def Answer.timeless : Answer → Answer
  | .came (.ok r) => .came (.ok { r with messages := r.messages.map Message.timeless })
  | answer => answer

/-- The steps of a client that have come back, with their answers. -/
abbrev Log := List (ClientStep × Answer)

end Store

open Store

namespace Listing

/-- The clock that shows no time. -/
def noClock (_ : Nat) : Timestamp := ⟨0, 0⟩

/-- A step of a client, done on the plain list at once. -/
def perform (settings : StoreSettings) (clock : Nat → Timestamp) (l : Listing) :
    ClientStep → Listing × Answer
  | .ingest r => (l.ingest settings.capacity clock r, .ingested)
  | .call q =>
    match q.demand with
    | .ok d => (l.after d, .came (.ok (l.reply settings.capacity settings.maxResults d)))
    | .error e => (l, .came (.error (.invalidRange e)))

/-- What the steps of a client leave of a list. -/
def performAll (settings : StoreSettings) (clock : Nat → Timestamp) (l : Listing)
    (steps : List ClientStep) : Listing :=
  steps.foldl (fun l step => (l.perform settings clock step).1) l

/-- The answers to the steps of a client. -/
def answers (settings : StoreSettings) (clock : Nat → Timestamp) (l : Listing) :
    List ClientStep → List Answer
  | [] => []
  | step :: rest =>
    (l.perform settings clock step).2
      :: answers settings clock (l.perform settings clock step).1 rest

variable (settings : StoreSettings) (clock : Nat → Timestamp)

theorem performAll_concat (l : Listing) (steps : List ClientStep) (step : ClientStep) :
    l.performAll settings clock (steps ++ [step])
      = ((l.performAll settings clock steps).perform settings clock step).1 :=
  List.foldl_concat ..

theorem answers_concat (l : Listing) (steps : List ClientStep) (step : ClientStep) :
    l.answers settings clock (steps ++ [step])
      = l.answers settings clock steps
        ++ [((l.performAll settings clock steps).perform settings clock step).2] := by
  induction steps generalizing l with
  | nil => rfl
  | cons first rest ih =>
      show _ :: answers settings clock _ (rest ++ [step]) = _ :: (_ ++ _)
      rw [ih]
      rfl

/-- The plain machine turns nobody away for want of room. -/
theorem overloaded_notMem_answers (l : Listing) (steps : List ClientStep) :
    .came (.error .overloaded) ∉ l.answers settings clock steps := by
  induction steps generalizing l with
  | nil => exact nofun
  | cons step rest ih =>
      rw [answers, List.mem_cons]
      rintro (hnow | hlater)
      · cases step with
        | ingest r => exact nomatch hnow
        | call q =>
            rw [perform] at hnow
            split at hnow
            · exact nomatch hnow
            · exact nomatch hnow
      · exact ih _ hlater

/-! ## The times of arrival -/

/-- A list without the times at which its messages came in. -/
def timeless (l : Listing) : Listing := { l with messages := l.messages.map Message.timeless }

/-- What a plain list answers does not depend on the times of arrival. -/
theorem map_timeless_asked (limit : Nat) (l : Listing) (d : Demand) :
    (l.asked limit d).map Message.timeless = l.timeless.asked limit d := by
  cases d with
  | query q =>
      cases q with
      | all =>
          show (l.messages.rtake limit).map Message.timeless
            = (l.messages.map Message.timeless).rtake limit
          rw [List.rtake, List.rtake, List.map_drop, List.length_map]
      | filter clauses =>
          -- no clause looks at the time
          show ((l.messages.reverse.filter (anyAccepts clauses)).take limit).map Message.timeless
            = ((l.messages.map Message.timeless).reverse.filter (anyAccepts clauses)).take limit
          rw [List.map_take, ← List.map_reverse, List.filter_map]
          rfl
  | clear => rfl
  | dump => rfl
  | stats => rfl

/-- Nor does what it holds. -/
theorem timeless_ingest (capacity : Nat) (l : Listing) (r : Record) :
    (l.ingest capacity clock r).timeless = l.timeless.ingest capacity noClock r := by
  show (⟨l.received + 1, (List.rtake _ _).map Message.timeless⟩ : Listing)
    = ⟨l.received + 1, List.rtake _ _⟩
  simp [List.rtake, List.map_drop, timeless, Message.timeless, noClock]

/-- The plain machine does and says the same without times of arrival. -/
theorem timeless_perform (l : Listing) (step : ClientStep) :
    (l.perform settings clock step).1.timeless = (l.timeless.perform settings noClock step).1
      ∧ (l.perform settings clock step).2.timeless
        = (l.timeless.perform settings noClock step).2 := by
  cases step with
  | ingest r => exact ⟨timeless_ingest clock _ l r, rfl⟩
  | call q =>
      rw [perform, perform]
      cases q.demand with
      | error e => exact ⟨rfl, rfl⟩
      | ok d =>
          constructor
          · cases d <;> rfl
          · have hlength : l.timeless.messages.length = l.messages.length := List.length_map _
            show Answer.came
                (.ok ⟨(l.asked _ d).map _, l.received, l.messages.length, settings.capacity⟩)
              = .came (.ok ⟨l.timeless.asked _ d, l.received, l.timeless.messages.length, _⟩)
            rw [map_timeless_asked, hlength]

/-- Nor do all its answers together. -/
theorem map_timeless_answers (l : Listing) (steps : List ClientStep) :
    (l.answers settings clock steps).map Answer.timeless
      = l.timeless.answers settings noClock steps := by
  induction steps generalizing l with
  | nil => rfl
  | cons step rest ih =>
      obtain ⟨hlisting, hanswer⟩ := timeless_perform settings clock l step
      rw [answers, List.map_cons, ih, hanswer, hlisting]
      rfl

end Listing

namespace Store

/-- The actions of the owner that do not end its work. -/
def Action.isTurn : Action → Bool
  | .start => true
  | .takeRecord _ => true
  | .takeRequest => true
  | .drainRecord _ => true
  | .serve => true
  | _ => false

/-- Where a client stands with its steps. -/
inductive Standing where
  | free
  /-- Waits for a slot for a record. -/
  | inLine (id : Nat) (r : Record)
  /-- Waits for the answer to a call. -/
  | calling (id : Nat) (q : Inquiry)

/-- Every way in which the steps of one client can be carried out on a new
    store. The owner may take a turn at any time, and nobody else does
    anything. No call is given up: its answer comes before its time is over. -/
inductive Schedule (settings : StoreSettings) : Trace → System → Log → Standing → Prop where
  | new : Schedule settings [] (System.new settings) [] .free
  | turn {t : Trace} {s s' : System} {log : Log} {standing : Standing} {a : Action} {e : Event}
      (before : Schedule settings t s log standing) (owner : a.isTurn = true)
      (step : s.step a = some (s', e)) : Schedule settings (t ++ [(a, e)]) s' log standing
  | handOver {t : Trace} {s s' : System} {log : Log} {r : Record} {id : Nat} {sent : Sent}
      (before : Schedule settings t s log .free) (ended : sent ≠ .waits)
      (step : s.step (.send r) = some (s', .recordSent id sent)) :
      Schedule settings (t ++ [(.send r, .recordSent id sent)]) s'
        (log ++ [(.ingest r, .ingested)]) .free
  | lineUp {t : Trace} {s s' : System} {log : Log} {r : Record} {id : Nat}
      (before : Schedule settings t s log .free)
      (step : s.step (.send r) = some (s', .recordSent id .waits)) :
      Schedule settings (t ++ [(.send r, .recordSent id .waits)]) s' log (.inLine id r)
  | stayInLine {t : Trace} {s s' : System} {log : Log} {r : Record} {id : Nat}
      (before : Schedule settings t s log (.inLine id r))
      (step : s.step (.resumeSend id) = some (s', .recordSent id .waits)) :
      Schedule settings (t ++ [(.resumeSend id, .recordSent id .waits)]) s' log (.inLine id r)
  | getIn {t : Trace} {s s' : System} {log : Log} {r : Record} {id : Nat} {sent : Sent}
      (before : Schedule settings t s log (.inLine id r)) (ended : sent ≠ .waits)
      (step : s.step (.resumeSend id) = some (s', .recordSent id sent)) :
      Schedule settings (t ++ [(.resumeSend id, .recordSent id sent)]) s'
        (log ++ [(.ingest r, .ingested)]) .free
  | ask {t : Trace} {s s' : System} {log : Log} {q : Inquiry} {id : Nat} {d : Demand}
      (before : Schedule settings t s log .free)
      (step : s.step q.action = some (s', .queued id d)) :
      Schedule settings (t ++ [(q.action, .queued id d)]) s' log (.calling id q)
  | refused {t : Trace} {s s' : System} {log : Log} {q : Inquiry} {id : Nat} {e : StoreError}
      (before : Schedule settings t s log .free)
      (step : s.step q.action = some (s', .refused id e)) :
      Schedule settings (t ++ [(q.action, .refused id e)]) s'
        (log ++ [(.call q, .came (.error e))]) .free
  | answered {t : Trace} {s s' : System} {log : Log} {q : Inquiry} {id : Nat} {r : Reply}
      (before : Schedule settings t s log (.calling id q))
      (step : s.step (.collect id) = some (s', .returned id (some r))) :
      Schedule settings (t ++ [(.collect id, .returned id (some r))]) s'
        (log ++ [(.call q, .came (.ok r))]) .free
  | dropped {t : Trace} {s s' : System} {log : Log} {q : Inquiry} {id : Nat}
      (before : Schedule settings t s log (.calling id q))
      (step : s.step (.collect id) = some (s', .returned id none)) :
      Schedule settings (t ++ [(.collect id, .returned id none)]) s'
        (log ++ [(.call q, .came (.error .closed))]) .free

variable {settings : StoreSettings} {clock : Nat → Timestamp} {t : Trace} {s s' : System}
  {log : Log} {standing : Standing} {a : Action} {e : Event} {l : Listing} {id : Nat} {d : Demand}

/-- Carrying out steps is a run of the store. -/
theorem Schedule.run (h : Schedule settings t s log standing) : Run settings t s := by
  induction h with
  | new => exact .new
  | turn _ _ step ih => exact ih.step step
  | handOver _ _ step ih => exact ih.step step
  | lineUp _ step ih => exact ih.step step
  | stayInLine _ step ih => exact ih.step step
  | getIn _ _ step ih => exact ih.step step
  | ask _ step ih => exact ih.step step
  | refused _ step ih => exact ih.step step
  | answered _ step ih => exact ih.step step
  | dropped _ step ih => exact ih.step step

/-! ## The mailbox for requests has room -/

theorem Inquiry.action_ne_sendShutdown (q : Inquiry) : q.action ≠ .sendShutdown := by
  rw [Inquiry.action]
  split
  · exact Action.noConfusion
  · exact Action.noConfusion

theorem Schedule.line_requests (h : Schedule settings t s log standing) :
    s.requests.line = [] := by
  induction h with
  | new => rfl
  | turn before owner step ih =>
      refine (Step.of_step step).line_requests before.run ih ?_
      rintro rfl
      exact nomatch owner
  | handOver before _ step ih => exact (Step.of_step step).line_requests before.run ih nofun
  | lineUp before step ih => exact (Step.of_step step).line_requests before.run ih nofun
  | stayInLine before step ih => exact (Step.of_step step).line_requests before.run ih nofun
  | getIn before _ step ih => exact (Step.of_step step).line_requests before.run ih nofun
  | ask before step ih =>
      exact (Step.of_step step).line_requests before.run ih (Inquiry.action_ne_sendShutdown _)
  | refused before step ih =>
      exact (Step.of_step step).line_requests before.run ih (Inquiry.action_ne_sendShutdown _)
  | answered before step ih => exact (Step.of_step step).line_requests before.run ih nofun
  | dropped before step ih => exact (Step.of_step step).line_requests before.run ih nofun

/-! ## A store with one call -/

theorem call?_of_calls {c : Call} (h : s.calls = [(id, c)]) : s.call? id = some c := by
  rw [System.call?, h]
  exact List.lookup_cons_self

theorem isWaiting_of_calls (h : s.calls = [(id, .waiting)]) : s.isWaiting id = true :=
  isWaiting_iff.mpr (call?_of_calls h)

/-! ## A store against a plain list -/

/-- Nothing of the client is under way, and the store holds what the list
    does. -/
structure Idle (clock : Nat → Timestamp) (l : Listing) (s : System) : Prop where
  owner : s.owner = .notStarted ∨ s.owner = .ready
  calls : s.calls = []
  requests : s.requests.contents = []
  contents : s.contents clock = l

/-- One call is under way, asked when the store held what the list does. -/
inductive Progress (settings : StoreSettings) (clock : Nat → Timestamp) (l : Listing) (id : Nat)
    (d : Demand) (s : System) : Prop where
  | queued (owner : s.owner = .notStarted ∨ s.owner = .ready) (calls : s.calls = [(id, .waiting)])
      (requests : s.requests.contents = [.demand id d]) (contents : s.contents clock = l)
  | draining {left : Nat} (owner : s.owner = .draining left id d)
      (calls : s.calls = [(id, .waiting)]) (requests : s.requests.contents = [])
      (records : s.records.contents.length ≤ left) (contents : s.contents clock = l)
  | answered (owner : s.owner = .ready)
      (calls : s.calls
        = [(id, .answered (l.reply settings.capacity settings.maxResults d))])
      (requests : s.requests.contents = []) (contents : s.contents clock = l.after d)

/-- The store as the client knows it, against the list on which its steps
    were done. -/
inductive Stands (settings : StoreSettings) (clock : Nat → Timestamp) (t : Trace) (l : Listing)
    (s : System) : Standing → Prop where
  | free (idle : Idle clock l s) : Stands settings clock t l s .free
  | inLine {id : Nat} {r : Record} (idle : Idle clock l s) (begun : (id, .send r) ∈ t.begun) :
      Stands settings clock t l s (.inLine id r)
  | calling {id : Nat} {q : Inquiry} {d : Demand} (demand : q.demand = .ok d)
      (progress : Progress settings clock l id d s) :
      Stands settings clock t l s (.calling id q)

theorem Idle.running (i : Idle clock l s) : s.owner ≠ .stopped := by
  rcases i.owner with h | h
  · rw [h]
    exact nofun
  · rw [h]
    exact nofun

theorem Idle.new (settings : StoreSettings) (clock : Nat → Timestamp) :
    Idle clock .new (System.new settings) := ⟨Or.inl rfl, rfl, rfl, rfl⟩

/-! ## Turns of the owner -/

/-- The owner's own turns leave an idle store idle. -/
theorem Idle.turn (i : Idle clock l s) (run : Run settings t s) (h : Step s a s' e)
    (owner : a.isTurn = true) (shows : Trace.Shows (t ++ [(a, e)]) clock) : Idle clock l s' := by
  have hsame (running : s'.owner ≠ .stopped) (none : e.changer? = none) : s'.contents clock = l :=
    (h.contents_eq run shows running none).trans i.contents
  -- there is no request to be taken or served
  have htake {q : Request} {requests : Mailbox Request}
      (take : s.requests.take? = some (q, requests)) : False := by
    have hcontents := Mailbox.contents_of_take? take
    rw [i.requests] at hcontents
    exact nomatch hcontents
  have hdrain {left id : Nat} {d : Demand} (drains : s.owner = .draining left id d) : False := by
    rcases i.owner with h | h
    · exact nomatch h.symm.trans drains
    · exact nomatch h.symm.trans drains
  cases h with
  | start => exact ⟨Or.inr rfl, i.calls, i.requests, hsame nofun rfl⟩
  | takeRecord ready => exact ⟨Or.inr ready, i.calls, i.requests, hsame i.running rfl⟩
  | takeShutdown _ take => exact (htake take).elim
  | takeDemand _ take => exact (htake take).elim
  | drainRecord drains => exact (hdrain drains).elim
  | serve drains => exact (hdrain drains).elim
  | skip drains => exact (hdrain drains).elim
  | _ => exact nomatch owner

/-- They bring an open call on, and change nothing that it asks for. -/
theorem Progress.turn (p : Progress settings clock l id d s) (run : Run settings t s)
    (h : Step s a s' e) (owner : a.isTurn = true) (shows : Trace.Shows (t ++ [(a, e)]) clock) :
    Progress settings clock l id d s' := by
  have hsame (running : s'.owner ≠ .stopped) (none : e.changer? = none) :
      s'.contents clock = s.contents clock := h.contents_eq run shows running none
  cases p with
  | queued ready calls requests contents =>
      cases h with
      | start => exact .queued (Or.inr rfl) calls requests ((hsame nofun rfl).trans contents)
      | takeRecord other =>
          refine .queued (Or.inr other) calls requests ((hsame ?_ rfl).trans contents)
          show s.owner ≠ .stopped
          rw [other]
          exact nofun
      | takeShutdown _ take =>
          have htaken := Mailbox.contents_of_take? take
          rw [requests] at htaken
          exact nomatch htaken
      | takeDemand _ take =>
          -- the drain may take in as many records as the mailbox can hold
          have htaken := Mailbox.contents_of_take? take
          rw [requests] at htaken
          obtain ⟨heq, hrest⟩ := List.cons_eq_cons.mp htaken
          obtain ⟨rfl, rfl⟩ := Request.demand.inj heq
          exact .draining rfl calls hrest.symm (Mailbox.length_contents_le run.ledger.sound)
            ((hsame nofun rfl).trans contents)
      | drainRecord drains => rcases ready with h | h <;> exact nomatch h.symm.trans drains
      | serve drains => rcases ready with h | h <;> exact nomatch h.symm.trans drains
      | skip drains => rcases ready with h | h <;> exact nomatch h.symm.trans drains
      | _ => exact nomatch owner
  | draining drains calls requests records contents =>
      cases h with
      | start other => exact nomatch drains.symm.trans other
      | takeRecord other => exact nomatch drains.symm.trans other
      | takeShutdown other => exact nomatch drains.symm.trans other
      | takeDemand other => exact nomatch drains.symm.trans other
      | drainRecord same take =>
          obtain ⟨rfl, rfl, rfl⟩ := Owner.draining.inj (drains.symm.trans same)
          rw [Mailbox.contents_of_take? take, List.length_cons] at records
          exact .draining rfl calls requests (Nat.le_of_succ_le_succ records)
            ((hsame nofun rfl).trans contents)
      | serve same drained =>
          obtain ⟨rfl, rfl, rfl⟩ := Owner.draining.inj (drains.symm.trans same)
          -- the drain is over, so every record is in the buffer
          have hempty : s.records.contents = [] := by
            refine List.length_eq_zero_iff.mp ?_
            rw [Mailbox.size_queue] at drained
            omega
          have hlisting : s.buffer.listing = l :=
            (System.contents_of_drained clock hempty).symm.trans contents
          have hreply : s.buffer.reply s.settings.maxResults d
              = l.reply settings.capacity settings.maxResults d := by
            rw [Buffer.reply_eq, run.capacity_eq, run.settings_eq, hlisting]
          refine .answered rfl ?_ requests ?_
          · show s.calls.map _ = _
            rw [calls, ← hreply]
            simp
          · refine Eq.trans (System.contents_of_drained clock hempty) ?_
            rw [← hlisting]
            exact Buffer.listing_after _ d
      | skip same _ gone =>
          obtain ⟨-, rfl, -⟩ := Owner.draining.inj (drains.symm.trans same)
          exact nomatch (isWaiting_of_calls calls).symm.trans gone
      | _ => exact nomatch owner
  | answered ready calls requests contents =>
      cases h with
      | start other => exact nomatch ready.symm.trans other
      | takeRecord =>
          refine .answered ready calls requests ((hsame ?_ rfl).trans contents)
          show s.owner ≠ .stopped
          rw [ready]
          exact nofun
      | takeShutdown _ take =>
          have htaken := Mailbox.contents_of_take? take
          rw [requests] at htaken
          exact nomatch htaken
      | takeDemand _ take =>
          have htaken := Mailbox.contents_of_take? take
          rw [requests] at htaken
          exact nomatch htaken
      | drainRecord other => exact nomatch ready.symm.trans other
      | serve other => exact nomatch ready.symm.trans other
      | skip other => exact nomatch ready.symm.trans other
      | _ => exact nomatch owner

/-! ## Actions of the client -/

/-- A client that sends a record disturbs nothing else. -/
theorem Step.frame_of_sent {sent : Sent} (h : Step s a s' (.recordSent id sent)) :
    s'.owner = s.owner ∧ s'.calls = s.calls ∧ s'.requests = s.requests := by
  cases h with
  | send => exact ⟨rfl, rfl, rfl⟩
  | resumeSend => exact ⟨rfl, rfl, rfl⟩

theorem Idle.waits (i : Idle clock l s) (run : Run settings t s)
    (h : Step s a s' (.recordSent id .waits))
    (shows : Trace.Shows (t ++ [(a, .recordSent id .waits)]) clock) : Idle clock l s' := by
  obtain ⟨howner, hcalls, hrequests⟩ := h.frame_of_sent
  refine ⟨by rw [howner]; exact i.owner, hcalls.trans i.calls, ?_, ?_⟩
  · rw [hrequests, i.requests]
  · exact (h.contents_eq run shows (by rw [howner]; exact i.running) rfl).trans i.contents

/-- When the handing over of a record comes back, the record is in. -/
theorem Idle.ingest (i : Idle clock l s) (run : Run settings t s) {sent : Sent} {r : Record}
    (h : Step s a s' (.recordSent id sent)) (ended : sent ≠ .waits)
    (shows : Trace.Shows (t ++ [(a, .recordSent id sent)]) clock)
    (record : ∀ r', a = .send r' ∨ a = .resumeSend id ∧ (id, r') ∈ s.records.line → r' = r) :
    Idle clock (l.ingest settings.capacity clock r) s' := by
  obtain ⟨howner, hcalls, hrequests⟩ := h.frame_of_sent
  have hrunning : s'.owner ≠ .stopped := by
    rw [howner]
    exact i.running
  refine ⟨by rw [howner]; exact i.owner, hcalls.trans i.calls, by rw [hrequests, i.requests], ?_⟩
  obtain rfl := h.accepted run i.running ended
  rw [← i.contents, ← run.settings_eq]
  cases h.contents run shows hrunning with
  | none changer => exact nomatch changer
  | send contents => rw [contents, record _ (Or.inl rfl)]
  | resume line contents => rw [contents, record _ (Or.inr ⟨rfl, line⟩)]

/-- A call that joins the mailbox is under way. -/
theorem Idle.ask (i : Idle clock l s) (run : Run settings t s) {q : Inquiry}
    (h : Step s q.action s' (.queued id d))
    (shows : Trace.Shows (t ++ [(q.action, .queued id d)]) clock) :
    q.demand = .ok d ∧ Progress settings clock l id d s' := by
  have hsame (running : s'.owner ≠ .stopped) : s'.contents clock = l :=
    (h.contents_eq run shows running rfl).trans i.contents
  generalize haction : q.action = action at h
  cases h with
  | askQueued =>
      refine ⟨Inquiry.demand_of_action_ask haction, .queued i.owner ?_ ?_ (hsame i.running)⟩
      · show s.calls ++ _ = _
        rw [i.calls]
        rfl
      · show (s.requests.push _).contents = _
        rw [Mailbox.contents_push, i.requests]
        rfl

/-- A call is refused only if it cannot be understood: the mailbox is open,
    and it has room as nothing of the client is under way. -/
theorem Idle.refused (i : Idle clock l s) (run : Run settings t s) (line : s.requests.line = [])
    {q : Inquiry} {error : StoreError} (h : Step s q.action s' (.refused id error))
    (shows : Trace.Shows (t ++ [(q.action, .refused id error)]) clock) :
    (∃ e, q.demand = .error e ∧ error = .invalidRange e) ∧ Idle clock l s' := by
  have hsame (running : s'.owner ≠ .stopped) : s'.contents clock = l :=
    (h.contents_eq run shows running rfl).trans i.contents
  obtain ⟨-, hopen⟩ := run.open_mailboxes i.running
  have hroom : s.requests.hasRoom = true := by
    refine Mailbox.hasRoom_of_empty i.requests line ?_
    rw [run.inbox.limit]
    omega
  generalize haction : q.action = action at h
  cases h with
  | askClosed closed => exact nomatch hopen.symm.trans closed
  | askOverloaded _ room => exact nomatch hroom.symm.trans room
  | refuse =>
      exact ⟨⟨_, Inquiry.demand_of_action_refuse haction, rfl⟩,
        i.owner, i.calls, i.requests, hsame i.running⟩

/-- A call comes back with the answer of the list. -/
theorem Progress.collect (p : Progress settings clock l id d s) (run : Run settings t s)
    {reply : Option Reply} (h : Step s (.collect id) s' (.returned id reply))
    (shows : Trace.Shows (t ++ [(.collect id, .returned id reply)]) clock) :
    reply = some (l.reply settings.capacity settings.maxResults d)
      ∧ Idle clock (l.after d) s' := by
  have hsame (running : s'.owner ≠ .stopped) : s'.contents clock = s.contents clock :=
    h.contents_eq run shows running rfl
  cases p with
  | queued _ calls =>
      cases h with
      | collectReply call => exact nomatch (call?_of_calls calls).symm.trans call
      | collectNone call => exact nomatch (call?_of_calls calls).symm.trans call
  | draining _ calls =>
      cases h with
      | collectReply call => exact nomatch (call?_of_calls calls).symm.trans call
      | collectNone call => exact nomatch (call?_of_calls calls).symm.trans call
  | answered ready calls requests contents =>
      cases h with
      | collectReply call =>
          obtain rfl := Call.answered.inj (Option.some.inj ((call?_of_calls calls).symm.trans call))
          refine ⟨rfl, Or.inr ready, ?_, requests, ?_⟩
          · show s.calls.filter _ = []
            rw [calls]
            simp
          · refine (hsame ?_).trans contents
            show s.owner ≠ .stopped
            rw [ready]
            exact nofun
      | collectNone call => exact nomatch (call?_of_calls calls).symm.trans call

/-! ## Every schedule -/

/-- The steps that have come back were answered as by the plain list, and the
    store stands where the list does. -/
structure Follows (settings : StoreSettings) (clock : Nat → Timestamp) (t : Trace) (log : Log)
    (s : System) (standing : Standing) : Prop where
  answers : log.map Prod.snd = Listing.answers settings clock .new (log.map Prod.fst)
  stands : Stands settings clock t (Listing.performAll settings clock .new (log.map Prod.fst)) s
    standing

/-- A step that comes back with the answer of the list, and leaves the store
    where it leaves the list. -/
theorem Follows.comeBack {step : ClientStep} {answer : Answer}
    (answers : log.map Prod.snd = Listing.answers settings clock .new (log.map Prod.fst))
    (answer_eq : answer = ((Listing.performAll settings clock .new (log.map Prod.fst)).perform
      settings clock step).2)
    (idle : Idle clock ((Listing.performAll settings clock .new (log.map Prod.fst)).perform
      settings clock step).1 s) :
    Follows settings clock t (log ++ [(step, answer)]) s .free := by
  constructor
  · rw [List.map_append, List.map_append, List.map_singleton, List.map_singleton,
      Listing.answers_concat, answers, answer_eq]
  · rw [List.map_append, List.map_singleton, Listing.performAll_concat]
    exact .free idle

/-- Whatever the schedule, the store follows the plain list. -/
theorem Schedule.follows (h : Schedule settings t s log standing) (shows : t.Shows clock) :
    Follows settings clock t log s standing := by
  induction h with
  | new => exact ⟨rfl, .free (.new settings clock)⟩
  | turn before owner step ih =>
      obtain ⟨hanswers, hstands⟩ := ih shows.front
      refine ⟨hanswers, ?_⟩
      cases hstands with
      | free idle => exact .free (idle.turn before.run (.of_step step) owner shows)
      | inLine idle begun =>
          exact .inLine (idle.turn before.run (.of_step step) owner shows)
            (Trace.mem_begun_append begun _)
      | calling demand progress =>
          exact .calling demand (progress.turn before.run (.of_step step) owner shows)
  | handOver before ended step ih =>
      obtain ⟨hanswers, ⟨idle⟩⟩ := ih shows.front
      refine .comeBack hanswers rfl (idle.ingest before.run (.of_step step) ended shows ?_)
      rintro r' (hsend | ⟨hresume, -⟩)
      · exact (Action.send.inj hsend).symm
      · exact nomatch hresume
  | lineUp before step ih =>
      obtain ⟨hanswers, ⟨idle⟩⟩ := ih shows.front
      refine ⟨hanswers, .inLine (idle.waits before.run (.of_step step) shows) ?_⟩
      rw [Trace.begun_concat]
      exact List.mem_append_right _ List.mem_cons_self
  | stayInLine before step ih =>
      obtain ⟨hanswers, hstands⟩ := ih shows.front
      cases hstands with
      | inLine idle begun =>
          exact ⟨hanswers, .inLine (idle.waits before.run (.of_step step) shows)
            (Trace.mem_begun_append begun _)⟩
  | getIn before ended step ih =>
      obtain ⟨hanswers, hstands⟩ := ih shows.front
      cases hstands with
      | inLine idle begun =>
          refine .comeBack hanswers rfl (idle.ingest before.run (.of_step step) ended shows ?_)
          rintro r' (hsend | ⟨-, hline⟩)
          · exact nomatch hsend
          · -- whoever stands in line under the number began to send this record
            have hbegun := before.run.ledger.line_begun _ hline
            exact Action.send.inj (before.run.begun_unique hbegun begun)
  | ask before step ih =>
      obtain ⟨hanswers, ⟨idle⟩⟩ := ih shows.front
      obtain ⟨hdemand, hprogress⟩ := idle.ask before.run (.of_step step) shows
      exact ⟨hanswers, .calling hdemand hprogress⟩
  | refused before step ih =>
      obtain ⟨hanswers, ⟨idle⟩⟩ := ih shows.front
      obtain ⟨⟨e, hdemand, rfl⟩, hidle⟩ :=
        idle.refused before.run before.line_requests (.of_step step) shows
      refine .comeBack hanswers ?_ ?_
      · rw [Listing.perform, hdemand]
      · rw [Listing.perform, hdemand]
        exact hidle
  | answered before step ih =>
      obtain ⟨hanswers, hstands⟩ := ih shows.front
      cases hstands with
      | calling demand progress =>
          obtain ⟨hreply, hidle⟩ := progress.collect before.run (.of_step step) shows
          refine .comeBack hanswers ?_ ?_
          · rw [Listing.perform, demand, Option.some.inj hreply]
          · rw [Listing.perform, demand]
            exact hidle
  | dropped before step ih =>
      obtain ⟨-, hstands⟩ := ih shows.front
      cases hstands with
      | calling demand progress =>
          exact nomatch (progress.collect before.run (.of_step step) shows).1

/-! ## There are schedules -/

/-- The owner has nothing to do, and nobody waits for a slot. -/
structure Rested (s : System) : Prop where
  owner : s.owner = .ready
  records : s.records.contents = []
  line : s.records.line = []

/-- A record goes into an empty mailbox at once, and the owner takes it in. -/
theorem Rested.ingests (h : Rested s) (run : Run settings t s) (r : Record) :
    ∃ s₁ s₂ e, s.step (.send r) = some (s₁, .recordSent s.next .accepted)
      ∧ s₁.step (.takeRecord ⟨0, 0⟩) = some (s₂, e) ∧ Rested s₂ := by
  have hrunning : s.owner ≠ .stopped := by
    rw [h.owner]
    exact nofun
  have hroom : s.records.hasRoom = true := by
    refine Mailbox.hasRoom_of_empty h.records h.line ?_
    rw [run.ledger.limit]
    omega
  have hcontents : (s.records.push r).contents = [r] := by
    rw [Mailbox.contents_push, h.records]
    rfl
  obtain ⟨records, htake, hempty⟩ := Mailbox.take?_of_contents hcontents
  have hline : records.line = [] := (Mailbox.line_of_take? htake).trans h.line
  have hturn := @Step.takeRecord { s with records := s.records.push r }.numberTaken ⟨0, 0⟩ r
    records h.owner htake
  exact ⟨_, _, _, run.accepts hrunning hroom r, hturn.step_eq, h.owner, hempty, hline⟩

/-- A call that can be understood joins an empty mailbox. -/
theorem exists_asked {q : Inquiry} (demand : q.demand = .ok d)
    (open_ : s.requests.closed = false) (room : s.requests.hasRoom = true) (calls : s.calls = [])
    (requests : s.requests.contents = []) :
    ∃ s', s.step q.action = some (s', .queued s.next d) ∧ s'.owner = s.owner
      ∧ s'.calls = [(s.next, .waiting)] ∧ s'.requests.contents = [.demand s.next d]
      ∧ s'.records = s.records := by
  refine ⟨s.enqueue d, ?_, rfl, ?_, ?_, rfl⟩
  · rw [Inquiry.action_of_demand_ok demand]
    exact (Step.askQueued open_ room).step_eq
  · show s.calls ++ _ = _
    rw [calls]
    rfl
  · show (s.requests.push _).contents = _
    rw [Mailbox.contents_push, requests]
    rfl

/-- The owner takes the one request there is. -/
theorem exists_taken (owner : s.owner = .ready) (requests : s.requests.contents = [.demand id d]) :
    ∃ s' left, s.step .takeRequest = some (s', .taken id) ∧ s'.owner = .draining left id d
      ∧ s'.calls = s.calls ∧ s'.records = s.records := by
  obtain ⟨rest, htake, -⟩ := Mailbox.take?_of_contents requests
  exact ⟨_, _, (Step.takeDemand owner htake).step_eq, rfl, rfl, rfl⟩

/-- The owner serves the one call there is, when no record waits. -/
theorem exists_served {left : Nat} (owner : s.owner = .draining left id d)
    (records : s.records.contents = []) (calls : s.calls = [(id, .waiting)]) :
    ∃ s' reply, s.step .serve = some (s', .served id d reply) ∧ s'.owner = .ready
      ∧ s'.calls = [(id, .answered reply)] ∧ s'.records = s.records := by
  have hsize : s.records.queue.size = 0 := by
    rw [Mailbox.size_queue, records]
    rfl
  have hserve := Step.serve owner (Or.inr hsize) (isWaiting_of_calls calls)
  refine ⟨_, _, hserve.step_eq, rfl, ?_, rfl⟩
  show s.calls.map _ = _
  rw [calls]
  simp

/-- A client fetches the answer to its one call. -/
theorem exists_collected {reply : Reply} (calls : s.calls = [(id, .answered reply)]) :
    ∃ s', s.step (.collect id) = some (s', .returned id (some reply)) ∧ s'.owner = s.owner
      ∧ s'.records = s.records :=
  ⟨_, (Step.collectReply (call?_of_calls calls)).step_eq, rfl, rfl⟩

/-- A call is carried out if the owner takes its turns at once. -/
theorem Schedule.calls (h : Schedule settings t s log .free) (rested : Rested s) (q : Inquiry) :
    ∃ t' s' answer, Schedule settings t' s' (log ++ [(.call q, answer)]) .free ∧ Rested s' := by
  obtain ⟨-, ⟨idle⟩⟩ := h.follows h.run.shows_arrival
  cases hdemand : q.demand with
  | error e =>
      have hrefused : s.step q.action
          = some (s.numberTaken, .refused s.next (.invalidRange e)) := by
        rw [Inquiry.action_of_demand_error hdemand]
        rfl
      exact ⟨_, _, _, h.refused hrefused, rested.owner, rested.records, rested.line⟩
  | ok d =>
      obtain ⟨-, hopen⟩ := h.run.open_mailboxes idle.running
      have hroom : s.requests.hasRoom = true := by
        refine Mailbox.hasRoom_of_empty idle.requests h.line_requests ?_
        rw [h.run.inbox.limit]
        omega
      obtain ⟨s₁, hasked, howner₁, hcalls₁, hrequests₁, hrecords₁⟩ :=
        exists_asked hdemand hopen hroom idle.calls idle.requests
      obtain ⟨s₂, left, htaken, howner₂, hcalls₂, hrecords₂⟩ :=
        exists_taken (howner₁.trans rested.owner) hrequests₁
      have hrecords : s₂.records = s.records := hrecords₂.trans hrecords₁
      obtain ⟨s₃, reply, hserved, howner₃, hcalls₃, hrecords₃⟩ :=
        exists_served howner₂ (by rw [hrecords]; exact rested.records) (hcalls₂.trans hcalls₁)
      obtain ⟨s₄, hcollected, howner₄, hrecords₄⟩ := exists_collected hcalls₃
      have hsame : s₄.records = s.records := (hrecords₄.trans hrecords₃).trans hrecords
      have hwaits := ((h.ask hasked).turn rfl htaken).turn rfl hserved
      exact ⟨_, s₄, _, hwaits.answered hcollected, howner₄.trans howner₃,
        by rw [hsame]; exact rested.records, by rw [hsame]; exact rested.line⟩

/-- A step of the client is carried out if the owner takes its turns at
    once. -/
theorem Schedule.extend (h : Schedule settings t s log .free) (rested : Rested s)
    (step : ClientStep) : ∃ t' s' answer,
      Schedule settings t' s' (log ++ [(step, answer)]) .free ∧ Rested s' := by
  cases step with
  | ingest r =>
      obtain ⟨s₁, s₂, e, hsent, htaken, hrested⟩ := rested.ingests h.run r
      have hover : Sent.accepted ≠ .waits := nofun
      exact ⟨_, s₂, _, (h.handOver hover hsent).turn rfl htaken, hrested⟩
  | call q => exact h.calls rested q

/-- Whatever steps a client wants to take, they can be carried out. -/
theorem exists_schedule (settings : StoreSettings) (steps : List ClientStep) :
    ∃ t s log, Schedule settings t s log .free ∧ log.map Prod.fst = steps := by
  have hrested : ∃ t s log, Schedule settings t s log .free ∧ Rested s
      ∧ log.map Prod.fst = steps := by
    induction steps using List.reverseRecOn with
    | nil =>
        have hstart := (Step.start (s := System.new settings) rfl).step_eq
        exact ⟨_, _, [], Schedule.new.turn rfl hstart, ⟨rfl, rfl, rfl⟩, rfl⟩
    | append_singleton steps step ih =>
        obtain ⟨t, s, log, hschedule, hrested, rfl⟩ := ih
        obtain ⟨t', s', answer, hschedule', hrested'⟩ := hschedule.extend hrested step
        exact ⟨t', s', _, hschedule', hrested', by simp⟩
  obtain ⟨t, s, log, hschedule, -, hsteps⟩ := hrested
  exact ⟨t, s, log, hschedule, hsteps⟩

/-- **ANSWERS DO NOT DEPEND ON THE SCHEDULER**: whatever turns the owner
    takes between the actions of a client, the steps that have come back were
    answered as the plain machine answers them, on which each step is done at
    once; the time of a message is what the clock showed when its record came
    in. Two schedules of the same steps give the same answers, but for the
    times of arrival, and with these if the clock showed the same times. No
    step is turned away as too much. -/
theorem answers_independent_of_schedule (h : Schedule settings t s log standing) :
    (∀ clock : Nat → Timestamp, t.Shows clock →
        log.map Prod.snd = Listing.answers settings clock .new (log.map Prod.fst))
      ∧ (∃ clock : Nat → Timestamp, t.Shows clock)
      ∧ (∀ (t' : Trace) (s' : System) (log' : Log) (standing' : Standing),
          Schedule settings t' s' log' standing' → log'.map Prod.fst = log.map Prod.fst →
          log'.map (fun x => x.2.timeless) = log.map (fun x => x.2.timeless)
          ∧ ∀ clock : Nat → Timestamp, t.Shows clock → t'.Shows clock → log' = log)
      ∧ ∀ x ∈ log, x.2 ≠ .came (.error .overloaded) := by
  have hanswers (clock : Nat → Timestamp) (shows : t.Shows clock) := (h.follows shows).answers
  refine ⟨hanswers, ⟨_, h.run.shows_arrival⟩, ?_, ?_⟩
  · intro t' s' log' standing' h' hsteps
    constructor
    · have htimeless {t : Trace} {s : System} {log : Log} {standing : Standing}
          (h : Schedule settings t s log standing) : log.map (fun x => x.2.timeless)
            = Listing.answers settings Listing.noClock .new (log.map Prod.fst) := by
        have hmap := Listing.map_timeless_answers settings t.arrival .new (log.map Prod.fst)
        rw [← (h.follows h.run.shows_arrival).answers, List.map_map] at hmap
        exact hmap
      rw [htimeless h', htimeless h, hsteps]
    · intro clock shows shows'
      have hsame : log'.map Prod.snd = log.map Prod.snd := by
        rw [(h'.follows shows').answers, hanswers clock shows, hsteps]
      exact (List.zip_of_prod hsteps hsame).trans (List.zip_of_prod rfl rfl).symm
  · intro x hx heq
    have hmem : x.2 ∈ Listing.answers settings t.arrival .new (log.map Prod.fst) := by
      rw [← hanswers _ h.run.shows_arrival]
      exact List.mem_map.mpr ⟨x, hx, rfl⟩
    rw [heq] at hmem
    exact Listing.overloaded_notMem_answers settings t.arrival .new _ hmem

/-- Two records are handed over, and everything is dumped. -/
def dumping : List ClientStep := [.ingest (plain [1]), .ingest (plain [2]), .call .dump]

/-- The owner takes in each record as it comes. -/
theorem dumping_early : ∃ t s log, Schedule crowded t s log .free
    ∧ log.map Prod.fst = dumping ∧ t.numbered.map Message.receivedAt = [⟨0, 0⟩, ⟨1, 0⟩] := by
  have hover : Sent.accepted ≠ .waits := nofun
  have h₀ : Schedule crowded [] (System.new crowded) [] .free := .new
  have h₁ := h₀.turn (a := .start) rfl rfl
  have h₂ := (h₁.handOver (r := plain [1]) hover rfl).turn (a := .takeRecord ⟨0, 0⟩) rfl rfl
  have h₃ := (h₂.handOver (r := plain [2]) hover rfl).turn (a := .takeRecord ⟨1, 0⟩) rfl rfl
  have h₄ := (h₃.ask (q := .dump) rfl).turn (a := .takeRequest) rfl rfl
  have h₅ := (h₄.turn (a := .serve) rfl rfl).answered rfl
  exact ⟨_, _, _, h₅, rfl, rfl⟩

/-- The second record has to wait for the owner to start, and comes in on the
    way to the request. -/
theorem dumping_late : ∃ t s log, Schedule crowded t s log .free
    ∧ log.map Prod.fst = dumping ∧ t.numbered.map Message.receivedAt = [⟨7, 0⟩, ⟨9, 0⟩] := by
  have hover : Sent.accepted ≠ .waits := nofun
  have h₀ : Schedule crowded [] (System.new crowded) [] .free := .new
  have h₁ := h₀.handOver (r := plain [1]) hover rfl
  have h₂ := (h₁.lineUp (r := plain [2]) rfl).turn (a := .start) rfl rfl
  have h₃ := (h₂.turn (a := .takeRecord ⟨7, 0⟩) rfl rfl).getIn hover rfl
  have h₄ := (h₃.ask (q := .dump) rfl).turn (a := .takeRequest) rfl rfl
  have h₅ := h₄.turn (a := .drainRecord ⟨9, 0⟩) rfl rfl
  have h₆ := (h₅.turn (a := .serve) rfl rfl).answered rfl
  exact ⟨_, _, _, h₆, rfl, rfl⟩

/-- Two schedules of one client, with different times of arrival and the same
    answers. -/
theorem answers_independent_of_schedule_dumping :
    ∃ t s log t' s' log', Schedule crowded t s log .free ∧ Schedule crowded t' s' log' .free
      ∧ log.map Prod.fst = dumping ∧ log'.map Prod.fst = dumping
      ∧ t.numbered.map Message.receivedAt = [⟨0, 0⟩, ⟨1, 0⟩]
      ∧ t'.numbered.map Message.receivedAt = [⟨7, 0⟩, ⟨9, 0⟩]
      ∧ log'.map (fun x => x.2.timeless) = log.map (fun x => x.2.timeless)
      ∧ ∀ x ∈ log, x.2 ≠ .came (.error .overloaded) := by
  obtain ⟨t, s, log, early, hsteps, htimes⟩ := dumping_early
  obtain ⟨t', s', log', late, hsteps', htimes'⟩ := dumping_late
  obtain ⟨-, -, hsame, hroom⟩ := answers_independent_of_schedule early
  have hanswers := (hsame t' s' log' .free late (hsteps'.trans hsteps.symm)).1
  exact ⟨t, s, log, t', s', log', early, late, hsteps, hsteps', htimes, htimes', hanswers, hroom⟩

end Store

end BusWindow
