import BusWindow.Proofs.Intake

/-!
# Visibility — what a request sees of the records sent before it

    A request joins its mailbox, is taken by the owner, and is served after a
    drain of the records that wait. `Inbox` says that every request in the
    mailbox was asked, and `Drain` counts how far the drain has come against
    what had been sent when the request was taken. The drain may take in as
    many records as the mailbox holds, so whatever had been sent by then has
    its number before the request is served, however fast the publishers
    fill the mailbox up again.

    * `Run.inbox` and `Run.drain` hold of every run, by one lemma for a step
      each;
    * `sent_records_are_visible` is the whole statement.
-/

namespace BusWindow.Store

variable {settings : StoreSettings} {t t' : Trace} {s s' : System} {a : Action} {e : Event}

/-! ## The mailbox for requests -/

/-- What a step can do to the mailbox for requests. -/
inductive Posting (s s' : System) : Action → Event → Prop where
  | quiet {a : Action} {e : Event} (requests : s'.requests = s.requests) : Posting s s' a e
  | take {id : Nat} {d : Demand} (take : s.requests.take? = some (.demand id d, s'.requests)) :
      Posting s s' .takeRequest (.taken id)
  | ask {d : Demand} (room : s.requests.hasRoom = true)
      (requests : s'.requests = s.requests.push (.demand s.next d)) :
      Posting s s' (.ask d) (.queued s.next d)
  | send (requests : s'.requests = (s.requests.send s.next .shutdown).1) :
      Posting s s' .sendShutdown (.shutdownSent s.next (s.requests.send s.next .shutdown).2)
  | resume {id : Nat} (requests : s'.requests = (s.requests.resume id).1) :
      Posting s s' (.resumeShutdown id) (.shutdownSent id (s.requests.resume id).2)
  | withdraw {id : Nat} (requests : s'.requests = s.requests.withdraw id) :
      Posting s s' (.withdrawShutdown id) (.withdrawn id)
  | close {a : Action} {m : Mailbox Request} (limit : m.limit = s.requests.limit)
      (requests : s'.requests = m.close) : Posting s s' a .ownerStopped

theorem Step.posting (h : Step s a s' e) : Posting s s' a e := by
  cases h with
  | discard => exact .close rfl rfl
  | abort => exact .close rfl rfl
  | takeShutdown owner take => exact .close (Mailbox.limit_of_take? take) rfl
  | takeDemand owner take => exact .take take
  | askQueued closed room => exact .ask room rfl
  | sendShutdown => exact .send rfl
  | resumeShutdown => exact .resume rfl
  | withdrawShutdown => exact .withdraw rfl
  | _ => exact .quiet rfl

/-- The mailbox for requests, told against the trace that led to it: only
    shutdowns stand in line, and every demand was asked. -/
structure Inbox (settings : StoreSettings) (t : Trace) (s : System) : Prop where
  sound : s.requests.Sound
  limit : s.requests.limit = max settings.requestQueue 1
  line_begun : ∀ p ∈ s.requests.line, p.2 = .shutdown ∧ (p.1, Action.sendShutdown) ∈ t.begun
  asked : ∀ id d, .demand id d ∈ s.requests.contents → (Action.ask d, Event.queued id d) ∈ t

namespace Inbox

theorem new (settings : StoreSettings) : Inbox settings [] (System.new settings) where
  sound := Mailbox.sound_empty _
  limit := rfl
  line_begun := by intro p hp; exact nomatch hp
  asked := by intro id d hd; exact nomatch hd

/-- A step keeps the inbox if whatever it adds was begun or asked, the line
    taking shutdowns only. -/
theorem concat (i : Inbox settings t s) (x : Action × Event) (sound : s'.requests.Sound)
    (limit : s'.requests.limit = s.requests.limit)
    (line : ∀ p ∈ s'.requests.line, p ∈ s.requests.line
      ∨ p.2 = .shutdown ∧ (p.1, Action.sendShutdown) ∈ Trace.begun (t ++ [x]))
    (contents : ∀ q ∈ s'.requests.contents, q ∈ s.requests.contents
      ∨ q = .shutdown ∨ ∃ id d, q = .demand id d ∧ x = (.ask d, .queued id d)) :
    Inbox settings (t ++ [x]) s' where
  sound := sound
  limit := limit.trans i.limit
  line_begun := by
    intro p hp
    rcases line p hp with hold | hnew
    · obtain ⟨hshutdown, hbegun⟩ := i.line_begun p hold
      exact ⟨hshutdown, Trace.mem_begun_append hbegun _⟩
    · exact hnew
  asked := by
    intro id d hd
    rcases contents _ hd with hold | hshutdown | ⟨id', d', heq, rfl⟩
    · exact List.mem_append_left _ (i.asked id d hold)
    · exact nomatch hshutdown
    · obtain ⟨rfl, rfl⟩ := Request.demand.inj heq
      exact List.mem_append_right _ List.mem_cons_self

theorem concat_send (i : Inbox settings t s) (run : Run settings t s)
    (requests : s'.requests = (s.requests.send s.next .shutdown).1) (sent : Sent) :
    Inbox settings (t ++ [(.sendShutdown, .shutdownSent s.next sent)]) s' := by
  have hfresh : s.next ∉ s.requests.line.map Prod.fst := by
    intro hmem
    obtain ⟨p, hp, heq⟩ := List.mem_map.mp hmem
    have hlt := run.lt_next (i.line_begun p hp).2
    exact Nat.ne_of_lt hlt heq
  refine i.concat _ ?_ ?_ ?_ ?_
  · rw [requests]
    exact i.sound.send hfresh _
  · rw [requests]
    exact Mailbox.limit_send _ _ _
  · rw [requests]
    intro p hp
    rcases Mailbox.mem_line_send hp with hold | rfl
    · exact Or.inl hold
    · refine Or.inr ⟨rfl, ?_⟩
      rw [Trace.begun_concat]
      exact List.mem_append_right _ List.mem_cons_self
  · rw [requests]
    intro q hq
    exact (Mailbox.mem_contents_send hq).imp_right Or.inl

/-- One step keeps the inbox. -/
theorem step (i : Inbox settings t s) (run : Run settings t s) (h : Step s a s' e) :
    Inbox settings (t ++ [(a, e)]) s' := by
  cases h.posting with
  | quiet requests =>
      refine i.concat _ (requests ▸ i.sound) (by rw [requests]) ?_ ?_
      · rw [requests]
        exact fun _ => Or.inl
      · rw [requests]
        exact fun _ => Or.inl
  | take take =>
      refine i.concat _ (i.sound.take take) (Mailbox.limit_of_take? take) ?_ ?_
      · rw [Mailbox.line_of_take? take]
        exact fun _ => Or.inl
      · intro q hq
        rw [Mailbox.contents_of_take? take]
        exact Or.inl (List.mem_cons_of_mem _ hq)
  | @ask d room requests =>
      refine i.concat _ ?_ ?_ ?_ ?_
      · rw [requests]
        exact i.sound.push room _
      · rw [requests]
        rfl
      · rw [requests]
        exact fun _ => Or.inl
      · rw [requests, Mailbox.contents_push]
        intro q hq
        rcases List.mem_append.mp hq with hold | hnew
        · exact Or.inl hold
        · exact Or.inr (Or.inr ⟨s.next, d, List.mem_singleton.mp hnew, rfl⟩)
  | send requests => exact i.concat_send run requests _
  | @resume id requests =>
      refine i.concat _ ?_ ?_ ?_ ?_
      · rw [requests]
        exact i.sound.resume id
      · rw [requests]
        exact Mailbox.limit_resume _ _
      · rw [requests]
        intro p hp
        exact Or.inl (Mailbox.mem_line_resume i.sound hp).1
      · -- what goes into a slot stood in line, where only shutdowns stand
        rw [requests]
        intro q hq
        rcases Mailbox.mem_contents_resume hq with hold | hline
        · exact Or.inl hold
        · exact Or.inr (Or.inl (i.line_begun _ hline).1)
  | @withdraw id requests =>
      refine i.concat _ ?_ ?_ ?_ ?_
      · rw [requests]
        exact i.sound.withdraw id
      · rw [requests]
        exact Mailbox.limit_withdraw _ _
      · rw [requests, Mailbox.line_withdraw i.sound]
        intro p hp
        exact Or.inl (Mailbox.mem_lineWithout.mp hp).1
      · rw [requests, Mailbox.contents_withdraw]
        exact fun _ => Or.inl
  | close limit requests =>
      refine i.concat _ (requests ▸ .close) (by rw [requests]; exact limit) ?_ ?_
      · rw [requests]
        intro p hp
        exact nomatch hp
      · rw [requests]
        intro q hq
        exact nomatch hq

end Inbox

theorem Run.inbox (run : Run settings t s) : Inbox settings t s := by
  induction run with
  | new => exact .new settings
  | step run h ih => exact ih.step run (.of_step h)

/-- Only a shutdown stands in line for the mailbox for requests. -/
theorem Step.line_requests (h : Step s a s' e) (run : Run settings t s)
    (line : s.requests.line = []) (other : a ≠ .sendShutdown) : s'.requests.line = [] := by
  cases h.posting with
  | quiet requests => rw [requests, line]
  | take take => rw [Mailbox.line_of_take? take, line]
  | ask _ requests =>
      rw [requests]
      exact line
  | send => exact absurd rfl other
  | resume requests =>
      rw [requests, List.eq_nil_iff_forall_not_mem]
      intro p hp
      have hold := (Mailbox.mem_line_resume run.inbox.sound hp).1
      rw [line] at hold
      exact nomatch hold
  | withdraw requests =>
      rw [requests, Mailbox.line_withdraw run.inbox.sound, Mailbox.lineWithout, line]
      rfl
  | close _ requests =>
      rw [requests]
      rfl

/-! ## The drain before a request is served -/

/-- How a step can leave the owner on the way to a request: it has just taken
    the request, it has taken in a record on the way, or the step was not the
    owner's. -/
theorem Step.draining_cases {left id : Nat} {d : Demand} (h : Step s a s' e)
    (owner : s'.owner = .draining left id d) :
    (a = .takeRequest ∧ e = .taken id ∧ s.owner = .ready ∧ left = s.records.limit
        ∧ .demand id d ∈ s.requests.contents)
      ∨ (s.owner = .draining (left + 1) id d ∧ a ≠ .takeRequest ∧ ∃ m, e = .numbered m)
      ∨ (s.owner = .draining left id d ∧ a ≠ .takeRequest ∧ e.message? = none) := by
  cases h with
  | start => exact nomatch owner
  | discard => exact nomatch owner
  | abort => exact nomatch owner
  | takeRecord ready => exact nomatch ready.symm.trans owner
  | takeShutdown => exact nomatch owner
  | takeDemand ready take =>
      obtain ⟨rfl, rfl, rfl⟩ := Owner.draining.inj owner
      refine Or.inl ⟨rfl, rfl, ready, rfl, ?_⟩
      rw [Mailbox.contents_of_take? take]
      exact List.mem_cons_self
  | drainRecord before take =>
      obtain ⟨rfl, rfl, rfl⟩ := Owner.draining.inj owner
      exact Or.inr (Or.inl ⟨before, nofun, _, rfl⟩)
  | serve => exact nomatch owner
  | skip => exact nomatch owner
  | _ => exact Or.inr (Or.inr ⟨owner, nofun, rfl⟩)

/-- The owner has taken a request, and may still take in `left` records
    before it serves it. -/
structure Drain (settings : StoreSettings) (t : Trace) (left id : Nat) (d : Demand)
    (before after : Trace) : Prop where
  split : t = before ++ (.takeRequest, .taken id) :: after
  alone : ∀ x ∈ after, x.1 ≠ .takeRequest
  count : after.numbered.length + left = max settings.ingestQueue 1
  asked : (Action.ask d, Event.queued id d) ∈ before
  ahead : before.sent.length ≤ t.numbered.length + left

/-- A step that is not the taking of a request goes on with the drain; a
    record that it takes in is one that was left. -/
theorem Drain.concat {left left' id : Nat} {d : Demand} {before after : Trace}
    (w : Drain settings t left id d before after) {x : Action × Event}
    (alone : x.1 ≠ .takeRequest) (count : x.2.message?.toList.length + left' = left) :
    Drain settings (t ++ [x]) left' id d before (after ++ [x]) where
  split := by
    rw [w.split, List.append_assoc]
    rfl
  alone := by
    intro y hy
    rcases List.mem_append.mp hy with hold | hnew
    · exact w.alone y hold
    · rw [List.mem_singleton.mp hnew]
      exact alone
  count := by
    have hcount := w.count
    rw [Trace.numbered_concat, List.length_append]
    omega
  asked := w.asked
  ahead := by
    have hahead := w.ahead
    rw [Trace.numbered_concat, List.length_append]
    omega

/-- As many records were sent as have a number or lie in the mailbox. -/
theorem Run.length_sent (run : Run settings t s) (running : s.owner ≠ .stopped) :
    t.sent.length = t.numbered.length + s.records.contents.length := by
  rw [← run.ledger.length_sentRecords run, run.ledger.flow running, List.length_append,
    List.length_map]

/-- On the way to a request, the drain stands where its count says. -/
theorem Run.drain (run : Run settings t s) {left id : Nat} {d : Demand}
    (owner : s.owner = .draining left id d) :
    ∃ before after, Drain settings t left id d before after := by
  induction run generalizing left id d with
  | new => exact nomatch owner
  | @step t s s' a e run h ih =>
      rcases (Step.of_step h).draining_cases owner with
        ⟨rfl, rfl, ready, rfl, hmem⟩ | ⟨hbefore, halone, m, rfl⟩ | ⟨hsame, halone, hnone⟩
      · -- the drain begins: the mailbox holds no more records than are left
        have hlength := run.length_sent (by rw [ready]; exact nofun)
        have hroom := Mailbox.length_contents_le run.ledger.sound
        refine ⟨t, [], rfl, by simp, ?_, run.inbox.asked id d hmem, ?_⟩
        · rw [run.ledger.limit]
          exact Nat.zero_add _
        · rw [hlength, Trace.numbered_append, List.length_append]
          omega
      · obtain ⟨before, after, hw⟩ := ih hbefore
        exact ⟨before, _, hw.concat halone (Nat.add_comm 1 left)⟩
      · obtain ⟨before, after, hw⟩ := ih hsame
        refine ⟨before, _, hw.concat halone ?_⟩
        rw [hnone]
        exact Nat.zero_add _

/-- The state in which a request is served: the drain is over. -/
theorem Run.served_inv {t₁ t₂ : Trace} {id : Nat} {d : Demand} {reply : Reply}
    (run : Run settings (t₁ ++ (.serve, .served id d reply) :: t₂) s) :
    ∃ s₁ s₂ left before after, Run settings t₁ s₁
      ∧ Step s₁ .serve s₂ (.served id d reply)
      ∧ reply = s₁.buffer.reply settings.maxResults d
      ∧ s₂.buffer = s₁.buffer.after d
      ∧ s₁.owner = .draining left id d
      ∧ (left = 0 ∨ s₁.records.contents.length = 0)
      ∧ Drain settings t₁ left id d before after := by
  obtain ⟨s₁, s₂, run₁, hstep, -⟩ := run.at_place
  have hsettings := run₁.settings_eq
  have hserve := hstep
  cases hstep with
  | serve owner drained =>
      obtain ⟨before, after, hdrain⟩ := run₁.drain owner
      rw [Mailbox.size_queue] at drained
      exact ⟨s₁, _, _, before, after, run₁, hserve, by rw [hsettings], rfl, owner, drained, hdrain⟩

/-- What was numbered at the end of a drain reaches back to the taking of the
    request. -/
theorem Drain.visible {left id : Nat} {d : Demand} {before after : Trace}
    (w : Drain settings t left id d before after) (run : Run settings t s)
    (owner : s.owner = .draining left id d)
    (drained : left = 0 ∨ s.records.contents.length = 0) :
    before.sent.length ≤ t.numbered.length := by
  rcases drained with rfl | hempty
  · exact w.ahead
  · have hlength := run.length_sent (by rw [owner]; exact nofun)
    have hsplit : t.sent = before.sent ++ Trace.sent ((.takeRequest, .taken id) :: after) := by
      rw [w.split]
      exact Trace.sent_append _ _
    rw [hsplit, List.length_append] at hlength
    omega

/-- A request is asked before it is taken: whatever precedes its asking
    precedes its taking. -/
theorem Drain.asked_before {left id : Nat} {d d' : Demand} {before after t₀ t₀' : Trace}
    (w : Drain settings t left id d before after) (run : Run settings t s)
    (hsplit : t = t₀ ++ (.ask d', .queued id d') :: t₀') : t₀ <+: before := by
  rcases List.append_eq_append_iff.mp (w.split.symm.trans hsplit) with
    ⟨u, ht₀, -⟩ | ⟨u, hbefore, -⟩
  · -- otherwise the number would have been given away twice
    exfalso
    have hbegun : (id, Action.ask d) ∈ t₀.begun := by
      rw [Trace.begun, ht₀]
      exact List.mem_filterMap.mpr ⟨_, List.mem_append_left _ w.asked, rfl⟩
    obtain ⟨s₀, s₁, run₀, hstep, -⟩ := (hsplit ▸ run).at_place
    cases hstep with
    | askQueued => exact run₀.next_notMem _ hbegun
  · exact ⟨u, hbefore.symm⟩

/-- The records sent before a request was asked have their numbers when the
    request is served. -/
theorem Drain.sentRecords_visible {left id : Nat} {d d' : Demand} {before after t₀ t₀' : Trace}
    (w : Drain settings t left id d before after) (run : Run settings t s)
    (owner : s.owner = .draining left id d)
    (drained : left = 0 ∨ s.records.contents.length = 0)
    (hsplit : t = t₀ ++ (.ask d', .queued id d') :: t₀') :
    t₀.sentRecords <+: t.numbered.map Message.record := by
  have hfirst : t₀.sentRecords <+: t.sentRecords := by
    have run' : Run settings (t₀ ++ (.ask d', .queued id d') :: t₀') s := hsplit ▸ run
    obtain ⟨s₀, run₀⟩ := run'.front
    rw [hsplit, run'.sentRecords_append run₀.ledger.sent_begun]
    exact List.prefix_append _ _
  have hnumbered : t.numbered.map Message.record <+: t.sentRecords := by
    rw [run.ledger.flow (by rw [owner]; exact nofun)]
    exact List.prefix_append _ _
  refine List.prefix_of_prefix_length_le hfirst hnumbered ?_
  have hbefore : t₀.sent.length ≤ before.sent.length := by
    obtain ⟨u, hu⟩ := w.asked_before run hsplit
    rw [← hu, Trace.sent_append, List.length_append]
    omega
  have hvisible := w.visible run owner drained
  have hlength : t₀.sentRecords.length ≤ t₀.sent.length := List.length_filterMap_le _ _
  rw [List.length_map]
  omega

/-- One slot in either mailbox. -/
def crowded : StoreSettings := ⟨2, 2, 1, 1, ⟨1000⟩⟩

/-- A record with no more than a body to it. -/
def plain (body : Bytes) : Record := ⟨body, "k", [], "s"⟩

/-- Two senders stand in line when the request is asked. One of them fills
    the mailbox again during the drain, the other one goes away. -/
def crowding : List Action :=
  [.send (plain [1]), .send (plain [2]), .ask .stats, .send (plain [3]), .start, .takeRequest,
    .drainRecord ⟨0, 0⟩, .resumeSend 1, .withdrawSend 3, .serve]

/-- What comes of the crowding. -/
def crowdedRun : Trace × System := ((System.new crowded).play crowding).get (by decide)

/-- **VISIBILITY AND SEQUENCE ORDER**: until the owner stops, the records
    whose sending was completed are, in this order, those that have a number,
    counted from zero, and those in the mailbox; none comes in twice, and
    none whose publisher went away while it waited. The mailbox never holds
    more than its slots. When a request is served, every record whose
    sending was completed before the request was asked has its number, and
    the answer is told of the records that have one; since the request was
    taken no more records came in than the mailbox has slots. -/
theorem sent_records_are_visible (run : Run settings t s) :
    (s.owner ≠ .stopped →
        t.sentRecords = t.numbered.map Message.record ++ s.records.contents)
      ∧ (∀ id ∈ t.sent, ∃ r, (id, Action.send r) ∈ t.begun) ∧ t.sent.Nodup
      ∧ t.numbered.map Message.seq
          = (List.range t.numbered.length).map (fun i : Nat => (i : Int))
      ∧ (∀ (t₁ t₂ : Trace) (id : Nat) (r : Record),
          t = t₁ ++ (.withdrawSend id, .withdrawn id) :: t₂ →
          (id, .send r) ∈ t₁.begun → id ∉ t₁.sent → id ∉ t.sent)
      ∧ s.records.contents.length ≤ max settings.ingestQueue 1
      ∧ ∀ (t₁ t₂ : Trace) (id : Nat) (d : Demand) (reply : Reply),
          t = t₁ ++ (.serve, .served id d reply) :: t₂ →
          (Action.ask d, Event.queued id d) ∈ t₁
          ∧ (∀ (t₀ t₀' : Trace) (d' : Demand), t₁ = t₀ ++ (.ask d', .queued id d') :: t₀' →
              t₀.sentRecords <+: t₁.numbered.map Message.record)
          ∧ reply.totalReceived = t₁.numbered.length
          ∧ reply = ((Buffer.empty settings.capacity).performAll t₁.works).reply
              settings.maxResults d
          ∧ ∃ before after : Trace, t₁ = before ++ (.takeRequest, .taken id) :: after
              ∧ (∀ x ∈ after, x.1 ≠ .takeRequest)
              ∧ after.numbered.length ≤ max settings.ingestQueue 1 := by
  have hledger := run.ledger
  refine ⟨hledger.flow, hledger.sent_begun, hledger.sent_nodup, ?_, ?_, ?_, ?_⟩
  · rw [run.numbered_eq, Work.map_seq_history, Work.length_history]
  · rintro t₁ t₂ id r rfl begun unsent
    exact run.withdrawn_unsent begun unsent
  · rw [← hledger.limit]
    exact Mailbox.length_contents_le hledger.sound
  · rintro t₁ t₂ id d reply rfl
    obtain ⟨s₁, s₂, left, before, after, run₁, -, hreply, -, owner, drained, w⟩ := run.served_inv
    have hmem : (Action.ask d, Event.queued id d) ∈ t₁ := by
      rw [w.split]
      exact List.mem_append_left _ w.asked
    refine ⟨hmem, ?_, ?_, ?_, before, after, w.split, w.alone, ?_⟩
    · intro t₀ t₀' d' hsplit
      exact w.sentRecords_visible run₁ owner drained hsplit
    · rw [hreply, ← run₁.received_eq]
      rfl
    · rw [hreply, run₁.buffer_eq]
    · have hcount := w.count
      omega

theorem sent_records_are_visible_crowded :
    Run crowded crowdedRun.1 crowdedRun.2
      ∧ crowdedRun.1.sentRecords = [plain [1], plain [2]]
      ∧ crowdedRun.1.sentRecords
          = crowdedRun.1.numbered.map Message.record ++ crowdedRun.2.records.contents
      ∧ 3 ∉ crowdedRun.1.sent
      ∧ ∃ (t₁ : Trace) (reply : Reply),
          crowdedRun.1 = t₁ ++ (.serve, .served 2 .stats reply) :: []
            ∧ t₁.numbered.length = 1 ∧ reply.totalReceived = t₁.numbered.length := by
  have hrun : Run crowded crowdedRun.1 crowdedRun.2 := Run.of_play (by decide)
  obtain ⟨hflow, -, -, -, hgone, -, hserved⟩ := sent_records_are_visible hrun
  refine ⟨hrun, rfl, hflow nofun, ?_, crowdedRun.1.take 9, _, rfl, rfl, ?_⟩
  · exact hgone (crowdedRun.1.take 8) _ 3 (plain [3]) rfl (.tail _ (.tail _ (.tail _ (.head _))))
      (by decide)
  · exact (hserved (crowdedRun.1.take 9) [] 2 .stats _ rfl).2.2.1

end BusWindow.Store
