import BusWindow.Proofs.Requests

/-!
# Shutdown — a clean cut through every run

    A shutdown stands in the mailbox between the calls that entered before it
    and those that entered after it. The owner serves the former in their
    turn and never comes to the latter. Once it has stopped, by a shutdown or
    by being dropped, nothing changes any more, and nobody is left waiting.

    * `Run.given_up` and `Run.outcome_of_unserved` say what becomes of a call
      that is not served;
    * `Halted` describes the store after the stop: `Halted.step` says that a
      step keeps it, and `Halted.append` says the same of every continuation;
    * `shutdown_cuts_cleanly` is the whole statement.
-/

namespace BusWindow.Store

variable {settings : StoreSettings} {t t' : Trace} {s s' : System} {a : Action} {e : Event}
  {id : Nat} {d : Demand}

theorem mem_of_call? {c : Call} (h : s.call? id = some c) : (id, c) ∈ s.calls := by
  obtain ⟨l₁, l₂, hsplit, -⟩ := List.lookup_eq_some_iff.mp h
  rw [hsplit]
  exact List.mem_append_right _ List.mem_cons_self

/-! ## After the stop -/

/-- A store whose owner has stopped: both mailboxes are closed, nobody stands
    in line, and no call waits for an answer. -/
structure Halted (s : System) : Prop where
  owner : s.owner = .stopped
  records : s.records.closed = true
  requests : s.requests.closed = true
  publishers : s.records.line = []
  shutdowns : s.requests.line = []
  settled : ∀ c ∈ s.calls, c.2 ≠ .waiting

/-- What stopping leaves behind. -/
theorem halted_stop (s : System) : Halted s.stop where
  owner := rfl
  records := rfl
  requests := rfl
  publishers := rfl
  shutdowns := rfl
  settled := by
    intro c hc
    obtain ⟨⟨id, call⟩, -, rfl⟩ := List.mem_map.mp hc
    cases call with
    | waiting => exact nofun
    | answered => exact nofun
    | dropped => exact nofun

namespace Halted

/-- Whatever leaves the owner and the mailboxes alone and begins no call
    keeps a store halted. -/
theorem of_calls (h : Halted s) (owner : s'.owner = s.owner) (records : s'.records = s.records)
    (requests : s'.requests = s.requests) (calls : ∀ c ∈ s'.calls, c ∈ s.calls) : Halted s' where
  owner := owner.trans h.owner
  records := by rw [records, h.records]
  requests := by rw [requests, h.requests]
  publishers := by rw [records, h.publishers]
  shutdowns := by rw [requests, h.shutdowns]
  settled := fun c hc => h.settled c (calls c hc)

/-- No step wakes the owner or touches the buffer. -/
theorem step (h : Halted s) (run : Run settings t s) (hstep : Step s a s' e) :
    Halted s' ∧ s'.buffer = s.buffer := by
  have hsame {s' : System} (owner : s'.owner = s.owner) (records : s'.records = s.records)
      (requests : s'.requests = s.requests) (calls : s'.calls = s.calls) : Halted s' :=
    h.of_calls owner records requests fun c hc => calls ▸ hc
  cases hstep with
  -- what the owner would do
  | start owner => exact nomatch h.owner.symm.trans owner
  | discard owner => exact nomatch h.owner.symm.trans owner
  | abort owner => exact nomatch h.owner.symm.trans owner
  | takeRecord owner => exact nomatch h.owner.symm.trans owner
  | takeShutdown owner => exact nomatch h.owner.symm.trans owner
  | takeDemand owner => exact nomatch h.owner.symm.trans owner
  | drainRecord owner => exact nomatch h.owner.symm.trans owner
  | serve owner => exact nomatch h.owner.symm.trans owner
  | skip owner => exact nomatch h.owner.symm.trans owner
  -- what needs an open mailbox
  | askQueued closed => exact nomatch h.requests.symm.trans closed
  | askOverloaded closed => exact nomatch h.requests.symm.trans closed
  | askClosed => exact ⟨hsame rfl rfl rfl rfl, rfl⟩
  | refuse => exact ⟨hsame rfl rfl rfl rfl, rfl⟩
  | collectReply => exact ⟨h.of_calls rfl rfl rfl fun c hc => List.mem_of_mem_filter hc, rfl⟩
  | collectNone => exact ⟨h.of_calls rfl rfl rfl fun c hc => List.mem_of_mem_filter hc, rfl⟩
  | giveUp => exact ⟨h.of_calls rfl rfl rfl fun c hc => List.mem_of_mem_filter hc, rfl⟩
  | send =>
      rw [Mailbox.send_closed h.records]
      exact ⟨hsame rfl rfl rfl rfl, rfl⟩
  | resumeSend =>
      rw [Mailbox.resume_closed h.records]
      exact ⟨h, rfl⟩
  | withdrawSend =>
      refine ⟨⟨h.owner, ?_, h.requests, ?_, h.shutdowns, h.settled⟩, rfl⟩
      · exact (Mailbox.closed_withdraw _ _).trans h.records
      · show (s.records.withdraw _).line = []
        rw [Mailbox.line_withdraw run.ledger.sound, Mailbox.lineWithout, h.publishers]
        rfl
  | sendShutdown =>
      rw [Mailbox.send_closed h.requests]
      exact ⟨hsame rfl rfl rfl rfl, rfl⟩
  | resumeShutdown =>
      rw [Mailbox.resume_closed h.requests]
      exact ⟨h, rfl⟩
  | withdrawShutdown =>
      refine ⟨⟨h.owner, h.records, ?_, h.publishers, ?_, h.settled⟩, rfl⟩
      · exact (Mailbox.closed_withdraw _ _).trans h.requests
      · show (s.requests.withdraw _).line = []
        rw [Mailbox.line_withdraw run.inbox.sound, Mailbox.lineWithout, h.shutdowns]
        rfl

/-- What has stopped stays as it is for the rest of a run. -/
theorem append (h : Halted s) (run : Run settings t s) (run' : Run settings (t ++ t') s') :
    Halted s' ∧ s'.buffer = s.buffer := by
  induction t' using List.reverseRecOn generalizing s' with
  | nil =>
      rw [List.append_nil] at run'
      obtain rfl := run.unique run'
      exact ⟨h, rfl⟩
  | append_singleton t' x ih =>
      rw [← List.append_assoc] at run'
      obtain ⟨s₀, run₀, hstep⟩ := run'.last
      obtain ⟨h₀, hbuffer₀⟩ := ih run₀
      obtain ⟨h', hbuffer⟩ := h₀.step run₀ hstep
      exact ⟨h', hbuffer.trans hbuffer₀⟩

end Halted

/-- The owner stops in one way only. -/
theorem Step.stops (h : Step s a s' e) (running : s.owner ≠ .stopped)
    (stopped : s'.owner = .stopped) : ∃ s₀ : System, s' = s₀.stop := by
  cases h with
  | discard => exact ⟨_, rfl⟩
  | abort => exact ⟨_, rfl⟩
  | takeShutdown => exact ⟨_, rfl⟩
  | start => exact nomatch stopped
  | takeDemand => exact nomatch stopped
  | drainRecord => exact nomatch stopped
  | serve => exact nomatch stopped
  | skip => exact nomatch stopped
  | _ => exact absurd stopped running

/-- Along a run a store that has stopped stays as the stop left it. -/
theorem Run.halted (run : Run settings t s) (stopped : s.owner = .stopped) : Halted s := by
  induction run with
  | new => exact nomatch stopped
  | @step t s s' a e run h ih =>
      by_cases hbefore : s.owner = .stopped
      · exact ((ih hbefore).step run (.of_step h)).1
      · obtain ⟨s₀, rfl⟩ := (Step.of_step h).stops hbefore stopped
        exact halted_stop s₀

/-! ## Calls that are not served -/

/-- A call is dropped by a stop of the owner and by nothing else. -/
theorem Step.mem_of_dropped (h : Step s a s' e) {c : Nat × Call} (hc : c ∈ s'.calls)
    (dropped : c.2 = .dropped) : c ∈ s.calls ∨ s'.owner = .stopped := by
  cases h with
  | discard => exact Or.inr rfl
  | abort => exact Or.inr rfl
  | takeShutdown => exact Or.inr rfl
  | serve =>
      obtain ⟨c₀, hc₀, rfl⟩ := List.mem_map.mp hc
      split at dropped
      · exact nomatch dropped
      · next hne =>
        rw [if_neg hne]
        exact Or.inl hc₀
  | askQueued =>
      rcases List.mem_append.mp hc with hold | hnew
      · exact Or.inl hold
      · rw [List.mem_singleton.mp hnew] at dropped
        exact nomatch dropped
  | collectReply => exact Or.inl (List.mem_of_mem_filter hc)
  | collectNone => exact Or.inl (List.mem_of_mem_filter hc)
  | giveUp => exact Or.inl (List.mem_of_mem_filter hc)
  | _ => exact Or.inl hc

theorem Run.stopped_of_mem_dropped (run : Run settings t s) {c : Nat × Call} (hc : c ∈ s.calls)
    (dropped : c.2 = .dropped) : s.owner = .stopped := by
  -- a call that was dropped earlier finds the owner stopped, and it stays so
  induction run with
  | new => exact nomatch hc
  | step run h ih =>
      rcases (Step.of_step h).mem_of_dropped hc dropped with hold | hstopped
      · exact ((run.halted (ih hold)).step run (.of_step h)).1.owner
      · exact hstopped

theorem Run.stopped_of_dropped (run : Run settings t s) (dropped : s.call? id = some .dropped) :
    s.owner = .stopped := run.stopped_of_mem_dropped (mem_of_call? dropped) rfl

/-- An open call stays open until it comes back. -/
theorem Reception.mem_keys (h : Reception s s' a e) (timeout : Duration)
    (hid : id ∈ s.calls.map Prod.fst) :
    id ∈ s'.calls.map Prod.fst ∨ e.outcome? timeout id ≠ none := by
  have hforget {k : Nat} (hne : id ≠ k) : id ∈ (s.forget k).calls.map Prod.fst := by
    obtain ⟨c, hc, rfl⟩ := List.mem_map.mp hid
    exact List.mem_map.mpr ⟨c, List.mem_filter.mpr ⟨hc, by simpa using hne⟩, rfl⟩
  cases h with
  | quiet calls => exact Or.inl (calls ▸ hid)
  | enter calls =>
      rw [calls, List.map_append]
      exact Or.inl (List.mem_append_left _ hid)
  | refuse calls => exact Or.inl (calls ▸ hid)
  | answer _ calls =>
      rw [calls, List.map_map]
      obtain ⟨c, hc, rfl⟩ := List.mem_map.mp hid
      refine Or.inl (List.mem_map.mpr ⟨c, hc, ?_⟩)
      show (if c.1 = _ then (c.1, _) else c).1 = c.1
      split
      · rfl
      · rfl
  | @collect k r _ calls =>
      by_cases hk : id = k
      · exact Or.inr (by simp [Event.outcome?, hk])
      · exact Or.inl (calls ▸ hforget hk)
  | @fail _ _ k _ _ calls _ _ outcome =>
      by_cases hk : id = k
      · exact Or.inr (by simp [outcome, hk])
      · exact Or.inl (calls ▸ hforget hk)
  | drop calls =>
      rw [calls, List.map_map]
      exact Or.inl hid

/-- A call that joined the mailbox is open or has come back. -/
theorem Run.open_or_back (run : Run settings t s) (asked : (Action.ask d, Event.queued id d) ∈ t) :
    id ∈ s.calls.map Prod.fst ∨ t.outcomes settings.timeout id ≠ [] := by
  induction run with
  | new => exact nomatch asked
  | @step t s s' a e run h ih =>
      rw [Trace.outcomes_concat]
      rcases List.mem_append.mp asked with hold | hnew
      · rcases ih hold with hopen | hback
        · rcases (Step.of_step h).reception.mem_keys settings.timeout hopen with hopen | hback
          · exact Or.inl hopen
          · obtain ⟨v, hv⟩ := Option.ne_none_iff_exists'.mp hback
            exact Or.inr (by simp [hv])
        · exact Or.inr (by simp [hback])
      · obtain ⟨rfl, rfl⟩ := Prod.mk.inj (List.mem_singleton.mp hnew)
        cases Step.of_step h with
        | askQueued =>
            left
            show s.next ∈ (s.calls ++ [(s.next, Call.waiting)]).map Prod.fst
            simp

/-- A call that joined the mailbox and was not served comes back because the
    owner has stopped, or because its client gave up. -/
theorem Run.outcome_of_unserved (run : Run settings t s)
    (asked : (Action.ask d, Event.queued id d) ∈ t) (unserved : t.servings id = [])
    {v : Except StoreError Reply} (hv : v ∈ t.outcomes settings.timeout id) :
    v = .error .closed ∧ s.owner = .stopped
      ∨ v = .error (.timeout settings.timeout) ∧ (Action.giveUp id, Event.gaveUp id) ∈ t := by
  obtain ⟨-, hstory⟩ := (run.register.story id).of_mem hv
  obtain ⟨error, rfl, -⟩ : ∃ e, v = .error e ∧ t.servings id = [] := by
    rcases hstory with ⟨d, r, -, hserved⟩ | hfailed
    · exact nomatch unserved.symm.trans hserved
    · exact hfailed
  obtain ⟨⟨a, x⟩, hx, hout⟩ := List.mem_filterMap.mp hv
  -- it was not refused, for it has joined the mailbox under its number
  have hjoined {b : Action} (hb : begins (a, x) = some (id, b)) : x = .queued id d :=
    congrArg Prod.snd (run.place_unique hx asked hb rfl)
  obtain ⟨t₁, t₂, rfl⟩ := List.append_of_mem hx
  obtain ⟨s₁, s₂, run₁, hstep, -⟩ := run.at_place
  -- each outcome is told under the number of its call
  have hsplit {k : Nat} {w : Except StoreError Reply}
      (h : (if k = id then some w else none) = some (Except.error error)) :
      k = id ∧ w = .error error := by
    split at h
    · next hk => exact ⟨hk, Option.some.inj h⟩
    · exact nomatch h
  cases hstep with
  | askClosed =>
      obtain ⟨rfl, -⟩ := hsplit hout
      exact nomatch hjoined rfl
  | askOverloaded =>
      obtain ⟨rfl, -⟩ := hsplit hout
      exact nomatch hjoined rfl
  | refuse =>
      obtain ⟨rfl, -⟩ := hsplit hout
      exact nomatch hjoined rfl
  | collectReply => exact nomatch (hsplit hout).2
  | collectNone call =>
      obtain ⟨rfl, heq⟩ := hsplit hout
      have hstopped := run₁.stopped_of_dropped call
      exact Or.inl ⟨heq.symm, ((run₁.halted hstopped).append run₁ run).1.owner⟩
  | giveUp =>
      obtain ⟨rfl, heq⟩ := hsplit hout
      exact Or.inr ⟨heq.symm, hx⟩
  | _ => exact nomatch hout

/-- How an open call that was not served stands: it waits, or it was dropped
    by the stop. -/
theorem Run.call_of_unserved (run : Run settings t s)
    (asked : (Action.ask d, Event.queued id d) ∈ t) (unserved : t.servings id = [])
    (out : t.outcomes settings.timeout id = []) :
    s.call? id = some .waiting ∨ s.call? id = some .dropped := by
  have hstory := run.register.story id
  rw [unserved, out] at hstory
  cases hcall : s.call? id with
  | none =>
      -- then it would have come back
      rcases run.open_or_back asked with hopen | hback
      · obtain ⟨c, hc⟩ := exists_call?_of_mem_keys hopen
        exact nomatch hc.symm.trans hcall
      · exact absurd out hback
  | some call =>
      cases call with
      | waiting => exact Or.inl rfl
      | dropped => exact Or.inr rfl
      | answered r =>
          rw [hcall] at hstory
          obtain ⟨d, hserved, -⟩ := hstory.of_answered
          exact nomatch hserved

/-- If the owner passes over a call, its client has given up. -/
theorem Run.given_up (run : Run settings t s) (asked : (Action.ask d, Event.queued id d) ∈ t)
    (unserved : t.servings id = []) (waits : s.isWaiting id = false)
    (running : s.owner ≠ .stopped) : (Action.giveUp id, Event.gaveUp id) ∈ t := by
  rcases List.eq_nil_or_concat (t.outcomes settings.timeout id) with hout | ⟨vs, v, hout⟩
  · rcases run.call_of_unserved asked unserved hout with hwaiting | hdropped
    · exact nomatch waits.symm.trans (isWaiting_iff.mpr hwaiting)
    · exact absurd (run.stopped_of_dropped hdropped) running
  · have hv : v ∈ t.outcomes settings.timeout id := by
      rw [hout, List.concat_eq_append]
      exact List.mem_concat_self
    rcases run.outcome_of_unserved asked unserved hv with ⟨-, hstopped⟩ | ⟨-, hgaveUp⟩
    · exact absurd hstopped running
    · exact hgaveUp

/-! ## Calls that the owner comes to -/

/-- A call was served with what the buffer replied at that moment. -/
def Answered (settings : StoreSettings) (t : Trace) (id : Nat) (d : Demand) : Prop :=
  ∃ (t₁ t₂ : Trace) (s₁ : System),
    t = t₁ ++ (.serve, .served id d (s₁.buffer.reply settings.maxResults d)) :: t₂
      ∧ Run settings t₁ s₁

/-- The owner passed over a call whose client had given up. -/
def PassedOver (t : Trace) (id : Nat) : Prop :=
  ∃ t₁ t₂ : Trace, t = t₁ ++ (.serve, .skipped id) :: t₂
    ∧ (Action.giveUp id, Event.gaveUp id) ∈ t₁

/-- The owner is on the way to what was asked. -/
theorem Run.asked_of_draining (run : Run settings t s) {left : Nat}
    (owner : s.owner = .draining left id d) : (Action.ask d, Event.queued id d) ∈ t := by
  obtain ⟨before, after, w⟩ := run.drain owner
  rw [w.split]
  exact List.mem_append_left _ w.asked

/-- A call is made with one demand. -/
theorem Run.demand_unique (run : Run settings t s) {d' : Demand}
    (h : (Action.ask d, Event.queued id d) ∈ t) (h' : (Action.ask d', Event.queued id d') ∈ t) :
    d = d' :=
  Action.ask.inj (congrArg Prod.fst (run.place_unique h h' rfl rfl))

/-- The owner serves the call that it is on the way to, if its client still
    waits. -/
theorem Run.serves (run : Run settings t s) (asked : (Action.ask d, Event.queued id d) ∈ t)
    {left : Nat} {d' : Demand} (owner : s.owner = .draining left id d')
    (waits : s.isWaiting id = true) (h : s.step .serve = some (s', e)) :
    e = .served id d (s.buffer.reply settings.maxResults d) := by
  obtain rfl := run.demand_unique asked (run.asked_of_draining owner)
  have hsettings := run.settings_eq
  cases Step.of_step h with
  | serve same =>
      obtain ⟨-, rfl, rfl⟩ := Owner.draining.inj (owner.symm.trans same)
      rw [hsettings]
  | skip same _ gone =>
      obtain ⟨-, rfl, rfl⟩ := Owner.draining.inj (owner.symm.trans same)
      exact nomatch waits.symm.trans gone

/-- A call that was served was answered from the buffer of that moment. -/
theorem Run.answered_of_serving (run : Run settings t s)
    (asked : (Action.ask d, Event.queued id d) ∈ t) {d' : Demand} {r : Reply}
    (h : (d', r) ∈ t.servings id) : Answered settings t id d := by
  obtain ⟨t₁, t₂, rfl⟩ := run.serving_inv h
  obtain ⟨s₁, -, left, -, -, run₁, -, hreply, -, owner, -, -⟩ := run.served_inv
  obtain rfl := run.demand_unique asked
    (List.mem_append_left _ (run₁.asked_of_draining owner))
  exact ⟨t₁, t₂, s₁, by rw [hreply], run₁⟩

/-- Once the owner has stopped, a call that it had taken was served, or
    passed over because its client had given up. -/
theorem Run.answered_or_passedOver (run : Run settings t s)
    (asked : (Action.ask d, Event.queued id d) ∈ t) (taken : id ∈ t.taken)
    (stopped : s.owner = .stopped) : Answered settings t id d ∨ PassedOver t id := by
  rcases run.reached taken with ⟨left, d', howner⟩ | ⟨d', r, hserved⟩ | hskipped
  · exact nomatch stopped.symm.trans howner
  · left
    exact run.answered_of_serving asked (List.mem_filterMap.mpr ⟨_, hserved, if_pos rfl⟩)
  · obtain ⟨t₁, t₂, rfl⟩ := List.append_of_mem hskipped
    obtain ⟨s₁, s₂, run₁, hstep, -⟩ := run.at_place
    cases hstep with
    | skip owner _ waits =>
        by_cases hunserved : Trace.servings t₁ id = []
        · right
          exact ⟨t₁, t₂, rfl, run₁.given_up (run₁.asked_of_draining owner) hunserved waits
            (by rw [owner]; exact nofun)⟩
        · -- it had been served before it was passed over
          left
          obtain ⟨⟨d', r⟩, hmem⟩ := List.exists_mem_of_ne_nil _ hunserved
          have hserved : (d', r) ∈ Trace.servings (t₁ ++ (.serve, .skipped id) :: t₂) id := by
            rw [Trace.servings, List.filterMap_append]
            exact List.mem_append_left _ hmem
          exact run.answered_of_serving asked hserved

theorem Run.stopped_of_mem (run : Run settings t s) (h : (a, Event.ownerStopped) ∈ t) :
    s.owner = .stopped := by
  obtain ⟨t₁, t₂, rfl⟩ := List.append_of_mem h
  obtain ⟨s₁, s₂, -, hstep, run₂⟩ := run.at_place
  have hstopped : s₂.owner = .stopped := by
    cases hstep with
    | discard => rfl
    | abort => rfl
    | takeShutdown => rfl
  rw [List.append_cons] at run
  exact ((run₂.halted hstopped).append run₂ run).1.owner

/-! ## The way to the stop -/

/-- What the owner does to work off the requests. -/
def Action.isService : Action → Bool
  | .takeRequest => true
  | .drainRecord _ => true
  | .serve => true
  | _ => false

/-- The owner goes on with a run on its own. -/
structure Service (settings : StoreSettings) (t t' : Trace) (s' : System) : Prop where
  run : Run settings (t ++ t') s'
  service : ∀ x ∈ t', x.1.isService = true

namespace Service

theorem single (run : Run settings t s) (h : Step s a s' e) (service : a.isService = true) :
    Service settings t [(a, e)] s' where
  run := run.step h.step_eq
  service := by
    intro x hx
    rw [List.mem_singleton.mp hx]
    exact service

theorem trans {t₁ t₂ : Trace} (h₁ : Service settings t t₁ s)
    (h₂ : Service settings (t ++ t₁) t₂ s') : Service settings t (t₁ ++ t₂) s' where
  run := by
    rw [← List.append_assoc]
    exact h₂.run
  service := List.forall_mem_append.mpr ⟨h₁.service, h₂.service⟩

end Service

/-- The owner serves the request it has taken, or skips it when its caller is
    gone. -/
theorem Run.serves_or_skips {left : Nat} (run : Run settings t s)
    (owner : s.owner = .draining left id d)
    (drained : left = 0 ∨ s.records.queue.size = 0) :
    ∃ t' s', Service settings t t' s' ∧ s'.owner = .ready ∧ s'.requests = s.requests := by
  cases hwaits : s.isWaiting id with
  | true => exact ⟨_, _, .single run (.serve owner drained hwaits) rfl, rfl, rfl⟩
  | false => exact ⟨_, _, .single run (.skip owner drained hwaits) rfl, rfl, rfl⟩

/-- The owner comes to the end of a drain and is ready again. -/
theorem Run.finishes {left : Nat} (run : Run settings t s)
    (owner : s.owner = .draining left id d) :
    ∃ t' s', Service settings t t' s' ∧ s'.owner = .ready ∧ s'.requests = s.requests := by
  induction left generalizing t s with
  | zero => exact run.serves_or_skips owner (Or.inl rfl)
  | succ left ih =>
      cases hcontents : s.records.contents with
      | nil =>
          have hsize : s.records.queue.size = 0 := by
            rw [Mailbox.size_queue, hcontents]
            rfl
          exact run.serves_or_skips owner (Or.inr hsize)
      | cons r rest =>
          -- one record more comes in, whenever that may be
          obtain ⟨m, htake, -⟩ := Mailbox.take?_of_contents hcontents
          have hdrained :=
            Service.single run (@Step.drainRecord s left id d ⟨0, 0⟩ r m owner htake) rfl
          obtain ⟨t', s', hserved, hready, hrequests⟩ := ih hdrained.run rfl
          exact ⟨_, s', hdrained.trans hserved, hready, hrequests⟩

/-- An owner that is ready, with a shutdown in the mailbox, comes to its
    stop. -/
theorem Run.stops_of_ready {requests : List Request} (run : Run settings t s)
    (owner : s.owner = .ready) (contents : s.requests.contents = requests)
    (shutdown : .shutdown ∈ requests) :
    ∃ t' s', Service settings t t' s' ∧ (Action.takeRequest, Event.ownerStopped) ∈ t' := by
  induction requests generalizing t s with
  | nil => exact nomatch shutdown
  | cons q rest ih =>
      obtain ⟨m, htake, hrest⟩ := Mailbox.take?_of_contents contents
      cases q with
      | shutdown =>
          exact ⟨_, _, .single run (.takeShutdown owner htake) rfl, List.mem_cons_self⟩
      | demand id d =>
          have htaken := Service.single run (.takeDemand owner htake) rfl
          obtain ⟨t₁, s₁, hserved, hready, hrequests⟩ := htaken.run.finishes rfl
          have hcontents : s₁.requests.contents = rest := by
            rw [hrequests]
            exact hrest
          obtain ⟨t₂, s₂, hstops, hmem⟩ := ih (htaken.trans hserved).run hready hcontents
            (by simpa using shutdown)
          exact ⟨_, s₂, (htaken.trans hserved).trans hstops, List.mem_append_right _ hmem⟩

/-- Once a shutdown has entered, an owner that runs can always get to its
    stop. -/
theorem Run.stops_of_shutdown {t₁ t₂ : Trace} {k : Nat}
    (run : Run settings (t₁ ++ (a, .shutdownSent k .accepted) :: t₂) s)
    (started : s.owner ≠ .notStarted) (running : s.owner ≠ .stopped) :
    ∃ t' s', Service settings (t₁ ++ (a, .shutdownSent k .accepted) :: t₂) t' s'
      ∧ (Action.takeRequest, Event.ownerStopped) ∈ t' := by
  obtain ⟨rest, horder, hrest⟩ := run.order
  have hshutdown : .shutdown ∈ s.requests.contents := by
    have hnone : none ∈ rest := by
      have hmem : none ∈ Trace.entered (t₁ ++ (a, .shutdownSent k .accepted) :: t₂) := by
        rw [Trace.entered_shutdown]
        exact List.mem_append_right _ List.mem_cons_self
      rw [horder] at hmem
      simpa using hmem
    rw [hrest running] at hnone
    obtain ⟨q, hq, hcall⟩ := List.mem_map.mp hnone
    cases q with
    | shutdown => exact hq
    | demand id d => exact nomatch hcall
  cases howner : s.owner with
  | notStarted => exact absurd howner started
  | stopped => exact absurd howner running
  | ready => exact run.stops_of_ready howner rfl hshutdown
  | draining left id d =>
      obtain ⟨t', s', hserved, hready, hrequests⟩ := run.finishes howner
      obtain ⟨t'', s'', hstops, hmem⟩ :=
        hserved.run.stops_of_ready hready rfl (hrequests ▸ hshutdown)
      exact ⟨_, s'', hserved.trans hstops, List.mem_append_right _ hmem⟩

/-! ## Clients of a store that has stopped -/

/-- How everybody comes back from a store whose owner has stopped: new calls
    are refused, records and shutdowns are lost, whether they are new or
    stood in line, nobody stands in line, and every open call can be
    collected, without an answer if it was never served. -/
structure TurnsAway (t : Trace) (s : System) : Prop where
  calls : ∀ (q : Inquiry) (d : Demand), q.demand = .ok d →
    s.step q.action = some (s.numberTaken, .refused s.next .closed)
  records : ∀ r : Record, s.step (.send r) = some (s.numberTaken, .recordSent s.next .lost)
  publishers : ∀ id : Nat, s.step (.resumeSend id) = some (s, .recordSent id .lost)
  shutdown : s.step .sendShutdown = some (s.numberTaken, .shutdownSent s.next .lost)
  shutdowns : ∀ id : Nat, s.step (.resumeShutdown id) = some (s, .shutdownSent id .lost)
  noPublisher : s.records.line = []
  noShutdown : s.requests.line = []
  collects : ∀ (id : Nat) (c : Call), s.call? id = some c →
    ∃ v, s.step (.collect id) = some (s.forget id, .returned id v)
      ∧ (v = none ↔ t.servings id = [])

/-- A store that has stopped turns every client away. -/
theorem Run.turnsAway (run : Run settings t s) (h : Halted s) : TurnsAway t s where
  calls := by
    intro q d hd
    have haction : q.action = .ask d := by rw [Inquiry.action, hd]
    rw [haction]
    exact (Step.askClosed h.requests).step_eq
  records := by
    intro r
    have hstep := (@Step.send s r).step_eq
    rw [Mailbox.send_closed h.records] at hstep
    exact hstep
  publishers := by
    intro id
    have hstep := (@Step.resumeSend s id).step_eq
    rw [Mailbox.resume_closed h.records] at hstep
    exact hstep
  shutdown := by
    have hstep := (@Step.sendShutdown s).step_eq
    rw [Mailbox.send_closed h.requests] at hstep
    exact hstep
  shutdowns := by
    intro id
    have hstep := (@Step.resumeShutdown s id).step_eq
    rw [Mailbox.resume_closed h.requests] at hstep
    exact hstep
  noPublisher := h.publishers
  noShutdown := h.shutdowns
  collects := by
    intro id c hcall
    have hstory := hcall ▸ run.register.story id
    cases c with
    | waiting => exact absurd rfl (h.settled _ (mem_of_call? hcall))
    | answered r =>
        obtain ⟨d, hserved, -⟩ := hstory.of_answered
        refine ⟨some r, (Step.collectReply hcall).step_eq, ?_⟩
        simp [hserved]
    | dropped =>
        refine ⟨none, (Step.collectNone hcall).step_eq, ?_⟩
        simp [hstory.of_dropped.1]

/-! ## The cut -/

/-- Four slots for requests and one for records. -/
def roomy : StoreSettings := ⟨2, 2, 4, 1, ⟨1000⟩⟩

/-- Two calls before a shutdown, one of them given up, and a call after it; a
    second shutdown and a publisher stand in line when the owner stops. -/
def stopping : List Action :=
  [.send (plain [1]), .send (plain [2]), .ask .dump, .ask .clear, .sendShutdown, .ask .stats,
    .sendShutdown, .giveUp 3, .start, .takeRequest, .drainRecord ⟨0, 0⟩, .serve, .takeRequest,
    .serve, .takeRequest]

/-- What comes of it. -/
def stoppingRun : Trace × System := ((System.new roomy).play stopping).get (by decide)

/-- **SHUTDOWN CUTS THE RUN CLEANLY**: of a shutdown that has entered the
    mailbox, the calls that entered before it are served when the owner comes
    to them, unless their clients have given up, and if it is the first one,
    the owner does not stop because of it before it has come to all of them.
    The calls that entered after it are never served; they come back closed,
    unless their clients have given up. As long as the owner runs it can get
    to its stop on its own. Once it has stopped, whatever the reason, it
    stays so, the buffer does not change any more, and everybody is turned
    away. -/
theorem shutdown_cuts_cleanly (run : Run settings t s) :
    (∀ (t₁ t₂ : Trace) (a : Action) (k : Nat), t = t₁ ++ (a, .shutdownSent k .accepted) :: t₂ →
        (∀ (id : Nat) (d : Demand), (Action.ask d, Event.queued id d) ∈ t₁ →
          (∀ (left : Nat) (d' : Demand) (s' : System) (e : Event),
            s.owner = .draining left id d' → s.isWaiting id = true →
            s.step .serve = some (s', e) →
            e = .served id d (s.buffer.reply settings.maxResults d))
          ∧ (none ∉ t₁.entered → (Action.takeRequest, Event.ownerStopped) ∈ t →
            Answered settings t id d ∨ PassedOver t id))
        ∧ (∀ (id : Nat) (d : Demand), (Action.ask d, Event.queued id d) ∈ t₂ →
          t.servings id = []
          ∧ (∀ v ∈ t.outcomes settings.timeout id, v = .error .closed
            ∨ v = .error (.timeout settings.timeout) ∧ (Action.giveUp id, Event.gaveUp id) ∈ t)
          ∧ (s.owner = .stopped → t.outcomes settings.timeout id = [] →
            s.step (.collect id) = some (s.forget id, .returned id none)))
        ∧ (s.owner ≠ .notStarted → s.owner ≠ .stopped →
          ∃ t' s', Service settings t t' s' ∧ (Action.takeRequest, Event.ownerStopped) ∈ t'))
      ∧ (s.owner = .stopped → ∀ (t' : Trace) (s' : System), Run settings (t ++ t') s' →
          s'.owner = .stopped ∧ s'.buffer = s.buffer ∧ TurnsAway (t ++ t') s') := by
  constructor
  · rintro t₁ t₂ a k rfl
    refine ⟨?_, ?_, run.stops_of_shutdown⟩
    · intro id d asked
      have hasked : (Action.ask d, Event.queued id d)
          ∈ t₁ ++ (a, .shutdownSent k .accepted) :: t₂ := List.mem_append_left _ asked
      constructor
      · intro left d' s' e owner waits hserve
        exact run.serves hasked owner waits hserve
      · intro first hstop
        exact run.answered_or_passedOver hasked (run.taken_before_shutdown first asked hstop)
          (run.stopped_of_mem hstop)
    · intro id d asked
      have hasked : (Action.ask d, Event.queued id d)
          ∈ t₁ ++ (a, .shutdownSent k .accepted) :: t₂ :=
        List.mem_append_right _ (List.mem_cons_of_mem _ asked)
      -- what is served was taken, and this call is not
      have hunserved : Trace.servings (t₁ ++ (a, .shutdownSent k .accepted) :: t₂) id = [] := by
        refine List.eq_nil_iff_forall_not_mem.mpr ?_
        rintro ⟨d', r⟩ hserved
        exact run.untaken_after_shutdown asked (run.taken_of_served hserved)
      refine ⟨hunserved, ?_, ?_⟩
      · intro v hv
        exact (run.outcome_of_unserved hasked hunserved hv).imp_left And.left
      · intro hstopped hout
        rcases run.call_of_unserved hasked hunserved hout with hwaiting | hdropped
        · exact absurd rfl ((run.halted hstopped).settled _ (mem_of_call? hwaiting))
        · exact (Step.collectNone hdropped).step_eq
  · intro hstopped t' s' run'
    obtain ⟨hhalted, hbuffer⟩ := (run.halted hstopped).append run run'
    exact ⟨hhalted.owner, hbuffer, run'.turnsAway hhalted⟩

/-- A store stopped between requests, with some before and some behind the
    shutdown. -/
theorem shutdown_cuts_cleanly_stopping :
    Run roomy stoppingRun.1 stoppingRun.2 ∧ stoppingRun.2.owner = .stopped
      ∧ (Answered roomy stoppingRun.1 2 .dump ∨ PassedOver stoppingRun.1 2)
      ∧ (Answered roomy stoppingRun.1 3 .clear ∨ PassedOver stoppingRun.1 3)
      ∧ stoppingRun.1.servings 5 = []
      ∧ stoppingRun.2.step (.collect 5) = some (stoppingRun.2.forget 5, .returned 5 none)
      ∧ stoppingRun.2.step (.resumeShutdown 6) = some (stoppingRun.2, .shutdownSent 6 .lost)
      ∧ stoppingRun.2.step (.resumeSend 1) = some (stoppingRun.2, .recordSent 1 .lost) := by
  have hrun : Run roomy stoppingRun.1 stoppingRun.2 := Run.of_play (by decide)
  obtain ⟨hcut, hafter⟩ := shutdown_cuts_cleanly hrun
  obtain ⟨hbefore, hlater, -⟩ :=
    hcut (stoppingRun.1.take 4) (stoppingRun.1.drop 5) .sendShutdown 4 rfl
  have hstop : (Action.takeRequest, Event.ownerStopped) ∈ stoppingRun.1 :=
    List.mem_of_getLast? rfl
  have hdump : (Action.ask .dump, Event.queued 2 .dump) ∈ stoppingRun.1.take 4 :=
    .tail _ (.tail _ (.head _))
  have hclear : (Action.ask .clear, Event.queued 3 .clear) ∈ stoppingRun.1.take 4 :=
    .tail _ (.tail _ (.tail _ (.head _)))
  have hstats : (Action.ask .stats, Event.queued 5 .stats) ∈ stoppingRun.1.drop 5 := .head _
  obtain ⟨hunserved, -, hcollect⟩ := hlater 5 .stats hstats
  obtain ⟨-, -, haway⟩ := hafter rfl [] stoppingRun.2 (by simpa using hrun)
  refine ⟨hrun, rfl, ?_, ?_, hunserved, hcollect rfl rfl, haway.shutdowns 6, haway.publishers 1⟩
  · exact (hbefore 2 .dump hdump).2 (by decide) hstop
  · exact (hbefore 3 .clear hclear).2 (by decide) hstop

end BusWindow.Store
