import BusWindow.Proofs.Histogram
import BusWindow.Proofs.Overload
import BusWindow.Proofs.Sessions

/-!
# Outcomes — one outcome of a query, on the page and for a program

    The page and the endpoint for programs go to the store for the same
    query, or not at all. What comes back is made a response by different
    code, but it has the same status and shows the same. A query that is too
    short or that cannot be understood is turned away first, whatever the
    store does; otherwise the status tells what became of the query.

    * `poll_answer` is one look of a client at its call, `finishFor_answer`
      its waiting and `run_ask` a whole session with one call: the call comes
      back at the latest when the clock has jumped to its deadline;
    * `Verdict` lists the ways in which a query comes back, each with its
      status, `Verdict.unique` says that they leave one outcome for it, and
      `Asked.verdict` finds the one that has happened;
    * `Twins` are a page and a response to a program that show the same;
    * `query_outcomes_agree` is the whole statement.
-/

namespace BusWindow

namespace Store

/-- A call was made in the state that a run had come to, and the run went on
    from there. -/
structure Asked (settings : StoreSettings) (d : Demand) (t : Trace) (s : System) (t' : Trace)
    (s' : System) : Prop where
  before : Run settings t s
  after : Run settings t' s'
  goes_on : ∃ e more, t' = t ++ (.ask d, e) :: more

end Store

/-! ## A session with one call -/

namespace Session

open Store

variable {settings : StoreSettings} {t : Trace} {session : Session} {s' : System} {a : Action}
  {e : Event} {id : Nat}

theorem perform_of_some (h : session.system.step a = some (s', e)) :
    session.perform a = ({ session with system := s' }, some e) := by
  rw [perform, h]

theorem perform_of_none (h : session.system.step a = none) :
    session.perform a = (session, none) := by
  rw [perform, h]

/-- No call comes back by what the owner does. -/
theorem outcome?_of_ownerStep (h : session.ownerStep = some (s', e)) :
    ∃ a, session.system.step a = some (s', e) ∧ ∀ timeout id, e.outcome? timeout id = none := by
  obtain ⟨a, ha, hstep⟩ := List.exists_of_findSome?_eq_some h
  refine ⟨a, hstep, ?_⟩
  intro timeout id
  simp only [List.mem_cons, List.not_mem_nil, or_false] at ha
  rcases ha with rfl | rfl | rfl | rfl
  · cases Step.of_step hstep with
    | takeRecord => rfl
  · cases Step.of_step hstep with
    | takeShutdown => rfl
    | takeDemand => rfl
  · cases Step.of_step hstep with
    | drainRecord => rfl
  · cases Step.of_step hstep with
    | serve => rfl
    | skip => rfl

/-- An open call stays open while the owner works. -/
theorem mem_keys_workFor (fuel : Nat) (hid : id ∈ session.system.calls.map Prod.fst) :
    id ∈ (workFor fuel session).system.calls.map Prod.fst := by
  induction fuel generalizing session with
  | zero => exact hid
  | succ fuel ih =>
      rw [workFor]
      cases h : session.ownerStep with
      | none => exact hid
      | some p =>
          obtain ⟨a, hstep, hnone⟩ := outcome?_of_ownerStep h
          rcases (Step.of_step hstep).reception.mem_keys ⟨0⟩ hid with hopen | hback
          · exact ih hopen
          · exact absurd (hnone _ _) hback

theorem clock_workFor (fuel : Nat) (session : Session) :
    (workFor fuel session).clock = session.clock := by
  induction fuel generalizing session with
  | zero => rfl
  | succ fuel ih =>
      rw [workFor]
      cases session.ownerStep with
      | none => rfl
      | some p => exact ih _

/-- A look at an open call brings it back, unless it waits and its time is
    not over. -/
theorem poll_answer (run : Run settings t session.system)
    (hid : id ∈ session.system.calls.map Prod.fst) (deadline : Nat) :
    (∃ (session' : Session) (x : Action × Event) (v : Except StoreError Reply),
        Run settings (t ++ [x]) session'.system ∧ x.2.outcome? settings.timeout id = some v
        ∧ ∀ {β : Type} (finish : Except StoreError Reply → β),
          session.poll (.answer id deadline finish) = (session', .finished (finish v), true))
      ∨ session.isOver (some deadline) = false
        ∧ ∀ {β : Type} (finish : Except StoreError Reply → β),
          session.poll (.answer id deadline finish)
            = (session, .answer id deadline finish, false) := by
  obtain ⟨call, hcall⟩ := exists_call?_of_mem_keys hid
  cases call with
  | waiting =>
      have hcollect : session.system.step (.collect id) = none := by simp [System.step, hcall]
      have hgiveUp := (Step.giveUp (isWaiting_iff.mpr hcall)).step_eq
      cases hover : session.isOver (some deadline) with
      | true =>
          refine Or.inl ⟨⟨session.system.forget id, session.clock⟩, _, _, run.step hgiveUp,
            if_pos rfl, ?_⟩
          intro β finish
          simp only [poll, perform_of_none hcollect, hover, if_true, perform_of_some hgiveUp,
            run.settings_eq]
      | false =>
          refine Or.inr ⟨rfl, ?_⟩
          intro β finish
          simp only [poll, perform_of_none hcollect, hover, Bool.false_eq_true, if_false]
  | answered reply =>
      have hcollect := (Step.collectReply hcall).step_eq
      refine Or.inl ⟨⟨session.system.forget id, session.clock⟩, _, _, run.step hcollect,
        if_pos rfl, ?_⟩
      intro β finish
      simp only [poll, perform_of_some hcollect]
  | dropped =>
      have hcollect := (Step.collectNone hcall).step_eq
      refine Or.inl ⟨⟨session.system.forget id, session.clock⟩, _, _, run.step hcollect,
        if_pos rfl, ?_⟩
      intro β finish
      simp only [poll, perform_of_some hcollect]

/-- One round of a session with one call that waits. -/
theorem finishFor_succ {β : Type} (fuel : Nat) (session : Session) (id deadline : Nat)
    (finish : Except StoreError Reply → β) :
    finishFor (fuel + 1) session [.answer id deadline finish]
      = if (session.work.poll (.answer id deadline finish)).2.2 then
          finishFor fuel (session.work.poll (.answer id deadline finish)).1
            [(session.work.poll (.answer id deadline finish)).2.1]
        else
          finishFor fuel
            { (session.work.poll (.answer id deadline finish)).1 with
              clock := max (session.work.poll (.answer id deadline finish)).1.clock deadline }
            [.answer id deadline finish] := by
  rw [finishFor]
  simp only [pollAll, Bool.or_false]
  rfl

theorem finishFor_finished {β : Type} (fuel : Nat) (session : Session) (result : β) :
    finishFor fuel session [.finished result] = (session, [some result]) := by
  cases fuel with
  | zero => rfl
  | succ fuel => rfl

theorem mem_outcomes_concat {x : Action × Event} {timeout : Duration}
    {v : Except StoreError Reply} (t : Trace) (h : x.2.outcome? timeout id = some v) :
    v ∈ Trace.outcomes (t ++ [x]) timeout id :=
  List.mem_filterMap.mpr ⟨x, List.mem_concat_self, h⟩

/-- Two rounds are enough for an open call: after the first one its time is
    over. -/
theorem finishFor_answer (run : Run settings t session.system)
    (hid : id ∈ session.system.calls.map Prod.fst) (deadline : Nat) :
    ∃ (session' : Session) (t' : Trace) (v : Except StoreError Reply),
      Run settings (t ++ t') session'.system ∧ v ∈ t'.outcomes settings.timeout id
      ∧ ∀ {β : Type} (finish : Except StoreError Reply → β) (fuel : Nat),
        finishFor (fuel + 2) session [.answer id deadline finish]
          = (session', [some (finish v)]) := by
  obtain ⟨t₁, run₁⟩ := leads_work session settings t run
  have hid₁ : id ∈ session.work.system.calls.map Prod.fst := mem_keys_workFor _ hid
  rcases poll_answer run₁ hid₁ deadline with ⟨session', x, v, run', hx, hpoll⟩ | ⟨-, hpoll⟩
  · rw [List.append_assoc] at run'
    refine ⟨session', t₁ ++ [x], v, run', mem_outcomes_concat t₁ hx, ?_⟩
    intro β finish fuel
    rw [finishFor_succ, hpoll, if_pos rfl, finishFor_finished]
  · -- the clock jumps to the deadline, and the store goes on from where it was
    have hjump : Run settings (t ++ t₁)
        { session.work with clock := max session.work.clock deadline : Session }.system := run₁
    obtain ⟨t₂, run₂⟩ := leads_work _ settings _ hjump
    rcases poll_answer run₂ (mem_keys_workFor _ hid₁) deadline with
      ⟨session', x, v, run', hx, hpoll₂⟩ | ⟨hover, -⟩
    · rw [List.append_assoc, List.append_assoc, ← List.append_assoc t₁] at run'
      refine ⟨session', t₁ ++ t₂ ++ [x], v, run', mem_outcomes_concat _ hx, ?_⟩
      intro β finish fuel
      rw [finishFor_succ, hpoll, if_neg Bool.false_ne_true, finishFor_succ, hpoll₂, if_pos rfl,
        finishFor_finished]
    · refine absurd hover ?_
      rw [isOver, work, clock_workFor]
      simp

/-- A call is back as it begins, or it is open and has a deadline. -/
theorem begin_ask (run : Run settings t session.system) (d : Demand) :
    ∃ (session' : Session) (t' : Trace),
      Asked settings d t session.system t' session'.system
      ∧ ((∃ v ∈ t'.outcomes settings.timeout session.system.next,
            ∀ {β : Type} (finish : Except StoreError Reply → β),
              session.begin (.ask d finish) = (session', .finished (finish v)))
        ∨ session.system.next ∈ session'.system.calls.map Prod.fst
          ∧ ∃ deadline, ∀ {β : Type} (finish : Except StoreError Reply → β),
              session.begin (.ask d finish)
                = (session', .answer session.system.next deadline finish)) := by
  have hrefused {s' : System} {error : StoreError}
      (h : session.system.step (.ask d) = some (s', .refused session.system.next error)) :
      Except.error error ∈ Trace.outcomes (t ++ [(.ask d, .refused session.system.next error)])
          settings.timeout session.system.next
        ∧ ∀ {β : Type} (finish : Except StoreError Reply → β),
          session.begin (.ask d finish)
            = (⟨s', session.clock⟩, .finished (finish (.error error))) := by
    refine ⟨mem_outcomes_concat t (if_pos rfl), ?_⟩
    intro β finish
    simp only [begin, perform_of_some h]
  cases hclosed : session.system.requests.closed with
  | true =>
      have hask := (@Step.askClosed _ d hclosed).step_eq
      exact ⟨⟨session.system.numberTaken, session.clock⟩, _, ⟨run, run.step hask, _, [], rfl⟩,
        Or.inl ⟨_, hrefused hask⟩⟩
  | false =>
      cases hroom : session.system.requests.hasRoom with
      | false =>
          have hask := (@Step.askOverloaded _ d hclosed hroom).step_eq
          exact ⟨⟨session.system.numberTaken, session.clock⟩, _, ⟨run, run.step hask, _, [], rfl⟩,
            Or.inl ⟨_, hrefused hask⟩⟩
      | true =>
          have hask := (@Step.askQueued _ d hclosed hroom).step_eq
          have run₁ := run.step hask
          by_cases hzero : settings.timeout.nanos = 0
          · -- its time is over as it begins
            have hunheard := (run.register.fresh session.system.next (Nat.le_refl _)).1
            have hwaiting : (session.system.enqueue d).call? session.system.next = some .waiting :=
              call?_of_concat rfl hunheard
            have hgiveUp := (Step.giveUp (isWaiting_iff.mpr hwaiting)).step_eq
            refine ⟨⟨(session.system.enqueue d).forget session.system.next, session.clock⟩, _,
              ⟨run, run₁.step hgiveUp, _, _, List.append_assoc ..⟩,
              Or.inl ⟨_, mem_outcomes_concat _ (if_pos rfl), ?_⟩⟩
            intro β finish
            simp only [begin, perform_of_some hask, run₁.settings_eq, if_pos hzero,
              @perform_of_some { session with system := session.system.enqueue d } _ _ _ hgiveUp]
          · refine ⟨⟨session.system.enqueue d, session.clock⟩, _, ⟨run, run₁, _, [], rfl⟩,
              Or.inr ⟨?_, session.clock + settings.timeout.nanos, ?_⟩⟩
            · simp [System.enqueue]
            · intro β finish
              simp only [begin, perform_of_some hask, run₁.settings_eq, if_neg hzero]

/-- A session with one call comes to its result, and the store has gone on
    from the call to its outcome. What is made of the outcome has no influence
    on it. -/
theorem run_ask (run : Run settings t session.system) (d : Demand) :
    ∃ (session' : Session) (t' : Trace) (v : Except StoreError Reply),
      Asked settings d t session.system t' session'.system
      ∧ v ∈ t'.outcomes settings.timeout session.system.next
      ∧ ∀ {β : Type} (finish : Except StoreError Reply → β),
        session.run [.ask d finish] = (session', [some (finish v)]) := by
  obtain ⟨session₁, t₁, asked, ⟨v, hv, hbegin⟩ | ⟨hid, deadline, hbegin⟩⟩ := begin_ask run d
  · refine ⟨session₁, t₁, v, asked, hv, ?_⟩
    intro β finish
    simp only [Session.run, beginAll, hbegin]
    exact finishFor_finished _ _ _
  · obtain ⟨session', t₂, v, run', hv, hfinish⟩ := finishFor_answer asked.after hid deadline
    obtain ⟨e, more, hsplit⟩ := asked.goes_on
    refine ⟨session', t₁ ++ t₂, v, ⟨run, run', e, more ++ t₂, ?_⟩, ?_, ?_⟩
    · rw [hsplit, List.append_assoc, List.cons_append]
    · rw [Trace.outcomes_append]
      exact List.mem_append_right _ hv
    · intro β finish
      simp only [Session.run, beginAll, hbegin]
      exact hfinish finish 2

end Session

/-- The status of a response to a query, as the outcome of the call has it. -/
def Http.statusOf : Except StoreError Reply → Nat
  | .ok _ => 200
  | .error e => (Failure.ofStore e).status

/-! ## What became of a query -/

namespace Store

variable {settings : StoreSettings} {q : Query} {t t' : Trace} {s s' : System}
  {v : Except StoreError Reply}

/-- A store in which a call joins the mailbox: the owner has not stopped, and
    there is a slot. -/
structure Admits (settings : StoreSettings) (s : System) : Prop where
  running : s.owner ≠ .stopped
  room : s.requests.taken ≠ slots settings

/-- The client of a call has given up. -/
def Trace.GaveUp (t : Trace) (id : Nat) : Prop := (Action.giveUp id, Event.gaveUp id) ∈ t

/-- How a query that was made in a state has come back, with the status that
    is due: it joined the mailbox and was served, or its time was over before
    it was served, or the owner stopped before it came to the query; or it was
    refused, because every slot was taken, or because the owner had stopped. -/
inductive Verdict (settings : StoreSettings) (q : Query) (s : System) (t : Trace) (s' : System) :
    Except StoreError Reply → Nat → Prop where
  | served {reply : Reply} (admitted : Admits settings s) (patient : ¬ t.GaveUp s.next)
      (served : t.servings s.next = [(.query q, reply)]) : Verdict settings q s t s' (.ok reply) 200
  | late (admitted : Admits settings s) (gaveUp : t.GaveUp s.next)
      (unserved : t.servings s.next = []) :
      Verdict settings q s t s' (.error (.timeout settings.timeout)) 504
  | dropped (admitted : Admits settings s) (patient : ¬ t.GaveUp s.next)
      (unserved : t.servings s.next = []) (stopped : s'.owner = .stopped) :
      Verdict settings q s t s' (.error .closed) 503
  | overloaded (running : s.owner ≠ .stopped) (full : s.requests.taken = slots settings)
      (patient : ¬ t.GaveUp s.next) (unserved : t.servings s.next = []) :
      Verdict settings q s t s' (.error .overloaded) 503
  | stopped (stopped : s.owner = .stopped) (patient : ¬ t.GaveUp s.next)
      (unserved : t.servings s.next = []) : Verdict settings q s t s' (.error .closed) 503

/-- What became of a query leaves one outcome and one status for it. -/
theorem Verdict.unique {v' : Except StoreError Reply} {n n' : Nat}
    (h : Verdict settings q s t s' v n) (h' : Verdict settings q s t s' v' n') :
    v' = v ∧ n' = n := by
  cases h with
  | served admitted patient served =>
      cases h' with
      | served _ _ served' =>
          obtain ⟨-, rfl⟩ := Prod.mk.inj (List.singleton_inj.mp (served'.symm.trans served))
          exact ⟨rfl, rfl⟩
      | late _ gaveUp => exact absurd gaveUp patient
      | dropped _ _ unserved => exact nomatch unserved.symm.trans served
      | overloaded _ full => exact absurd full admitted.room
      | stopped stopped => exact absurd stopped admitted.running
  | late admitted gaveUp unserved =>
      cases h' with
      | served _ patient => exact absurd gaveUp patient
      | late => exact ⟨rfl, rfl⟩
      | dropped _ patient => exact absurd gaveUp patient
      | overloaded _ full => exact absurd full admitted.room
      | stopped stopped => exact absurd stopped admitted.running
  | dropped admitted patient unserved =>
      cases h' with
      | served _ _ served => exact nomatch unserved.symm.trans served
      | late _ gaveUp => exact absurd gaveUp patient
      | dropped => exact ⟨rfl, rfl⟩
      | overloaded _ full => exact absurd full admitted.room
      | stopped => exact ⟨rfl, rfl⟩
  | overloaded running full =>
      cases h' with
      | served admitted => exact absurd full admitted.room
      | late admitted => exact absurd full admitted.room
      | dropped admitted => exact absurd full admitted.room
      | overloaded => exact ⟨rfl, rfl⟩
      | stopped stopped => exact absurd stopped running
  | stopped stopped =>
      cases h' with
      | served admitted => exact absurd stopped admitted.running
      | late admitted => exact absurd stopped admitted.running
      | dropped => exact ⟨rfl, rfl⟩
      | overloaded running => exact absurd stopped running
      | stopped => exact ⟨rfl, rfl⟩

/-- A client that has given up has got nothing but that its time was over. -/
theorem Trace.GaveUp.outcome {id : Nat} (h : t.GaveUp id) (timeout : Duration) :
    .error (.timeout timeout) ∈ t.outcomes timeout id :=
  List.mem_filterMap.mpr ⟨_, h, if_pos rfl⟩

/-- A query that has come back has come back once, in one of the ways. -/
theorem Asked.verdict (asked : Asked settings (.query q) t s t' s')
    (back : v ∈ t'.outcomes settings.timeout s.next) :
    t'.outcomes settings.timeout s.next = [v]
      ∧ Verdict settings q s t' s' v (Http.statusOf v) := by
  have run := asked.before
  have run' := asked.after
  obtain ⟨e, more, hsplit⟩ := asked.goes_on
  obtain ⟨s₀, s₁, run₀, hstep, -⟩ := (hsplit ▸ run').at_place
  obtain rfl := run.unique run₀
  have hasked : (Action.ask (.query q), e) ∈ t' :=
    hsplit ▸ List.mem_append_right _ List.mem_cons_self
  have hstory := run'.register.story s.next
  obtain ⟨honce, hcases⟩ := hstory.of_mem back
  refine ⟨honce, ?_⟩
  -- whatever it has come back with is all that it has come back with
  have honly {w : Except StoreError Reply} (h : w ∈ t'.outcomes settings.timeout s.next) :
      w = v := List.mem_singleton.mp (honce ▸ h)
  have hpatient (h : v ≠ .error (.timeout settings.timeout)) : ¬ t'.GaveUp s.next :=
    fun hgaveUp => h (honly (hgaveUp.outcome settings.timeout)).symm
  have hrefused {error : StoreError} (h : e = .refused s.next error) : v = .error error :=
    (honly (List.mem_filterMap.mpr ⟨_, hasked, h ▸ if_pos rfl⟩)).symm
  have hrunning (closed : s.requests.closed = false) : s.owner ≠ .stopped :=
    fun hstopped => nomatch closed.symm.trans (run.halted hstopped).requests
  cases hstep with
  | askClosed closed =>
      obtain rfl := hrefused rfl
      refine .stopped ?_ (hpatient nofun) (hstory.unserved_of_error back)
      by_contra hrunning
      exact nomatch closed.symm.trans (run.open_mailboxes hrunning).2
  | askOverloaded closed room =>
      obtain rfl := hrefused rfl
      exact .overloaded (hrunning closed) (run.full_iff.mp room) (hpatient nofun)
        (hstory.unserved_of_error back)
  | askQueued closed room =>
      have hadmits : Admits settings s := ⟨hrunning closed, run.hasRoom_iff.mp room⟩
      rcases hcases with ⟨d, reply, rfl, hserved⟩ | ⟨error, rfl, hunserved⟩
      · -- a number stands for one call, so what was served is this query
        have hquery : (s.next, Action.ask (.query q)) ∈ t'.begun :=
          List.mem_filterMap.mpr ⟨_, hasked, rfl⟩
        have hbegun := run'.asked_of_serving (hserved ▸ List.mem_cons_self)
        obtain rfl := Action.ask.inj (run'.begun_unique hbegun hquery)
        exact .served hadmits (hpatient nofun) hserved
      · rcases run'.outcome_of_unserved hasked hunserved back with
          ⟨heq, hstopped⟩ | ⟨heq, hgaveUp⟩
        · obtain rfl := Except.error.inj heq
          exact .dropped hadmits (hpatient nofun) hunserved hstopped
        · obtain rfl := Except.error.inj heq
          exact .late hadmits hgaveUp hunserved

end Store

/-! ## The two endpoints -/

namespace Http

open Store

variable {settings : Settings} {minLength : Nat} {raw : String}

/-- A text that is neither empty nor `*` and has fewer characters than it must
    have. -/
def TooShort (minLength : Nat) (raw : String) : Prop :=
  raw ≠ "" ∧ raw ≠ "*" ∧ raw.toList.length < minLength

/-- A text that is turned away whatever the store does: it is too short, or it
    cannot be understood. -/
def TurnedAway (minLength : Nat) (raw : String) : Prop :=
  TooShort minLength raw ∨ ∃ e, Query.parse raw = .error e

theorem not_tooShort_iff :
    ¬ TooShort minLength raw ↔ raw = "" ∨ raw = "*" ∨ minLength ≤ raw.toList.length := by
  rw [TooShort, not_and_or, not_and_or, not_not, not_not, not_lt]

theorem askQuery_of_turnedAway (h : TurnedAway minLength raw) :
    ∃ why, askQuery minLength raw = .done (.error (.badRequest why)) := by
  by_cases hshort : TooShort minLength raw
  · have hlong : ¬ (raw = "" ∨ raw = "*" ∨ minLength ≤ raw.toList.length) :=
      fun hlong => not_tooShort_iff.mpr hlong hshort
    rw [askQuery, checkLength, if_neg hlong]
    exact ⟨_, rfl⟩
  · obtain ⟨e, he⟩ := h.resolve_left hshort
    rw [askQuery, checkLength, if_pos (not_tooShort_iff.mp hshort), Errand.query, he]
    exact ⟨_, rfl⟩

theorem asks_of_not_turnedAway (h : ¬ TurnedAway minLength raw) :
    ∃ q, checkLength minLength raw = .ok () ∧ Query.parse raw = .ok q := by
  obtain ⟨hlong, hparse⟩ := not_or.mp h
  cases hq : Query.parse raw with
  | ok q => exact ⟨q, if_pos (not_tooShort_iff.mp hlong), rfl⟩
  | error e => exact absurd ⟨e, hq⟩ hparse

/-- The page for a query, made with some settings at some time. -/
structure IsPageFor (settings : IngestSettings) (created : Timestamp) (raw : String) (p : Page) :
    Prop where
  created : p.created = created
  query : p.query = raw
  classHeader : p.classHeader = settings.classHeader
  indentBodies : p.indentBodies = settings.indentJson

/-- A page and a response to a program that show the same: the messages of a
    reply in their order, its tally and its count of received messages; or the
    wording of a failure, and then the page has no message and no tally. -/
inductive Twins (settings : IngestSettings) (created : Timestamp) (raw : String) :
    Except Failure Reply → Response → Response → Prop where
  | shown {reply : Reply} {p : Page} {a : QueryAnswer} (page : IsPageFor settings created raw p)
      (notice : p.notice = none) (messages : p.messages = reply.messages)
      (frequencies : p.frequencies = reply.frequencies)
      (totalReceived : p.totalReceived = reply.totalReceived)
      (views : a.messages = p.messages.map .ofMessage)
      (same_frequencies : a.frequencies = p.frequencies)
      (same_total : a.totalReceived = p.totalReceived) :
      Twins settings created raw (.ok reply) (.html 200 p.render) (.json 200 a.form.compactBytes)
  | failed {f : Failure} {p : Page} {r : Response} (page : IsPageFor settings created raw p)
      (notice : p.notice = some f.message) (messages : p.messages = [])
      (frequencies : p.frequencies = []) (status : r.status = f.status)
      (body : r.body = (Json.Value.object [("error", .string f.message)]).compactBytes) :
      Twins settings created raw (.error f) (.html f.status p.render) r

/-- What the two endpoints make of one outcome. -/
theorem twins (settings : IngestSettings) (created : Timestamp) (raw : String)
    (outcome : Except Failure Reply) :
    Twins settings created raw outcome (pageResponse settings created raw outcome)
      (orFailure (outcome.map answerResponse)) := by
  cases outcome with
  | ok reply =>
      exact @Twins.shown settings created raw reply (replyPage settings created raw none reply)
        (answerOf reply) ⟨rfl, rfl, rfl, rfl⟩ rfl rfl rfl rfl rfl rfl rfl
  | error f =>
      have hbody : f.response.body
          = (Json.Value.object [("error", .string f.message)]).compactBytes := by
        rw [Failure.response, Response.json]
      exact @Twins.failed settings created raw f
        (replyPage settings created raw (some f.message) noReply) f.response
        ⟨rfl, rfl, rfl, rfl⟩ rfl rfl Tally.ofKeys_nil rfl hbody

/-- **ONE OUTCOME FOR BOTH**: the page and the endpoint for programs, asked the
    same, have one outcome. A query that is too short or that cannot be
    understood has the status 400 at once, whatever the store does, and the
    store, its mailboxes and the time stay as they were. For every other query
    both ask the store the same, and both responses have the one status that
    is due by what became of the query: 503 if every slot was taken or the
    owner has stopped, 504 if its time was over before it was served, and 200
    if it was served. Every session comes to such a response, and either endpoint
    leaves it in the same state. With 200 the page and the answer show the
    same messages in the same order, the same tally and the same count; with
    an error the page has its wording for a notice and shows nothing. -/
theorem query_outcomes_agree {created created' : Timestamp} {page program : Request}
    (gets : page.Gets "/") (gets' : program.Gets "/api/query")
    (text : queryText? page.target = some raw) (text' : queryText? program.target = some raw) :
    (TurnedAway settings.query.minLength raw →
      ∃ (why : String) (r r' : Response),
        respond settings created page = .done r
        ∧ respond settings created' program = .done r'
        ∧ Twins settings.ingest created raw (.error (.badRequest why)) r r'
        ∧ r.status = 400 ∧ r'.status = 400
        ∧ ∀ session : Session,
            session.run [respond settings created page] = (session, [some r])
            ∧ session.run [respond settings created' program] = (session, [some r']))
      ∧ (¬ TurnedAway settings.query.minLength raw →
        ∃ (q : Query) (finish finish' : Except StoreError Reply → Response),
          Query.parse raw = .ok q
          ∧ respond settings created page = .ask (.query q) finish
          ∧ respond settings created' program = .ask (.query q) finish'
          ∧ (∀ outcome,
              Twins settings.ingest created raw (outcome.mapError Failure.ofStore)
                (finish outcome) (finish' outcome)
              ∧ (finish outcome).status = statusOf outcome
              ∧ (finish' outcome).status = statusOf outcome)
          ∧ (∀ (t t' : Trace) (s s' : System) (v : Except StoreError Reply),
              Asked settings.store.toStore (.query q) t s t' s' →
              v ∈ t'.outcomes settings.store.toStore.timeout s.next →
              t'.outcomes settings.store.toStore.timeout s.next = [v]
                ∧ Verdict settings.store.toStore q s t' s' v (statusOf v)
                ∧ ∀ v' status, Verdict settings.store.toStore q s t' s' v' status →
                    v' = v ∧ status = statusOf v)
          ∧ ∀ (session : Session) (t : Trace), Run settings.store.toStore t session.system →
              ∃ (session' : Session) (t' : Trace) (v : Except StoreError Reply),
                session.run [respond settings created page] = (session', [some (finish v)])
                ∧ session.run [respond settings created' program]
                  = (session', [some (finish' v)])
                ∧ Asked settings.store.toStore (.query q) t session.system t' session'.system
                ∧ t'.outcomes settings.store.toStore.timeout session.system.next = [v]
                ∧ Verdict settings.store.toStore q session.system t' session'.system v
                    (statusOf v)) := by
  have hpage := @respond_page_eq settings created page raw gets text
  have hprogram := @respond_query_eq settings created' program raw gets' text'
  constructor
  · intro away
    obtain ⟨why, hask⟩ := askQuery_of_turnedAway away
    rw [hask] at hpage hprogram
    refine ⟨why, _, _, hpage, hprogram, twins settings.ingest created raw _, rfl, rfl, ?_⟩
    intro session
    rw [hpage, hprogram]
    exact ⟨rfl, rfl⟩
  · intro asks
    obtain ⟨q, long, parsed⟩ := asks_of_not_turnedAway asks
    rw [askQuery_of_parse long parsed] at hpage hprogram
    refine ⟨q, _, _, parsed, hpage, hprogram, ?_, ?_, ?_⟩
    · intro outcome
      refine ⟨twins settings.ingest created raw _, ?_⟩
      cases outcome with
      | ok reply => exact ⟨rfl, rfl⟩
      | error e => exact ⟨rfl, rfl⟩
    · intro t t' s s' v asked back
      obtain ⟨honce, hverdict⟩ := asked.verdict back
      exact ⟨honce, hverdict, fun v' status => hverdict.unique⟩
    · intro session t run
      obtain ⟨session', t', v, asked, back, hsession⟩ := session.run_ask run (.query q)
      obtain ⟨honce, hverdict⟩ := asked.verdict back
      rw [hpage, hprogram]
      exact ⟨session', t', v, hsession _, hsession _, asked, honce, hverdict⟩

/-- Settings with one slot for requests. -/
def oneSlot : Settings := { store := { requestQueue := 1 } }

/-- A session over a new store with one slot after some actions. -/
def sessionAfter (actions : List Store.Action) : Session :=
  ⟨(((System.new oneSlot.store.toStore).play actions).getD ([], System.new default)).2, 0⟩

/-- The status that a request gets after some actions. -/
def statusAfter (actions : List Store.Action) (request : Request) : List (Option Nat) :=
  ((sessionAfter actions).run [respond oneSlot ⟨0, 0⟩ request]).2.map (Option.map Response.status)

/-- A query that lies in the one slot and was given up. -/
def givenUp : List Store.Action := [.ask (.query .all), .giveUp 0]

/-- A request with a query of two characters, which take three bytes. -/
def accented (path : String) : Request :=
  ⟨"GET", ⟨Utf8.ofString path, Utf8.ofString "q=%C3%A9*"⟩, [], []⟩

theorem queryText?_accented (path : String) : queryText? (accented path).target = some "é*" :=
  show queryText? ⟨[], Utf8.ofString "q=%C3%A9*"⟩ = some "é*" by decide +kernel

/-- A query for everything is served by a store that was
    started, finds no slot behind one that was given up, waits in vain for a
    store that was not started, and is refused by one that was dropped. One of
    two characters is turned away by all of them. -/
theorem query_outcomes_agree_oneSlot :
    (∀ request ∈ [pageRequest, allRequest],
        statusAfter [.start] request = [some 200]
        ∧ statusAfter givenUp request = [some 503]
        ∧ statusAfter [] request = [some 504]
        ∧ statusAfter [.discard] request = [some 503])
      ∧ ∃ (why : String) (r r' : Response),
        Twins {} ⟨0, 0⟩ "é*" (.error (.badRequest why)) r r'
        ∧ ∀ actions,
          (sessionAfter actions).run [respond oneSlot ⟨0, 0⟩ (accented "/")]
            = (sessionAfter actions, [some r])
          ∧ (sessionAfter actions).run [respond oneSlot ⟨0, 0⟩ (accented "/api/query")]
            = (sessionAfter actions, [some r']) := by
  constructor
  · have hasks : ¬ TurnedAway oneSlot.query.minLength "*" := by
      rintro (⟨-, hstar, -⟩ | ⟨e, he⟩)
      · exact hstar rfl
      · exact nomatch he
    obtain ⟨q, finish, finish', parsed, hpage, hprogram, htwins, -⟩ :=
      (@query_outcomes_agree oneSlot "*" ⟨0, 0⟩ ⟨0, 0⟩ pageRequest allRequest ⟨rfl, rfl⟩
        ⟨rfl, rfl⟩ (queryText?_star _) (queryText?_star _)).2 hasks
    obtain rfl : .all = q := Except.ok.inj parsed
    have hconditions {request : Request} {finish : Except StoreError Reply → Response}
        (asks : respond oneSlot ⟨0, 0⟩ request = .ask (.query .all) finish)
        (status : ∀ v, (finish v).status = statusOf v) :
        statusAfter [.start] request = [some 200] ∧ statusAfter givenUp request = [some 503]
          ∧ statusAfter [] request = [some 504] ∧ statusAfter [.discard] request = [some 503] := by
      simp only [statusAfter, asks]
      refine ⟨?_, ?_, ?_, ?_⟩
      · exact congrArg (fun n => [some n]) (status (.ok _))
      · exact congrArg (fun n => [some n]) (status (.error .overloaded))
      · exact congrArg (fun n => [some n]) (status (.error (.timeout _)))
      · exact congrArg (fun n => [some n]) (status (.error .closed))
    intro request hrequest
    simp only [List.mem_cons, List.not_mem_nil, or_false] at hrequest
    rcases hrequest with rfl | rfl
    · exact hconditions hpage fun v => (htwins v).2.1
    · exact hconditions hprogram fun v => (htwins v).2.2
  · have haway : TurnedAway oneSlot.query.minLength "é*" :=
      Or.inl ⟨by decide, by decide, by decide⟩
    obtain ⟨why, r, r', -, -, htwins, -, -, hsession⟩ :=
      (@query_outcomes_agree oneSlot "é*" ⟨0, 0⟩ ⟨0, 0⟩ (accented "/") (accented "/api/query")
        ⟨rfl, rfl⟩ ⟨rfl, rfl⟩ (queryText?_accented _) (queryText?_accented _)).1 haway
    exact ⟨why, r, r', htwins, fun actions => hsession _⟩

end Http

end BusWindow
