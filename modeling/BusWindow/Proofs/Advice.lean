import BusWindow.Proofs.Endpoints
import BusWindow.Proofs.Outcomes

/-!
# Advice — which clients are told when to come back

    A client that is turned away because of the load is told to come back
    after a second by every endpoint but one: the page takes over the status
    of the failure and its wording, and leaves the advice out. No other cause
    is ever advised on, and every failure of a call has one status under all
    paths.

    * `Ended` is how a call has ended; by `Run.ended_unique` it has one end,
      and by `Session.run_call` a session brings it there;
    * `Makes` lists the calls that requests make; `Makes.relays` gives the
      response that reports how the call has ended, and by
      `makes_or_unadvised` every other response is without advice;
    * `tells_of_carried` is what a client is told in any run;
    * `advice_iff_overloaded_elsewhere` is the whole statement.
-/

namespace BusWindow

open Store

/-! ## Calls and their ends -/

namespace Errand

variable {α β γ : Type}

theorem map_map (g : β → γ) (f : α → β) (errand : Errand α) :
    (errand.map f).map g = errand.map (g ∘ f) := by
  cases errand with
  | done result => rfl
  | ask d finish => rfl
  | give records patience finish => rfl
  | shutdown patience finish => rfl
  | start finish => rfl
  | discard finish => rfl
  | settle result => rfl

end Errand

namespace Store

/-- A call as an errand, with its outcome for the result. -/
def Inquiry.call (q : Inquiry) : Errand (Except StoreError Reply) :=
  match q.demand with
  | .ok d => .ask d id
  | .error e => .done (.error (.invalidRange e))

/-- An inquiry with a demand calls the store. -/
theorem Inquiry.call_of_ok {q : Inquiry} {d : Demand} (h : q.demand = .ok d) :
    q.call = .ask d id := by
  rw [call, h]

/-- One without is turned away before it calls. -/
theorem Inquiry.call_of_error {q : Inquiry} {e : InvalidRange} (h : q.demand = .error e) :
    q.call = .done (.error (.invalidRange e)) := by
  rw [call, h]

/-- A query is asked by the call that it is. -/
theorem Inquiry.call_query (raw : String) : (Inquiry.query raw).call = Errand.query raw := by
  rw [Errand.query]
  cases hparse : Query.parse raw with
  | ok q => exact call_of_ok (by rw [demand, hparse]; rfl)
  | error e => exact call_of_error (by rw [demand, hparse]; rfl)

/-- How a call has ended in a stretch of a run, and the number that it went
    under: it was not understood and the store has not heard of it, or it was
    asked and has come back. -/
inductive Ended (timeout : Duration) (t : Trace) (q : Inquiry) :
    Option Nat → Except StoreError Reply → Prop where
  | misunderstood {e : InvalidRange} (misread : q.demand = .error e) :
      Ended timeout t q none (.error (.invalidRange e))
  | back {d : Demand} {id : Nat} {v : Except StoreError Reply} (understood : q.demand = .ok d)
      (begun : (id, .ask d) ∈ t.begun) (back : v ∈ t.outcomes timeout id) :
      Ended timeout t q (some id) v

/-- Only a refusal tells of an overload. -/
theorem Event.eq_refused_of_overloaded {timeout : Duration} {id : Nat} {e : Event}
    (h : e.outcome? timeout id = some (.error .overloaded)) : e = .refused id .overloaded := by
  cases e with
  | refused k error =>
      obtain ⟨rfl, herror⟩ := Option.ite_none_right_eq_some.mp h
      rw [Except.error.inj (Option.some.inj herror)]
  | returned k reply =>
      cases reply with
      | some reply => exact nomatch (Option.ite_none_right_eq_some.mp h).2
      | none => exact nomatch (Option.ite_none_right_eq_some.mp h).2
  | gaveUp k => exact nomatch (Option.ite_none_right_eq_some.mp h).2
  | _ => exact nomatch h

section Ended

variable {β : Type} {settings : StoreSettings} {timeout : Duration} {t t' : Trace} {s s' : System}
  {q : Inquiry} {number : Option Nat} {v v' : Except StoreError Reply}

/-- What is made of a call is made of its end. -/
theorem carried_call_iff {finish : Except StoreError Reply → β} {result : β} :
    Carried timeout t (q.call.map finish) number result
      ↔ ∃ v, Ended timeout t q number v ∧ result = finish v := by
  cases hd : q.demand with
  | error e =>
      rw [Inquiry.call_of_error hd]
      constructor
      · rintro ⟨⟩
        exact ⟨_, .misunderstood hd, rfl⟩
      · rintro ⟨v, hended, rfl⟩
        cases hended with
        | misunderstood misread =>
            obtain rfl := Except.error.inj (hd.symm.trans misread)
            exact .done _
        | back understood => exact nomatch hd.symm.trans understood
  | ok d =>
      rw [Inquiry.call_of_ok hd]
      constructor
      · rintro (⟨⟩ | ⟨begun, back⟩)
        exact ⟨_, .back hd begun back, rfl⟩
      · rintro ⟨v, hended, rfl⟩
        cases hended with
        | misunderstood misread => exact nomatch hd.symm.trans misread
        | back understood begun back =>
            obtain rfl := Except.ok.inj (hd.symm.trans understood)
            exact .ask begun back

/-- A call has one end. -/
theorem Run.ended_unique (run : Run settings (t ++ t') s')
    (h : Ended settings.timeout t' q number v) (h' : Ended settings.timeout t' q number v') :
    v = v' := by
  cases h with
  | misunderstood misread =>
      cases h' with
      | misunderstood misread' =>
          obtain rfl := Except.error.inj (misread.symm.trans misread')
          rfl
  | @back d id _ understood begun back =>
      cases h' with
      | back understood' begun' back' =>
          have hlater {w : Except StoreError Reply} (h : w ∈ t'.outcomes settings.timeout id) :
              w ∈ Trace.outcomes (t ++ t') settings.timeout id := by
            rw [Trace.outcomes_append]
            exact List.mem_append_right _ h
          obtain ⟨honce, -⟩ := (run.register.story id).of_mem (hlater back')
          exact List.mem_singleton.mp (honce ▸ hlater back)

/-- A call was turned away for the load in a stretch of a run: as it began,
    the owner had not stopped and every slot was taken. -/
structure Crowded (settings : StoreSettings) (t t' : Trace) (id : Nat) (s : System) : Prop where
  begins : ∃ u, u <+: t' ∧ Run settings (t ++ u) s
  number : s.next = id
  running : s.owner ≠ .stopped
  full : s.requests.taken = slots settings

/-- Whoever is refused because of the load finds every slot taken. -/
theorem Step.full_of_overloaded {a : Action} {id : Nat} (run : Run settings t s)
    (h : Step s a s' (.refused id .overloaded)) :
    s.next = id ∧ s.owner ≠ .stopped ∧ s.requests.taken = slots settings := by
  cases h with
  | askOverloaded closed room =>
      refine ⟨rfl, ?_, run.full_iff.mp room⟩
      intro hstopped
      exact nomatch closed.symm.trans (run.halted hstopped).requests

/-- A call that ended as overloaded came to a full mailbox. -/
theorem Run.crowded_of_ended (run : Run settings (t ++ t') s')
    (h : Ended settings.timeout t' q number (.error .overloaded)) :
    ∃ id s, number = some id ∧ Crowded settings t t' id s := by
  cases h with
  | @back d id _ understood begun back =>
      obtain ⟨⟨a, e⟩, hmem, hoverloaded⟩ := List.mem_filterMap.mp back
      obtain rfl := Event.eq_refused_of_overloaded hoverloaded
      obtain ⟨u, u', rfl⟩ := List.append_of_mem hmem
      rw [← List.append_assoc] at run
      obtain ⟨s₀, s₁, run₀, hstep, -⟩ := run.at_place
      obtain ⟨hnumber, hrunning, hfull⟩ := hstep.full_of_overloaded run₀
      exact ⟨id, s₀, rfl, ⟨u, List.prefix_append _ _, run₀⟩, hnumber, hrunning, hfull⟩

end Ended

/-- A call begins under the number that is next. -/
theorem Step.begins_ask {s s' : System} {d : Demand} {e : Event} (h : Step s (.ask d) s' e) :
    begins (.ask d, e) = some (s.next, .ask d) := by
  cases h with
  | askClosed => rfl
  | askQueued => rfl
  | askOverloaded => rfl

end Store

/-- A session with one call comes to the end of the call, whatever is made of
    it. -/
theorem Session.run_call {settings : StoreSettings} {t : Trace} {session : Session}
    (run : Run settings t session.system) (q : Inquiry) :
    ∃ (session' : Session) (t' : Trace) (number : Option Nat) (v : Except StoreError Reply),
      Run settings (t ++ t') session'.system
      ∧ Ended settings.timeout t' q number v
      ∧ ∀ {β : Type} (finish : Except StoreError Reply → β),
        session.run [q.call.map finish] = (session', [some (finish v)]) := by
  cases hd : q.demand with
  | error e =>
      refine ⟨session, [], none, _, (List.append_nil t).symm ▸ run, .misunderstood hd, ?_⟩
      intro β finish
      rw [Inquiry.call_of_error hd]
      rfl
  | ok d =>
      obtain ⟨session', u, v, asked, back, hrun⟩ := session.run_ask run d
      obtain ⟨e, more, rfl⟩ := asked.goes_on
      obtain ⟨s₀, s₁, run₀, hstep, -⟩ := asked.after.at_place
      obtain rfl := run.unique run₀
      refine ⟨session', (.ask d, e) :: more, some session.system.next, v, asked.after,
        .back hd ?_ ?_, ?_⟩
      · exact List.mem_filterMap.mpr ⟨_, List.mem_cons_self, hstep.begins_ask⟩
      · -- nothing came back under the number before it was given away
        have hfresh := (run.register.fresh session.system.next (Nat.le_refl _)).2.2
        rwa [Trace.outcomes_append, hfresh, List.nil_append] at back
      · intro β finish
        rw [Inquiry.call_of_ok hd]
        exact hrun finish

namespace Http

/-! ## Which calls requests make -/

/-- A request for reading what is under a path, with or without its body. -/
structure Request.Reads (request : Request) (path : String) : Prop where
  method : request.method = "GET" ∨ request.method = "HEAD"
  path : request.target.path = Utf8.ofString path

/-- The calls that requests make: a query on the page or for a program, if it
    is given once and not too short, one for the counters or for the dump, and
    a clearing. -/
inductive Makes (settings : Settings) (request : Request) : Inquiry → Prop where
  | query {path raw : String} (reads : request.Reads path)
      (place : path = "/" ∨ path = "/api/query") (text : queryText? request.target = some raw)
      (long : ¬ TooShort settings.query.minLength raw) : Makes settings request (.query raw)
  | stats (reads : request.Reads "/health") : Makes settings request .stats
  | dump (reads : request.Reads "/api/dump") : Makes settings request .dump
  | clear (clears : Clears request) : Makes settings request .clear

/-- The status that is due when a call has failed. -/
def dueStatus : StoreError → Nat
  | .invalidRange _ => 400
  | .overloaded => 503
  | .timeout _ => 504
  | .closed => 503

/-- Errors of the store have the status that is due to them. -/
theorem status_ofStore (e : StoreError) : (Failure.ofStore e).status = dueStatus e := by
  cases e with
  | invalidRange e => rfl
  | overloaded => rfl
  | timeout after => rfl
  | closed => rfl

/-- Only an overloaded store makes an overloaded failure. -/
theorem ofStore_eq_overloaded_iff {e : StoreError} :
    Failure.ofStore e = .overloaded ↔ e = .overloaded := by
  cases e with
  | overloaded => exact ⟨fun _ => rfl, fun _ => rfl⟩
  | invalidRange e => exact ⟨nofun, nofun⟩
  | timeout after => exact ⟨nofun, nofun⟩
  | closed => exact ⟨nofun, nofun⟩

/-- What is made of the end of a call on the page or elsewhere: every failure
    has its status, and an overload has the advice to come back after a
    second, though not on the page. There is no other advice. -/
structure Reports (onPage : Prop) (finish : Except StoreError Reply → Response) : Prop where
  status : ∀ e, (finish (.error e)).status = dueStatus e
  advice : ¬ onPage → (finish (.error .overloaded)).retryAfter = some "1"
  noAdvice : ∀ v, onPage ∨ v ≠ .error .overloaded → (finish v).retryAfter = none

/-- Off the page, what is shown of a reply has no advice, and a failure is
    told as it is. -/
theorem Reports.of_failures {onPage : Prop} {finish : Except StoreError Reply → Response}
    (elsewhere : ¬ onPage) (shown : ∀ reply, (finish (.ok reply)).retryAfter = none)
    (failed : ∀ e, finish (.error e) = (Failure.ofStore e).response) : Reports onPage finish where
  status := fun e => by rw [failed, ← status_ofStore]; rfl
  advice := fun _ => by rw [failed]; rfl
  noAdvice := by
    intro v hv
    cases v with
    | ok reply => exact shown reply
    | error e =>
        have hother : e ≠ .overloaded := fun he => hv.resolve_left elsewhere (congrArg _ he)
        rw [failed, Failure.response]
        exact if_neg fun h => hother (ofStore_eq_overloaded_iff.mp h)

/-- The page tells a failure by its notice. -/
theorem Reports.of_page {onPage : Prop} (here : onPage) (settings : IngestSettings)
    (created : Timestamp) (raw : String) :
    Reports onPage fun v => pageResponse settings created raw (v.mapError Failure.ofStore) where
  status := status_ofStore
  advice := fun elsewhere => absurd here elsewhere
  noAdvice := by
    intro v _
    cases v with
    | ok reply => rfl
    | error e => rfl

/-- Without its body a response reports the same. -/
theorem Reports.withoutBody {onPage : Prop} {finish : Except StoreError Reply → Response}
    (h : Reports onPage finish) : Reports onPage (Response.withoutBody ∘ finish) :=
  ⟨h.status, h.advice, h.noAdvice⟩

/-- A request is for the page. -/
def Request.OnPage (request : Request) : Prop := request.target.path = Utf8.ofString "/"

/-- An errand makes a call and reports what has become of it. -/
def Relays (onPage : Prop) (q : Inquiry) (errand : Errand Response) : Prop :=
  ∃ finish, errand = q.call.map finish ∧ Reports onPage finish

/-- Leaving the body out changes nothing about what is relayed. -/
theorem Relays.withoutBody {onPage : Prop} {q : Inquiry} {errand : Errand Response}
    (h : Relays onPage q errand) : Relays onPage q (errand.map Response.withoutBody) := by
  obtain ⟨finish, rfl, hreports⟩ := h
  exact ⟨_, Errand.map_map _ _ _, hreports.withoutBody⟩

/-- An errand makes no call, and its result has no advice. -/
inductive Unadvised : Errand Response → Prop where
  | done {r : Response} (none : r.retryAfter = none) : Unadvised (.done r)
  | give {records : List Record} {patience : Option Duration} {finish : Nat → Response}
      (none : ∀ n, (finish n).retryAfter = none) : Unadvised (.give records patience finish)

theorem Unadvised.withoutBody {errand : Errand Response} (h : Unadvised errand) :
    Unadvised (errand.map Response.withoutBody) := by
  cases h with
  | done none => exact .done none
  | give none => exact .give none

/-- What is unadvised has no advice, however it was carried out. -/
theorem Unadvised.retryAfter_eq {errand : Errand Response} (h : Unadvised errand)
    {timeout : Duration} {t : Trace} {number : Option Nat} {r : Response}
    (carried : Carried timeout t errand number r) : r.retryAfter = none := by
  cases h with
  | done none =>
      cases carried with
      | done => exact none
  | give none =>
      cases carried with
      | give => exact none 1

/-! ## What the endpoints do -/

section Endpoints

variable {settings : Settings} {created : Timestamp} {request : Request} {endpoint : Endpoint}
  {q : Inquiry} {raw path : String} {minLength : Nat}

/-- A query that is long enough is passed on as it is. -/
theorem askQuery_of_long (h : ¬ TooShort minLength raw) :
    askQuery minLength raw = (Inquiry.query raw).call.map fun v => v.mapError Failure.ofStore := by
  rw [askQuery, checkLength, if_pos (not_tooShort_iff.mp h), Inquiry.call_query]

/-- The path of an endpoint without a parameter. -/
theorem Endpoint.path_of_reading {path : Bytes} (leads : Endpoint.ofPath? path = some endpoint)
    (reads : endpoint.isReading = true) :
    path = Utf8.ofString "/" ∧ endpoint = .page
      ∨ path = Utf8.ofString "/health" ∧ endpoint = .health
      ∨ path = Utf8.ofString "/api/query" ∧ endpoint = .query
      ∨ path = Utf8.ofString "/api/dump" ∧ endpoint = .dump := by
  simp only [ofPath?] at leads
  split at leads
  · next hpath => exact Or.inl ⟨hpath, (Option.some.inj leads).symm⟩
  split at leads
  · next hpath => exact Or.inr (Or.inl ⟨hpath, (Option.some.inj leads).symm⟩)
  split at leads
  · next hpath => exact Or.inr (Or.inr (Or.inl ⟨hpath, (Option.some.inj leads).symm⟩))
  split at leads
  · next hpath => exact Or.inr (Or.inr (Or.inr ⟨hpath, (Option.some.inj leads).symm⟩))
  -- what is left carries a parameter
  split at leads
  · obtain ⟨command, -, rfl⟩ := Option.map_eq_some_iff.mp leads
    cases reads
  split at leads
  · obtain ⟨key, -, rfl⟩ := Option.map_eq_some_iff.mp leads
    cases reads
  · cases leads

/-- A request that reads is for an endpoint without a parameter. -/
theorem Request.Reads.takes (reads : request.Reads path) (reading : endpoint.isReading = true) :
    endpoint.takes request.method = true := by
  rw [Endpoint.takes, if_pos reading]
  simpa using reads.method

/-- What is done for a request that reads is what its endpoint does, with or
    without the body of the response. -/
theorem respond_of_reads (reads : request.Reads path)
    (leads : Endpoint.ofPath? (Utf8.ofString path) = some endpoint)
    (reading : endpoint.isReading = true) :
    respond settings created request = endpoint.respond settings created request
      ∨ respond settings created request
        = (endpoint.respond settings created request).map Response.withoutBody := by
  rw [respond, reads.path, leads]
  simp only [reads.takes reading, if_true]
  by_cases hhead : request.method = "HEAD"
  · exact Or.inr (if_pos hhead)
  · exact Or.inl (if_neg hhead)

/-- A request that reads relays what its endpoint relays. -/
theorem Relays.of_reads {onPage : Prop} (reads : request.Reads path)
    (leads : Endpoint.ofPath? (Utf8.ofString path) = some endpoint)
    (reading : endpoint.isReading = true)
    (h : Relays onPage q (endpoint.respond settings created request)) :
    Relays onPage q (respond settings created request) := by
  rcases @respond_of_reads settings created _ _ _ reads leads reading with hsame | hhead
  · rw [hsame]
    exact h
  · rw [hhead]
    exact h.withoutBody

/-- The response of an endpoint that shows every reply. -/
def shownOrFailure (shown : Reply → Response) : Except StoreError Reply → Response
  | .ok reply => shown reply
  | .error e => (Failure.ofStore e).response

/-- An endpoint that makes a response of every reply relays its call. -/
theorem relays_demanding {onPage : Prop} {d : Demand} {shown : Reply → Response}
    (elsewhere : ¬ onPage) (understood : q.demand = .ok d)
    (silent : ∀ reply, (shown reply).retryAfter = none) : Relays onPage q (demanding d shown) := by
  refine ⟨shownOrFailure shown, ?_, .of_failures elsewhere silent fun e => rfl⟩
  rw [Inquiry.call_of_ok understood]
  rfl

/-- An endpoint for queries relays the query that it is asked. -/
theorem relays_asking {onPage : Prop} {f : String → Except Failure Reply → Response}
    (reports : Reports onPage fun v => f raw (v.mapError Failure.ofStore))
    (text : queryText? request.target = some raw) (long : ¬ TooShort minLength raw) :
    Relays onPage (.query raw) (match queryText? request.target with
      | none => .done repeatedQuery
      | some raw => (askQuery minLength raw).map (f raw)) := by
  refine ⟨_, ?_, reports⟩
  rw [text]
  show (askQuery minLength raw).map (f raw) = _
  rw [askQuery_of_long long, Errand.map_map]
  rfl

/-- A request that makes a call gets a response that reports its end. -/
theorem Makes.relays (h : Makes settings request q) :
    Relays request.OnPage q (respond settings created request) := by
  have helsewhere {path : String} (hpath : request.target.path = Utf8.ofString path)
      (hne : Utf8.ofString path ≠ Utf8.ofString "/") : ¬ request.OnPage :=
    fun honPage => hne (hpath.symm.trans honPage)
  cases h with
  | query reads place text long =>
      rcases place with rfl | rfl
      · have hrelays : Relays request.OnPage (.query _)
            (Endpoint.page.respond settings created request) :=
          relays_asking (.of_page reads.path settings.ingest created _) text long
        exact hrelays.of_reads reads (by decide) rfl
      · have hreports : Reports request.OnPage allResponse :=
          .of_failures (helsewhere reads.path (by decide)) (fun _ => rfl) fun _ => rfl
        have hrelays : Relays request.OnPage (.query _)
            (Endpoint.query.respond settings created request) :=
          relays_asking (f := fun _ r => orFailure (r.map answerResponse)) hreports text long
        exact hrelays.of_reads reads (by decide) rfl
  | stats reads =>
      have hrelays : Relays request.OnPage .stats
          (Endpoint.health.respond settings created request) :=
        relays_demanding (helsewhere reads.path (by decide)) rfl fun _ => rfl
      exact hrelays.of_reads reads (by decide) rfl
  | dump reads =>
      have hrelays : Relays request.OnPage .dump
          (Endpoint.dump.respond settings created request) :=
        relays_demanding (helsewhere reads.path (by decide)) rfl fun _ => rfl
      exact hrelays.of_reads reads (by decide) rfl
  | clear clears =>
      rw [clears.respond]
      refine relays_demanding ?_ rfl fun _ => rfl
      intro honPage
      obtain ⟨segment, hpath, -⟩ := clears.command
      exact Endpoint.ne_of_behind?_eq_none (by decide) segment (hpath.symm.trans honPage)

/-! ## Requests that make no call -/

theorem Unadvised.of_reads (reads : request.Reads path)
    (leads : Endpoint.ofPath? (Utf8.ofString path) = some endpoint)
    (reading : endpoint.isReading = true)
    (h : Unadvised (endpoint.respond settings created request)) :
    Unadvised (respond settings created request) := by
  rcases @respond_of_reads settings created _ _ _ reads leads reading with hsame | hhead
  · rw [hsame]
    exact h
  · rw [hhead]
    exact h.withoutBody

/-- A query that is not asked is told so without advice, if what is made of a
    bad request has none. -/
theorem unadvised_asking {f : String → Except Failure Reply → Response}
    (silent : ∀ raw why, (f raw (.error (.badRequest why))).retryAfter = none)
    (uncalled : ∀ raw, queryText? request.target = some raw → TooShort minLength raw) :
    Unadvised (match queryText? request.target with
      | none => .done repeatedQuery
      | some raw => (askQuery minLength raw).map (f raw)) := by
  cases htext : queryText? request.target with
  | none => exact .done rfl
  | some raw =>
      obtain ⟨why, hwhy⟩ := askQuery_of_turnedAway (Or.inl (uncalled raw htext))
      show Unadvised ((askQuery minLength raw).map (f raw))
      rw [hwhy]
      exact .done (silent raw why)

/-- An unknown command is answered without advice. -/
theorem unadvised_control {segment : Bytes}
    (other : Utf8.decode? (Percent.decode segment) ≠ some "clear") :
    Unadvised (Endpoint.respond settings created request (.control segment)) := by
  rw [Endpoint.respond]
  cases hname : Utf8.decode? (Percent.decode segment) with
  | none => exact .done rfl
  | some name =>
      have hcommand : Command.ofName? name = none := by
        refine if_neg ?_
        rintro rfl
        exact other hname
      simp only [hcommand]
      exact .done rfl

/-- Publishing never calls, and is never advised to come back. -/
theorem unadvised_publish (segment : Bytes) :
    Unadvised (Endpoint.respond settings created request (.publish segment)) := by
  rw [Endpoint.respond]
  split
  · exact .done rfl
  · split
    · exact .done rfl
    · rw [takeIn, Errand.accept]
      split
      · exact .give fun _ => rfl
      · exact .done rfl

/-- A request that reads and makes no call gets a response without advice. -/
theorem unadvised_of_reading (silent : ∀ q, ¬ Makes settings request q)
    (leads : Endpoint.ofPath? request.target.path = some endpoint)
    (takes : endpoint.takes request.method = true) (reading : endpoint.isReading = true) :
    Unadvised (respond settings created request) := by
  have hmethod : request.method = "GET" ∨ request.method = "HEAD" := by
    rw [Endpoint.takes, if_pos reading] at takes
    simpa using takes
  have hreads {path : String} (hpath : request.target.path = Utf8.ofString path) :
      request.Reads path := ⟨hmethod, hpath⟩
  have hshort {path raw : String} (hpath : request.target.path = Utf8.ofString path)
      (place : path = "/" ∨ path = "/api/query") (text : queryText? request.target = some raw) :
      TooShort settings.query.minLength raw := by
    by_contra hlong
    exact silent _ (.query (hreads hpath) place text hlong)
  rcases Endpoint.path_of_reading leads reading with
    ⟨hpath, rfl⟩ | ⟨hpath, rfl⟩ | ⟨hpath, rfl⟩ | ⟨hpath, rfl⟩
  · have hunadvised : Unadvised (Endpoint.page.respond settings created request) :=
      unadvised_asking (fun _ _ => rfl) fun _ => hshort hpath (Or.inl rfl)
    exact hunadvised.of_reads (hreads hpath) (by decide) rfl
  · exact absurd (.stats (hreads hpath)) (silent _)
  · have hunadvised : Unadvised (Endpoint.query.respond settings created request) :=
      unadvised_asking (f := fun _ r => orFailure (r.map answerResponse))
        (fun _ _ => rfl) fun _ => hshort hpath (Or.inr rfl)
    exact hunadvised.of_reads (hreads hpath) (by decide) rfl
  · exact absurd (.dump (hreads hpath)) (silent _)

/-- A request that changes something and makes no call gets a response
    without advice. -/
theorem unadvised_of_changing (silent : ∀ q, ¬ Makes settings request q)
    (leads : Endpoint.ofPath? request.target.path = some endpoint)
    (takes : endpoint.takes request.method = true) (changing : endpoint.isReading = false) :
    Unadvised (respond settings created request) := by
  have hmethod : request.method = "POST" := by
    rw [Endpoint.takes, changing] at takes
    simpa using takes
  rw [respond_of_changing hmethod leads changing]
  obtain ⟨segment, hsegment, ⟨hpath, rfl⟩ | ⟨hpath, rfl⟩⟩ :=
    Endpoint.path_of_ofPath? leads changing
  · exact unadvised_control fun hname =>
      silent _ (.clear ⟨hmethod, segment, hpath, hsegment, hname⟩)
  · exact unadvised_publish segment

/-- A request makes a call, or its response has no advice. -/
theorem makes_or_unadvised (settings : Settings) (created : Timestamp) (request : Request) :
    (∃ q, Makes settings request q) ∨ Unadvised (respond settings created request) := by
  by_cases hmakes : ∃ q, Makes settings request q
  · exact Or.inl hmakes
  refine Or.inr ?_
  have hsilent (q : Inquiry) : ¬ Makes settings request q := fun h => hmakes ⟨q, h⟩
  cases hleads : Endpoint.ofPath? request.target.path with
  | none =>
      rw [respond, hleads]
      exact .done rfl
  | some endpoint =>
      cases htakes : endpoint.takes request.method with
      | false =>
          rw [respond, hleads]
          simp only [htakes]
          exact .done rfl
      | true =>
          cases hreading : endpoint.isReading with
          | true => exact unadvised_of_reading hsilent hleads htakes hreading
          | false => exact unadvised_of_changing hsilent hleads htakes hreading

end Endpoints

/-! ## What a client is told -/

/-- A request has made a call, and in a stretch of a run the call was turned
    away for the load. -/
def CallOverloaded (settings : Settings) (request : Request) (t : Trace) (number : Option Nat) :
    Prop :=
  ∃ q, Makes settings request q
    ∧ Ended settings.store.toStore.timeout t q number (.error .overloaded)

/-- One rule for the responses under all paths: a failure of the call has the
    status that is due, the response advises to come back after a second if
    and only if the call was turned away for the load, and there is no other
    advice. -/
structure Uniform (settings : Settings) (request : Request) (t : Trace) (number : Option Nat)
    (response : Response) : Prop where
  status : ∀ q e, Makes settings request q →
    Ended settings.store.toStore.timeout t q number (.error e) → response.status = dueStatus e
  advised_iff : response.retryAfter = some "1" ↔ CallOverloaded settings request t number
  noOther : response.retryAfter ≠ some "1" → response.retryAfter = none

/-- What the responses tell: a failure of the call by the status that is due,
    and by the advice to come back after a second, though not on the page,
    that the call was turned away for the load. There is no other advice. -/
structure Tells (settings : Settings) (request : Request) (t : Trace) (number : Option Nat)
    (response : Response) : Prop where
  status : ∀ q e, Makes settings request q →
    Ended settings.store.toStore.timeout t q number (.error e) → response.status = dueStatus e
  advised_iff : response.retryAfter = some "1"
    ↔ ¬ request.OnPage ∧ CallOverloaded settings request t number
  noOther : response.retryAfter ≠ some "1" → response.retryAfter = none

/-- The rule is broken on the page, when the call is turned away for the
    load, and nowhere else. -/
theorem Tells.uniform_iff {settings : Settings} {request : Request} {t : Trace}
    {number : Option Nat} {response : Response} (h : Tells settings request t number response) :
    Uniform settings request t number response
      ↔ ¬ (request.OnPage ∧ CallOverloaded settings request t number) := by
  constructor
  · rintro uniform ⟨here, overloaded⟩
    exact (h.advised_iff.mp (uniform.advised_iff.mpr overloaded)).1 here
  · intro hnot
    refine ⟨h.status, ?_, h.noOther⟩
    constructor
    · intro hadvice
      exact (h.advised_iff.mp hadvice).2
    · intro overloaded
      exact h.advised_iff.mpr ⟨fun here => hnot ⟨here, overloaded⟩, overloaded⟩

section Tells

variable {settings : Settings} {created : Timestamp} {request : Request} {t t' : Trace}
  {s : System} {number : Option Nat} {response : Response} {q : Inquiry}

/-- The response to a request that makes a call is made of the one end of the
    call. -/
theorem Makes.end_of_carried (makes : Makes settings request q)
    (run : Run settings.store.toStore (t ++ t') s)
    (carried : Carried settings.store.toStore.timeout t' (respond settings created request) number
      response) :
    ∃ finish v, Reports request.OnPage finish ∧ response = finish v
      ∧ Ended settings.store.toStore.timeout t' q number v
      ∧ ∀ v', Ended settings.store.toStore.timeout t' q number v' → v' = v := by
  obtain ⟨finish, hrespond, hreports⟩ := @Makes.relays settings created request q makes
  rw [hrespond] at carried
  obtain ⟨v, hended, hresponse⟩ := carried_call_iff.mp carried
  exact ⟨finish, v, hreports, hresponse, hended, fun v' h => run.ended_unique h hended⟩

/-- Whatever comes of a request tells what is due. -/
theorem tells_of_carried (run : Run settings.store.toStore (t ++ t') s)
    (carried : Carried settings.store.toStore.timeout t' (respond settings created request) number
      response) : Tells settings request t' number response where
  status := by
    intro q e makes ended
    obtain ⟨finish, v, hreports, rfl, -, honly⟩ := makes.end_of_carried run carried
    rw [← honly _ ended]
    exact hreports.status e
  advised_iff := by
    constructor
    · intro hadvice
      rcases makes_or_unadvised settings created request with ⟨q, makes⟩ | hunadvised
      · obtain ⟨finish, v, hreports, rfl, hended, -⟩ := makes.end_of_carried run carried
        have hadvised : ¬ (request.OnPage ∨ v ≠ .error .overloaded) := fun h =>
          nomatch hadvice.symm.trans (hreports.noAdvice v h)
        obtain ⟨helsewhere, hoverloaded⟩ := not_or.mp hadvised
        exact ⟨helsewhere, q, makes, not_not.mp hoverloaded ▸ hended⟩
      · exact nomatch hadvice.symm.trans (hunadvised.retryAfter_eq carried)
    · rintro ⟨helsewhere, q, makes, ended⟩
      obtain ⟨finish, v, hreports, rfl, -, honly⟩ := makes.end_of_carried run carried
      rw [← honly _ ended]
      exact hreports.advice helsewhere
  noOther := by
    intro hadvice
    rcases makes_or_unadvised settings created request with ⟨q, makes⟩ | hunadvised
    · obtain ⟨finish, v, hreports, rfl, -⟩ := makes.end_of_carried run carried
      refine hreports.noAdvice v (or_iff_not_imp_left.mpr fun helsewhere hv => hadvice ?_)
      rw [hv]
      exact hreports.advice helsewhere
    · exact hunadvised.retryAfter_eq carried

end Tells

/-- **OVERLOAD IS ADVISED EVERYWHERE BUT ON THE PAGE**: whatever a request
    looks like, and whatever state its call finds the store in, a failure of
    the call has one status under every path: 400 if the query cannot be
    understood, 503 if the call was turned away for the load, which happens
    if every slot is taken, or if the owner has stopped, and 504 if its time
    was over. The response advises to come back after a second if and only if
    the call was turned away for the load and the request is not for the
    page, and there is no other advice. So one rule holds for all responses,
    except for those on the page to a call that was turned away for the load.
    From every state that a store can come to, a session with a request that
    makes a call comes to a response. -/
theorem advice_iff_overloaded_elsewhere (settings : Settings) (created : Timestamp)
    (request : Request) :
    (∀ (t t' : Trace) (s : System) (number : Option Nat) (response : Response),
        Run settings.store.toStore (t ++ t') s →
        Carried settings.store.toStore.timeout t' (respond settings created request) number
          response →
        Tells settings request t' number response
          ∧ (Uniform settings request t' number response
            ↔ ¬ (request.OnPage ∧ CallOverloaded settings request t' number))
          ∧ (CallOverloaded settings request t' number →
              ∃ id s, number = some id ∧ Crowded settings.store.toStore t t' id s))
      ∧ ∀ (t : Trace) (session : Session) (q : Inquiry), Makes settings request q →
          Run settings.store.toStore t session.system →
          ∃ (session' : Session) (t' : Trace) (number : Option Nat)
            (v : Except StoreError Reply) (response : Response),
            Run settings.store.toStore (t ++ t') session'.system
            ∧ Ended settings.store.toStore.timeout t' q number v
            ∧ Carried settings.store.toStore.timeout t' (respond settings created request) number
                response
            ∧ session.run [respond settings created request] = (session', [some response]) := by
  constructor
  · intro t t' s number response run carried
    have htells := tells_of_carried run carried
    refine ⟨htells, htells.uniform_iff, ?_⟩
    rintro ⟨q, -, ended⟩
    exact run.crowded_of_ended ended
  · intro t session q makes run
    obtain ⟨finish, hrespond, -⟩ := @Makes.relays settings created request q makes
    obtain ⟨session', t', number, v, run', hended, hsession⟩ := session.run_call run q
    refine ⟨session', t', number, v, finish v, run', hended, ?_, ?_⟩
    · rw [hrespond]
      exact carried_call_iff.mpr ⟨v, hended, rfl⟩
    · rw [hrespond]
      exact hsession finish

/-- A store whose one slot is taken by a call that was given up. -/
def pressedRun : Trace × System := ((System.new oneSlot.store.toStore).play givenUp).get rfl

/-- The next request for everything is turned away. -/
def turnedAwayTrace : Trace := [(.ask (.query .all), .refused 1 .overloaded)]

theorem run_pressedRun : Run oneSlot.store.toStore pressedRun.1 pressedRun.2 := Run.of_play rfl

theorem run_turnedAway :
    Run oneSlot.store.toStore (pressedRun.1 ++ turnedAwayTrace) pressedRun.2.numberTaken :=
  run_pressedRun.step (Step.askOverloaded rfl rfl).step_eq

/-- A query for everything is turned away for the load. -/
theorem ended_turnedAway : Ended oneSlot.store.toStore.timeout turnedAwayTrace (.query "*")
    (some 1) (.error .overloaded) :=
  .back (d := .query .all) (by decide) (.head _) (.head _)

theorem makes_allRequest : Makes oneSlot allRequest (.query "*") :=
  .query ⟨Or.inl rfl, rfl⟩ (Or.inr rfl) (queryText?_star _) fun h => h.2.1 rfl

theorem makes_pageRequest : Makes oneSlot pageRequest (.query "*") :=
  .query ⟨Or.inl rfl, rfl⟩ (Or.inl rfl) (queryText?_star _) fun h => h.2.1 rfl

/-- A program that is turned away for the load is told when to come back. -/
theorem advice_iff_overloaded_elsewhere_program : ∃ response : Response,
    Carried oneSlot.store.toStore.timeout turnedAwayTrace (respond oneSlot ⟨0, 0⟩ allRequest)
      (some 1) response
      ∧ response.status = 503 ∧ response.retryAfter = some "1" := by
  obtain ⟨finish, hrespond, -⟩ := @Makes.relays _ ⟨0, 0⟩ _ _ makes_allRequest
  have hcarried : Carried oneSlot.store.toStore.timeout turnedAwayTrace
      (respond oneSlot ⟨0, 0⟩ allRequest) (some 1) (finish (.error .overloaded)) := by
    rw [hrespond]
    exact carried_call_iff.mpr ⟨_, ended_turnedAway, rfl⟩
  obtain ⟨htells, -⟩ := (advice_iff_overloaded_elsewhere oneSlot ⟨0, 0⟩ allRequest).1 _ _ _ _ _
    run_turnedAway hcarried
  refine ⟨_, hcarried, htells.status _ _ makes_allRequest ended_turnedAway,
    htells.advised_iff.mpr ⟨?_, ?_⟩⟩
  · show Utf8.ofString "/api/query" ≠ Utf8.ofString "/"
    decide
  · exact ⟨_, makes_allRequest, ended_turnedAway⟩

/-- A reader who is turned away for the load in the same state sees the status
    on the page, and is not told when to come back. -/
theorem page_leaves_the_advice_out : ∃ response : Response,
    Run oneSlot.store.toStore (pressedRun.1 ++ turnedAwayTrace) pressedRun.2.numberTaken
      ∧ Carried oneSlot.store.toStore.timeout turnedAwayTrace (respond oneSlot ⟨0, 0⟩ pageRequest)
          (some 1) response
      ∧ CallOverloaded oneSlot pageRequest turnedAwayTrace (some 1)
      ∧ response.status = 503 ∧ response.retryAfter = none
      ∧ ¬ Uniform oneSlot pageRequest turnedAwayTrace (some 1) response := by
  obtain ⟨finish, hrespond, hreports⟩ := @Makes.relays _ ⟨0, 0⟩ _ _ makes_pageRequest
  have hoverloaded : CallOverloaded oneSlot pageRequest turnedAwayTrace (some 1) :=
    ⟨_, makes_pageRequest, ended_turnedAway⟩
  have hnone : (finish (.error .overloaded)).retryAfter = none :=
    hreports.noAdvice _ (Or.inl rfl)
  refine ⟨finish (.error .overloaded), run_turnedAway, ?_, hoverloaded, hreports.status _, hnone,
    ?_⟩
  · rw [hrespond]
    exact carried_call_iff.mpr ⟨_, ended_turnedAway, rfl⟩
  · intro uniform
    exact nomatch hnone.symm.trans (uniform.advised_iff.mpr hoverloaded)

end Http

end BusWindow
