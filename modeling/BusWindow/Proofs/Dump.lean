import BusWindow.Http.Router
import BusWindow.Message.Form
import BusWindow.Proofs.Canonical
import BusWindow.Proofs.Intake

/-!
# The dump — one array of what was published

    The dump puts the kept bodies one after the other between brackets and
    never reads them. It is an array all the same, because every kept body is
    the compact text of a value, and the text of an array is made of the
    texts of its items in just this way.

    * `Published.splices` finds the delivery of a message that is kept, by way
      of its sending, and says which value its body stands for;
    * `parse_dumpText` reads such bodies as one array;
    * `dump_is_what_was_published` is the whole statement.
-/

namespace BusWindow

open Json

/-- A text that stands for a value as an item of an array: the value reads
    back from it and leaves room for the array. -/
structure Splices (text : Bytes) (v : Value) : Prop where
  text_eq : text = v.compactBytes
  exact : v.isExact = true
  ordered : v.Ordered
  nesting : v.nesting ≤ 126

theorem Splices.bodyOf_eq {text : Bytes} {v : Value} (h : Splices text v) :
    MessageView.bodyOf text = v := by
  rw [h.text_eq, MessageView.bodyOf, Value.compactBytes_eq,
    parse_written .compact h.exact h.ordered (Nat.le_succ_of_le h.nesting)]

/-! ## Where a message comes from -/

namespace Store

variable {settings : StoreSettings} {ignored : List String} {source : Nat → Delivery}
  {t : Trace} {s : System} {m : Message}

/-- Every record that went off was made of a delivery whose body has an exact
    value with room for an array around it; the deliveries are told by the
    numbers of the sendings. -/
def Published (ignored : List String) (source : Nat → Delivery) (t : Trace) : Prop :=
  ∀ (id : Nat) (r : Record), id ∈ t.sent → (id, Action.send r) ∈ t.begun →
    (source id).record ignored = .ok r
      ∧ ∃ v, parse (source id).body = .ok v ∧ v.isExact = true ∧ v.nesting ≤ 126

/-- A value is that of the body which was delivered for a message: the
    message with the number `n` comes of the sending that was completed after
    `n` others. -/
def Delivered (source : Nat → Delivery) (t : Trace) (m : Message) (v : Value) : Prop :=
  ∃ id, t.sent[m.seq.toNat]? = some id ∧ parse (source id).body = .ok v

/-- A message that is kept has the record whose sending was completed in its
    place. -/
theorem Run.sent_of_mem (run : Run settings t s) (running : s.owner ≠ .stopped)
    (h : m ∈ s.buffer.toList) :
    ∃ id, t.sent[m.seq.toNat]? = some id ∧ (id, Action.send m.record) ∈ t.begun := by
  rw [run.buffer_eq] at h
  obtain ⟨i, hi⟩ := List.mem_iff_getElem?.mp (Buffer.mem_history_of_mem h)
  have hseq : m.seq.toNat = i := by
    rw [Work.getElem?_history hi]
    rfl
  -- its record stands at the same place among the records that were sent
  have hrecord : t.sentRecords[i]? = some m.record := by
    have hnumbered : (t.numbered.map Message.record)[i]? = some m.record := by
      rw [run.numbered_eq, List.getElem?_map, hi]
      rfl
    obtain ⟨hlt, -⟩ := List.getElem?_eq_some_iff.mp hnumbered
    rw [run.ledger.flow running, List.getElem?_append_left hlt, hnumbered]
  have hsent : t.sentRecords = t.sent.map fun id => (t.recordOf id).getD default := by
    rw [Trace.sentRecords, ← List.filterMap_eq_map]
    refine List.filterMap_congr fun id hid => ?_
    obtain ⟨r, hr⟩ := run.ledger.sent_begun id hid
    simp [run.recordOf_eq hr]
  rw [hsent, List.getElem?_map] at hrecord
  obtain ⟨id, hid, hr⟩ := Option.map_eq_some_iff.mp hrecord
  obtain ⟨r, hbegun⟩ := run.ledger.sent_begun id (List.mem_of_getElem? hid)
  rw [run.recordOf_eq hbegun] at hr
  exact ⟨id, hseq ▸ hid, hr ▸ hbegun⟩

/-- What is kept of a message can be spliced as the value that was
    delivered. -/
theorem Published.splices (published : Published ignored source t) (run : Run settings t s)
    (running : s.owner ≠ .stopped) (h : m ∈ s.buffer.toList) :
    ∃ v, Splices m.body v ∧ Delivered source t m v := by
  obtain ⟨id, hid, hbegun⟩ := run.sent_of_mem running h
  obtain ⟨accepted, v, value, exact, nesting⟩ :=
    published id m.record (List.mem_of_getElem? hid) hbegun
  obtain ⟨ordered, -⟩ := ordered_of_parse value
  exact ⟨v, ⟨Delivery.body_of_record accepted value, exact, ordered, nesting⟩, id, hid, value⟩

end Store

/-! ## The text of the dump -/

/-- The values of the bodies of messages, as they are shown. -/
def shownBodies (messages : List Message) : List Value :=
  messages.map fun m => MessageView.bodyOf m.body

namespace Http

/-- Texts with a comma between them are the text of an array without its
    brackets. -/
theorem separated_cons (s : Bytes) (rest : List Bytes) :
    separated 0x2C (s :: rest) = s ++ rest.flatMap fun r => 0x2C :: r := by
  induction rest generalizing s with
  | nil => simp [separated]
  | cons r rest ih => simp [separated, ih]

/-- The text of an array is made of the texts of its items. -/
theorem compactBytes_array (items : List Value) :
    (Value.array items).compactBytes
      = 0x5B :: separated 0x2C (items.map Value.compactBytes) ++ [0x5D] := by
  rw [← Value.written_compact _ 0]
  cases items with
  | nil => exact Value.written_array_nil
  | cons v rest =>
      rw [Value.written_array_cons, List.map_cons, separated_cons, List.flatMap_map]
      simp only [Value.gap_compact, Value.written_compact, List.nil_append, List.append_assoc,
        List.cons_append]

/-- The dump of messages whose bodies can be spliced reads as the array of
    their values. -/
theorem parse_dumpText {messages : List Message}
    (h : ∀ m ∈ messages, Splices m.body (MessageView.bodyOf m.body)) :
    parse (dumpText messages) = .ok (.array (shownBodies messages)) := by
  have hbodies : messages.map Message.body = (shownBodies messages).map Value.compactBytes := by
    rw [shownBodies, List.map_map]
    exact List.map_congr_left fun m hm => (h m hm).text_eq
  rw [dumpText, hbodies, ← compactBytes_array, Value.compactBytes_eq]
  refine parse_written .compact ?_ ?_ ?_
  · rw [Value.isExact_array, shownBodies, List.forall_mem_map]
    exact fun m hm => (h m hm).exact
  · rw [Value.ordered_array, shownBodies, List.forall_mem_map]
    exact fun m hm => (h m hm).ordered
  · -- the array takes the one level that its items leave
    rw [greatestDepth, Value.nesting_array_le, shownBodies, List.forall_mem_map]
    exact fun m hm => (h m hm).nesting

/-! ## The responses -/

/-- A request for reading what is under a path. -/
structure Request.Gets (request : Request) (path : String) : Prop where
  method : request.method = "GET"
  path : request.target.path = Utf8.ofString path

variable {settings : Settings} {created : Timestamp} {request : Request} {raw : String} {q : Query}

/-- What is done for a request that reads is what its endpoint does. -/
theorem respond_of_gets {path : String} {endpoint : Endpoint} (gets : request.Gets path)
    (leads : Endpoint.ofPath? (Utf8.ofString path) = some endpoint)
    (reads : endpoint.isReading = true) :
    respond settings created request = endpoint.respond settings created request := by
  have htakes : endpoint.takes request.method = true := by
    rw [Endpoint.takes, if_pos reads, gets.method]
    rfl
  rw [respond, gets.path, leads]
  simp only [htakes, if_true]
  rw [if_neg (by rw [gets.method]; decide)]

/-- The response to a request for the dump. -/
def dumpResponse : Except StoreError Reply → Response
  | .ok reply => .json 200 (dumpText reply.messages)
  | .error e => (Failure.ofStore e).response

theorem respond_dump (gets : request.Gets "/api/dump") :
    respond settings created request = .ask .dump dumpResponse := by
  have hleads : Endpoint.ofPath? (Utf8.ofString "/api/dump") = some .dump := by decide
  rw [respond_of_gets gets hleads rfl, Endpoint.respond, demanding]
  rfl

/-- A text that is long enough and can be read is asked of the store. -/
theorem askQuery_of_parse {minLength : Nat} (long : checkLength minLength raw = .ok ())
    (parsed : Query.parse raw = .ok q) :
    askQuery minLength raw = .ask (.query q) fun outcome => outcome.mapError Failure.ofStore := by
  rw [askQuery, long, Errand.query, parsed]
  rfl

/-- The response to a request that asks for everything. -/
def allResponse (outcome : Except StoreError Reply) : Response :=
  orFailure ((outcome.mapError Failure.ofStore).map answerResponse)

theorem allResponse_ok (reply : Reply) :
    allResponse (.ok reply) = .json 200 (answerOf reply).form.compactBytes := rfl

/-- The endpoint for programs makes an answer of what comes of asking. -/
theorem respond_query_eq (gets : request.Gets "/api/query")
    (text : queryText? request.target = some raw) :
    respond settings created request
      = (askQuery settings.query.minLength raw).map fun r => orFailure (r.map answerResponse) := by
  have hleads : Endpoint.ofPath? (Utf8.ofString "/api/query") = some .query := by decide
  rw [respond_of_gets gets hleads rfl, Endpoint.respond, text]

theorem respond_query (gets : request.Gets "/api/query")
    (text : queryText? request.target = some raw)
    (long : checkLength settings.query.minLength raw = .ok ()) (parsed : Query.parse raw = .ok q) :
    respond settings created request = .ask (.query q) allResponse := by
  rw [respond_query_eq gets text, askQuery_of_parse long parsed]
  rfl

theorem respond_all (gets : request.Gets "/api/query")
    (all : queryText? request.target = some "*") :
    respond settings created request = .ask (.query .all) allResponse :=
  respond_query gets all (if_pos (Or.inr (Or.inl rfl))) (by decide)

/-- An answer shows, in its order, the values of the bodies of its messages. -/
theorem member_messages_answerOf (reply : Reply) :
    ∃ views, (answerOf reply).form.member? "messages" = some (.array views)
      ∧ views.map (Value.member? "body") = (shownBodies reply.messages).map some := by
  refine ⟨(answerOf reply).messages.map MessageView.form, rfl, ?_⟩
  rw [answerOf, shownBodies, List.map_map, List.map_map, List.map_map]
  exact List.map_congr_left fun m _ => rfl

end Http

/-! ## The state in which a request is served -/

/-- The reply to a query for everything leaves nothing out if it may hold as
    many messages as are kept. -/
theorem Buffer.messages_reply_all {b : Buffer} {limit : Nat} (h : b.size ≤ limit) :
    (b.reply limit (.query .all)).messages = b.toList := by
  show b.toList.drop (b.size - min b.size limit) = b.toList
  rw [Nat.min_eq_left h, Nat.sub_self, List.drop_zero]

namespace Store

variable {settings : StoreSettings} {t : Trace} {s s' : System} {id : Nat} {d : Demand}
  {reply : Reply}

/-- Whoever serves a request has not stopped, and replies what the buffer
    says. -/
theorem Run.reply_of_serve (run : Run settings t s)
    (served : s.step .serve = some (s', .served id d reply)) :
    s.owner ≠ .stopped ∧ reply = s.buffer.reply settings.maxResults d := by
  have hsettings := run.settings_eq
  cases Step.of_step served with
  | serve owner => exact ⟨fun hstopped => (nomatch owner.symm.trans hstopped), by rw [hsettings]⟩

end Store

namespace Http

open Store

/-- **THE DUMP IS WHAT WAS PUBLISHED**: when the owner serves a request for
    the dump, the body of the response reads as one array with as many items
    as messages are kept, and each item is the value of the body that was
    delivered for the message in its place, oldest first. If not more
    messages are kept than a reply may hold, a query for everything that is
    served in the same state shows the same values in the same order. -/
theorem dump_is_what_was_published {settings : Settings} {source : Nat → Delivery} {t : Trace}
    {s s' : System} {id : Nat} {reply : Reply} {created : Timestamp} {request : Request}
    (run : Run settings.store.toStore t s)
    (published : Published settings.ingest.ignoreKeys source t)
    (served : s.step .serve = some (s', .served id .dump reply))
    (gets : request.Gets "/api/dump") :
    ∃ (finish : Except StoreError Reply → Response) (items : List Value),
      respond settings created request = .ask .dump finish
      ∧ (finish (.ok reply)).status = 200
      ∧ parse (finish (.ok reply)).body = .ok (.array items)
      ∧ items.length = s.buffer.size
      ∧ List.Forall₂ (Delivered source t) s.buffer.toList items
      ∧ (s.buffer.size ≤ settings.store.maxResults →
          ∀ (t₁ : Trace) (s₁ s₂ : System) (id' : Nat) (reply' : Reply) (created' : Timestamp)
            (request' : Request), Run settings.store.toStore t₁ s₁ → s₁.buffer = s.buffer →
          s₁.step .serve = some (s₂, .served id' (.query .all) reply') →
          request'.Gets "/api/query" → queryText? request'.target = some "*" →
          ∃ (finish' : Except StoreError Reply → Response) (answer : Value) (views : List Value),
            respond settings created' request' = .ask (.query .all) finish'
            ∧ (finish' (.ok reply')).status = 200
            ∧ (finish' (.ok reply')).body = answer.compactBytes
            ∧ answer.member? "messages" = some (.array views)
            ∧ views.map (Value.member? "body") = items.map some) := by
  obtain ⟨running, rfl⟩ := run.reply_of_serve served
  have hshown (m : Message) (hm : m ∈ s.buffer.toList) :
      Splices m.body (MessageView.bodyOf m.body)
        ∧ Delivered source t m (MessageView.bodyOf m.body) := by
    obtain ⟨v, hsplices, hdelivered⟩ := published.splices run running hm
    rw [hsplices.bodyOf_eq]
    exact ⟨hsplices, hdelivered⟩
  refine ⟨dumpResponse, shownBodies s.buffer.toList, respond_dump gets, rfl, ?_, ?_, ?_, ?_⟩
  · exact parse_dumpText fun m hm => (hshown m hm).1
  · rw [shownBodies, List.length_map, Buffer.length_toList]
  · rw [shownBodies, List.forall₂_map_right_iff, List.forall₂_same]
    exact fun m hm => (hshown m hm).2
  · intro hall t₁ s₁ s₂ id' reply' created' request' run₁ same served' gets' all
    obtain ⟨-, rfl⟩ := run₁.reply_of_serve served'
    obtain ⟨views, hviews, hbodies⟩ := member_messages_answerOf
      (s₁.buffer.reply settings.store.toStore.maxResults (.query .all))
    refine ⟨allResponse, _, views, respond_all gets' all, ?_, ?_, hviews, ?_⟩
    · rw [allResponse_ok, Response.json]
    · rw [allResponse_ok, Response.json]
    · have hroom : s.buffer.size ≤ settings.store.toStore.maxResults := hall
      rw [hbodies, same, Buffer.messages_reply_all hroom]

/-- An object in two spellings, and an array between them. -/
def deliveries : Nat → Delivery
  | 0 => .shuffled
  | 1 => .spelled "[ null,\t[ ] ]"
  | _ => .spaced

/-- What is kept of a value that is delivered. -/
def kept (v : Value) : Record := ⟨v.compactBytes, "orders", [], ""⟩

/-- The deliveries come in, the last of them while the owner is on the way to
    a request. -/
def asking (d : Demand) : List Action :=
  [.start, .send (kept Delivery.meant), .takeRecord ⟨0, 0⟩,
    .send (kept (.array [.null, .array []])), .takeRecord ⟨0, 0⟩, .send (kept Delivery.meant),
    .ask d, .takeRequest, .drainRecord ⟨0, 0⟩]

/-- What comes of it. -/
def askedRun (d : Demand) : Trace × System :=
  ((System.new ({} : Settings).store.toStore).play (asking d)).get rfl

theorem run_askedRun (d : Demand) :
    Run ({} : Settings).store.toStore (askedRun d).1 (askedRun d).2 := Run.of_play rfl

theorem published_askedRun (d : Demand) : Published [] deliveries (askedRun d).1 := by
  have unignored (d : Delivery) : ([] : List String).contains d.routingKey = false := rfl
  have hkept {d : Delivery} {v : Value} (value : parse d.body = .ok v)
      (hd : (⟨v.compactBytes, d.routingKey, d.headers, d.sender⟩ : Record) = kept v) :
      d.record [] = .ok (kept v) :=
    Delivery.record_eq_ok_iff.mpr ⟨unignored d, v, value, hd.symm⟩
  intro id r _ hbegun
  have hmem : (id, Action.send r) ∈ [(0, Action.send (kept Delivery.meant)),
    (1, .send (kept (.array [.null, .array []]))), (2, .send (kept Delivery.meant)), (3, .ask d)] :=
    hbegun
  simp only [List.mem_cons, Prod.mk.injEq, Action.send.injEq, List.not_mem_nil, or_false,
    reduceCtorEq, and_false] at hmem
  rcases hmem with ⟨rfl, rfl⟩ | ⟨rfl, rfl⟩ | ⟨rfl, rfl⟩
  · exact ⟨hkept Delivery.parse_shuffled rfl, _, Delivery.parse_shuffled, by decide, by decide⟩
  · have value : parse (deliveries 1).body = .ok (.array [.null, .array []]) := by rfl
    exact ⟨hkept value rfl, _, value, by decide, by decide⟩
  · exact ⟨hkept Delivery.parse_spaced rfl, _, Delivery.parse_spaced, by decide, by decide⟩

/-- A request for the dump. -/
def dumpRequest : Request := ⟨"GET", ⟨Utf8.ofString "/api/dump", []⟩, [], []⟩

/-- A query for everything. -/
def allRequest : Request :=
  ⟨"GET", ⟨Utf8.ofString "/api/query", Utf8.ofString "q=*"⟩, [], []⟩

theorem queryText?_star (path : Bytes) : queryText? ⟨path, Utf8.ofString "q=*"⟩ = some "*" :=
  show queryText? ⟨[], Utf8.ofString "q=*"⟩ = some "*" by decide +kernel

theorem dump_is_what_was_published_spellings :
    ∃ (finish finish' : Except StoreError Reply → Response) (s s' : System) (reply reply' : Reply)
      (items views : List Value) (answer : Value),
      respond {} ⟨0, 0⟩ dumpRequest = .ask .dump finish
      ∧ respond {} ⟨0, 0⟩ allRequest = .ask (.query .all) finish'
      ∧ (askedRun .dump).2.step .serve = some (s, .served 3 .dump reply)
      ∧ (askedRun (.query .all)).2.step .serve = some (s', .served 3 (.query .all) reply')
      ∧ parse (finish (.ok reply)).body = .ok (.array items) ∧ items.length = 3
      ∧ (finish' (.ok reply')).body = answer.compactBytes
      ∧ answer.member? "messages" = some (.array views)
      ∧ views.map (Value.member? "body") = items.map some := by
  obtain ⟨s, reply, served⟩ : ∃ s reply,
      (askedRun .dump).2.step .serve = some (s, .served 3 .dump reply) := ⟨_, _, rfl⟩
  obtain ⟨s', reply', served'⟩ : ∃ s reply,
      (askedRun (.query .all)).2.step .serve = some (s, .served 3 (.query .all) reply) :=
    ⟨_, _, rfl⟩
  have gets : dumpRequest.Gets "/api/dump" := ⟨rfl, rfl⟩
  have gets' : allRequest.Gets "/api/query" := ⟨rfl, rfl⟩
  obtain ⟨finish, items, hdump, -, hparse, hlength, -, hquery⟩ :=
    @dump_is_what_was_published {} _ _ _ _ _ _ ⟨0, 0⟩ _ (run_askedRun .dump)
      (published_askedRun .dump) served gets
  obtain ⟨finish', answer, views, hall, -, hbody, hmember, hviews⟩ :=
    hquery (by decide) _ _ _ _ _ ⟨0, 0⟩ _ (run_askedRun (.query .all)) rfl served' gets'
      (queryText?_star _)
  exact ⟨finish, finish', s, s', reply, reply', items, views, answer, hdump, hall, served, served',
    hparse, hlength, hbody, hmember, hviews⟩

end Http

end BusWindow
