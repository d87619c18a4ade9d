import BusWindow.Http.Router
import BusWindow.Proofs.Canonical
import BusWindow.Proofs.Effects

/-!
# Endpoints — which requests change the store

    Whatever a request looks like, it leads to one errand. Two kinds of
    requests can change the store: a delivery that is kept, and a clearing.
    All the others, whether an endpoint answers them or they are turned away,
    read at most.

    * `ofPath?_eq_some_control_iff` and `ofPath?_eq_some_publish_iff` say
      which paths carry a command or a routing key;
    * `respond_cases` goes through everything that a request can be;
    * `only_publish_and_clear_change` is the whole statement.
-/

namespace BusWindow.Http

open Store

/-! ## Paths with a parameter -/

namespace Endpoint

/-- What stands before a command. -/
def controlStem : Bytes := Utf8.ofString "/api/control/"

/-- What stands before a routing key. -/
def publishStem : Bytes := Utf8.ofString "/api/publish/"

/-- A parameter is one segment of a path, and not empty. -/
structure IsSegment (segment : Bytes) : Prop where
  ne_nil : segment ≠ []
  noSlash : 0x2F ∉ segment

/-- What is found behind a stem is the rest of the path. -/
theorem behind?_eq_some_iff {stem path rest : Bytes} :
    behind? stem path = some rest ↔ path = stem ++ rest := by
  induction stem generalizing path with
  | nil => simp [behind?]
  | cons a stem ih =>
      cases path with
      | nil => simp [behind?]
      | cons b path =>
          rw [behind?, List.cons_append, List.cons_eq_cons]
          by_cases hab : a = b
          · rw [if_pos hab, ih, hab]
            simp
          · rw [if_neg hab]
            constructor
            · exact nofun
            · rintro ⟨rfl, -⟩
              exact absurd rfl hab

/-- A parameter is one whole segment. -/
theorem parameter?_eq_some_iff {segment value : Bytes} :
    parameter? segment = some value ↔ IsSegment segment ∧ value = segment := by
  rw [parameter?]
  by_cases hnil : segment = []
  · simp only [hnil]
    constructor
    · exact nofun
    · rintro ⟨h, -⟩
      exact absurd rfl h.ne_nil
  · by_cases hslash : 0x2F ∈ segment
    · have htest : (segment.isEmpty || segment.contains 0x2F) = true := by simp [hslash]
      rw [if_pos htest]
      constructor
      · exact nofun
      · rintro ⟨h, -⟩
        exact absurd hslash h.noSlash
    · have htest : (segment.isEmpty || segment.contains 0x2F) ≠ true := by simp [hnil, hslash]
      rw [if_neg htest]
      constructor
      · rintro h
        exact ⟨⟨hnil, hslash⟩, (Option.some.inj h).symm⟩
      · rintro ⟨-, rfl⟩
        rfl

/-- A path that goes on behind a stem is none that is whole without it. -/
theorem ne_of_behind?_eq_none {stem path : Bytes} (h : behind? stem path = none)
    (segment : Bytes) : stem ++ segment ≠ path := by
  intro heq
  rw [behind?_eq_some_iff.mpr heq.symm] at h
  exact nomatch h

/-- The endpoint of a path that is none of those without a parameter. -/
theorem ofPath?_of_stem {stem : Bytes} (segment : Bytes)
    (page : behind? stem (Utf8.ofString "/") = none)
    (health : behind? stem (Utf8.ofString "/health") = none)
    (query : behind? stem (Utf8.ofString "/api/query") = none)
    (dump : behind? stem (Utf8.ofString "/api/dump") = none) :
    ofPath? (stem ++ segment)
      = match behind? controlStem (stem ++ segment) with
        | some segment => (parameter? segment).map .control
        | none =>
          match behind? publishStem (stem ++ segment) with
          | some segment => (parameter? segment).map .publish
          | none => none := by
  rw [ofPath?, if_neg (ne_of_behind?_eq_none page segment),
    if_neg (ne_of_behind?_eq_none health segment), if_neg (ne_of_behind?_eq_none query segment),
    if_neg (ne_of_behind?_eq_none dump segment)]
  rfl

theorem ofPath?_control (segment : Bytes) :
    ofPath? (controlStem ++ segment) = (parameter? segment).map .control := by
  rw [ofPath?_of_stem segment (by decide) (by decide) (by decide) (by decide),
    behind?_eq_some_iff.mpr rfl]

theorem ofPath?_publish (segment : Bytes) :
    ofPath? (publishStem ++ segment) = (parameter? segment).map .publish := by
  have hother : behind? controlStem (publishStem ++ segment) = none := by
    rw [Option.eq_none_iff_forall_ne_some]
    intro rest hrest
    -- the two stems are of one length, and they differ
    have hstem := (List.append_inj (behind?_eq_some_iff.mp hrest) (by decide)).1
    exact absurd hstem (by decide)
  rw [ofPath?_of_stem segment (by decide) (by decide) (by decide) (by decide), hother,
    behind?_eq_some_iff.mpr rfl]

/-- A path with a parameter leads to an endpoint that carries it. -/
theorem path_of_ofPath? {path : Bytes} {endpoint : Endpoint} (h : ofPath? path = some endpoint)
    (changes : endpoint.isReading = false) :
    ∃ segment, IsSegment segment
      ∧ (path = controlStem ++ segment ∧ endpoint = .control segment
        ∨ path = publishStem ++ segment ∧ endpoint = .publish segment) := by
  simp only [ofPath?] at h
  split at h
  · obtain rfl := Option.some.inj h
    exact nomatch changes
  · split at h
    · obtain rfl := Option.some.inj h
      exact nomatch changes
    · split at h
      · obtain rfl := Option.some.inj h
        exact nomatch changes
      · split at h
        · obtain rfl := Option.some.inj h
          exact nomatch changes
        · split at h
          · next segment hbehind =>
            obtain ⟨value, hvalue, rfl⟩ := Option.map_eq_some_iff.mp h
            obtain ⟨hsegment, rfl⟩ := parameter?_eq_some_iff.mp hvalue
            exact ⟨value, hsegment, Or.inl ⟨behind?_eq_some_iff.mp hbehind, rfl⟩⟩
          · split at h
            · next segment hbehind =>
              obtain ⟨value, hvalue, rfl⟩ := Option.map_eq_some_iff.mp h
              obtain ⟨hsegment, rfl⟩ := parameter?_eq_some_iff.mp hvalue
              exact ⟨value, hsegment, Or.inr ⟨behind?_eq_some_iff.mp hbehind, rfl⟩⟩
            · exact nomatch h

/-- Which paths are commands. -/
theorem ofPath?_eq_some_control_iff {path command : Bytes} :
    ofPath? path = some (.control command) ↔ path = controlStem ++ command ∧ IsSegment command := by
  constructor
  · intro h
    obtain ⟨segment, hsegment, ⟨hpath, heq⟩ | ⟨-, heq⟩⟩ := path_of_ofPath? h rfl
    · obtain rfl := Endpoint.control.inj heq
      exact ⟨hpath, hsegment⟩
    · exact nomatch heq
  · rintro ⟨rfl, hsegment⟩
    rw [ofPath?_control, parameter?_eq_some_iff.mpr ⟨hsegment, rfl⟩]
    rfl

/-- Which paths publish. -/
theorem ofPath?_eq_some_publish_iff {path key : Bytes} :
    ofPath? path = some (.publish key) ↔ path = publishStem ++ key ∧ IsSegment key := by
  constructor
  · intro h
    obtain ⟨segment, hsegment, ⟨-, heq⟩ | ⟨hpath, heq⟩⟩ := path_of_ofPath? h rfl
    · exact nomatch heq
    · obtain rfl := Endpoint.publish.inj heq
      exact ⟨hpath, hsegment⟩
  · rintro ⟨rfl, hsegment⟩
    rw [ofPath?_publish, parameter?_eq_some_iff.mpr ⟨hsegment, rfl⟩]
    rfl

end Endpoint

/-! ## Requests that change the store -/

/-- A request that publishes a record: its path carries a routing key that is
    a text and not ignored, and its body is JSON and not too long. The record
    has the compact body, and the headers and the sender of the request. -/
structure Publishes (settings : IngestSettings) (request : Request) (r : Record) : Prop where
  method : request.method = "POST"
  record : ∃ (segment : Bytes) (key : String) (v : Json.Value),
    request.target.path = Endpoint.publishStem ++ segment ∧ Endpoint.IsSegment segment
      ∧ Utf8.decode? (Percent.decode segment) = some key
      ∧ request.body.length ≤ greatestBody ∧ key ∉ settings.ignoreKeys
      ∧ Json.parse request.body = .ok v
      ∧ r = ⟨v.compactBytes, key, messageHeaders request.headers, sender request.headers⟩

/-- A request for a clearing. -/
structure Clears (request : Request) : Prop where
  method : request.method = "POST"
  command : ∃ segment : Bytes, request.target.path = Endpoint.controlStem ++ segment
    ∧ Endpoint.IsSegment segment ∧ Utf8.decode? (Percent.decode segment) = some "clear"

variable {settings : Settings} {created : Timestamp} {request : Request} {r : Record}

/-- Whatever is done for a parameter is done under `POST` only. -/
theorem respond_of_changing {endpoint : Endpoint} (method : request.method = "POST")
    (leads : Endpoint.ofPath? request.target.path = some endpoint)
    (changes : endpoint.isReading = false) :
    respond settings created request = endpoint.respond settings created request := by
  have htakes : endpoint.takes request.method = true := by
    rw [Endpoint.takes, changes, method]
    rfl
  rw [respond, leads]
  simp only [htakes, if_true]
  rw [if_neg (by rw [method]; decide)]

/-- A request that publishes hands its record on and never calls. -/
theorem Publishes.respond (h : Publishes settings.ingest request r) :
    respond settings created request = .give [r] none fun _ => .empty 202 := by
  obtain ⟨segment, key, v, hpath, hsegment, hkey, hlength, hignored, hvalue, rfl⟩ := h.record
  have hleads := Endpoint.ofPath?_eq_some_publish_iff.mpr ⟨hpath, hsegment⟩
  rw [respond_of_changing h.method hleads rfl, Endpoint.respond, hkey]
  simp only
  rw [if_neg (Nat.not_lt.mpr hlength), takeIn]
  have hrecord : (delivery key request.headers request.body).record settings.ingest.ignoreKeys
      = .ok ⟨v.compactBytes, key, messageHeaders request.headers, sender request.headers⟩ := by
    refine Delivery.record_eq_ok_iff.mpr ⟨?_, v, hvalue, rfl⟩
    simpa [delivery] using hignored
  rw [Errand.accept, hrecord]
  rfl

/-- A request that clears calls the store to do it. -/
theorem Clears.respond (h : Clears request) :
    respond settings created request = demanding .clear fun _ => .empty 204 := by
  obtain ⟨segment, hpath, hsegment, hname⟩ := h.command
  have hleads := Endpoint.ofPath?_eq_some_control_iff.mpr ⟨hpath, hsegment⟩
  rw [respond_of_changing h.method hleads rfl, Endpoint.respond, hname]
  rfl

/-- A request that publishes publishes one record. -/
theorem Publishes.unique {r' : Record} (h : Publishes settings.ingest request r)
    (h' : Publishes settings.ingest request r') : r = r' := by
  have hone : BusWindow.Http.respond settings ⟨0, 0⟩ request = .give [r] none fun _ => .empty 202 :=
    h.respond
  have heq : (Errand.give [r] none fun _ => Response.empty 202)
      = .give [r'] none fun _ => .empty 202 := by
    rw [← hone, h'.respond]
  have hrecords := (Errand.give.inj heq).1
  exact List.singleton_inj.mp hrecords

/-! ## Everything that a request can be -/

/-- A query reads. -/
theorem reading_query (raw : String) : Reading (Errand.query raw) := by
  rw [Errand.query]
  split
  · exact .ask _ nofun
  · exact .done _

theorem reading_askQuery (minLength : Nat) (raw : String) : Reading (askQuery minLength raw) := by
  rw [askQuery]
  split
  · exact .done _
  · exact (reading_query raw).map _

/-- So does every demand but one. -/
theorem reading_demanding {d : Demand} (reads : d ≠ .clear) (respond : Reply → Response) :
    Reading (demanding d respond) := .ask _ reads

/-- An endpoint without a parameter reads at most. -/
theorem reading_respond {endpoint : Endpoint} (reads : endpoint.isReading = true) :
    Reading (endpoint.respond settings created request) := by
  cases endpoint with
  | page =>
      rw [Endpoint.respond]
      split
      · exact .done _
      · exact (reading_askQuery _ _).map _
  | health => exact reading_demanding (d := .stats) nofun _
  | query =>
      rw [Endpoint.respond]
      split
      · exact .done _
      · exact (reading_askQuery _ _).map _
  | dump => exact reading_demanding (d := .dump) nofun _
  | control command => exact nomatch reads
  | publish key => exact nomatch reads

/-- A command other than a clearing reads at most. -/
theorem reading_control {segment : Bytes} (method : request.method = "POST")
    (path : request.target.path = Endpoint.controlStem ++ segment)
    (isSegment : Endpoint.IsSegment segment) (other : ¬ Clears request) :
    Reading (Endpoint.respond settings created request (.control segment)) := by
  rw [Endpoint.respond]
  split
  · exact .done _
  · next name hname =>
    split
    · next hcommand =>
      have hclear : name = "clear" := by
        by_contra hne
        rw [Command.ofName?, if_neg hne] at hcommand
        exact nomatch hcommand
      exact absurd ⟨method, segment, path, isSegment, hclear ▸ hname⟩ other
    · exact .done _

/-- A delivery that is not kept needs nothing of the store. -/
theorem reading_publish {segment : Bytes} (method : request.method = "POST")
    (path : request.target.path = Endpoint.publishStem ++ segment)
    (isSegment : Endpoint.IsSegment segment) (other : ∀ r, ¬ Publishes settings.ingest request r) :
    Reading (Endpoint.respond settings created request (.publish segment)) := by
  rw [Endpoint.respond]
  split
  · exact .done _
  · next key hkey =>
    split
    · exact .done _
    · next hlength =>
      rw [takeIn, Errand.accept]
      split
      · next r hrecord =>
        obtain ⟨hignored, v, hvalue, rfl⟩ := Delivery.record_eq_ok_iff.mp hrecord
        have hkept : key ∉ settings.ingest.ignoreKeys := by simpa [delivery] using hignored
        exact absurd ⟨method, segment, key, v, path, isSegment, hkey, Nat.not_lt.mp hlength, hkept,
          hvalue, rfl⟩ (other _)
      · exact .done _

/-- A request publishes, or asks for a clearing, or reads at most. -/
theorem respond_cases (settings : Settings) (created : Timestamp) (request : Request) :
    (∃ r, Publishes settings.ingest request r) ∨ Clears request
      ∨ Reading (respond settings created request) := by
  by_cases hpublishes : ∃ r, Publishes settings.ingest request r
  · exact Or.inl hpublishes
  by_cases hclears : Clears request
  · exact Or.inr (Or.inl hclears)
  refine Or.inr (Or.inr ?_)
  cases hleads : Endpoint.ofPath? request.target.path with
  | none =>
      rw [respond, hleads]
      exact .done _
  | some endpoint =>
      cases hreads : endpoint.isReading with
      | true =>
          rw [respond, hleads]
          simp only
          split
          · split
            · exact (reading_respond hreads).map _
            · exact reading_respond hreads
          · exact .done _
      | false =>
          by_cases hmethod : request.method = "POST"
          · rw [respond_of_changing hmethod hleads hreads]
            obtain ⟨segment, hsegment, ⟨hpath, rfl⟩ | ⟨hpath, rfl⟩⟩ :=
              Endpoint.path_of_ofPath? hleads hreads
            · exact reading_control hmethod hpath hsegment hclears
            · exact reading_publish hmethod hpath hsegment fun r hr => hpublishes ⟨r, hr⟩
          · have htakes : endpoint.takes request.method = false := by
              simp [Endpoint.takes, hreads, hmethod]
            rw [respond, hleads]
            simp only [htakes]
            exact .done _

/-- **ONLY PUBLISHING AND CLEARING CHANGE THE STORE**: while the store runs,
    a request that is answered, whatever it is, changes the contents under
    its number at most once, at the time or later. A request that publishes
    is answered with 202 and puts its record at the end, which goes in at
    once if there is room; one for a clearing that is answered with 204 drops
    every message and keeps the count. Every other request changes nothing,
    and neither does a clearing that is answered in any other way. -/
theorem only_publish_and_clear_change {clock : Nat → Timestamp} {t t' : Trace} {s s' : System}
    {number : Option Nat} {response : Response} (run : Run settings.store.toStore t s)
    (run' : Run settings.store.toStore (t ++ t') s') (running : s'.owner ≠ .stopped)
    (shows : Trace.Shows (t ++ t') clock)
    (carried : Carried settings.store.toStore.timeout t' (respond settings created request) number
      response) :
    (∀ r, Publishes settings.ingest request r → response = .empty 202
        ∧ Effect clock t' number s' 1 ((s.contents clock).ingest settings.store.capacity clock r)
        ∧ (s.records.hasRoom = true →
            ∃ s₁, s.step (.send r) = some (s₁, .recordSent s.next .accepted)))
      ∧ (Clears request → response.status = 204 →
          Effect clock t' number s' 1 (s.contents clock).clear)
      ∧ ((∀ r, ¬ Publishes settings.ingest request r) →
          ¬ (Clears request ∧ response.status = 204) →
          Effect clock t' number s' 0 (s.contents clock)) := by
  refine ⟨?_, ?_, ?_⟩
  · intro r hpublishes
    rw [hpublishes.respond] at carried
    cases carried with
    | give begun ended back =>
        refine ⟨rfl, run.effect_of_give run' running shows begun ended back, ?_⟩
        intro hroom
        exact ⟨_, run.accepts (run.running_of_append run' running) hroom r⟩
  · intro hclears hstatus
    rw [hclears.respond] at carried
    cases carried with
    | @ask _ _ id v begun back =>
        cases v with
        | ok r => exact run.effect_of_clear run' running shows begun back
        | error e => cases e <;> exact nomatch hstatus
  · intro hpublishes hclears
    rcases respond_cases settings created request with ⟨r, hr⟩ | hclearing | hreading
    · exact absurd hr (hpublishes r)
    · rw [hclearing.respond] at carried
      cases carried with
      | @ask _ _ id v begun back =>
          cases v with
          | ok r => exact absurd ⟨hclearing, rfl⟩ hclears
          | error e => exact run.effect_of_ask run' running shows begun back (Or.inr ⟨e, rfl⟩)
    · exact run.effect_of_reading run' running shows carried hreading

/-- A request for a clearing. -/
def clearRequest : Request := ⟨"POST", ⟨Utf8.ofString "/api/control/clear", []⟩, [], []⟩

/-- A request that publishes, with an escape in the routing key. -/
def publishRequest : Request :=
  ⟨"POST", ⟨Utf8.ofString "/api/publish/a%2Fb", []⟩,
    [("X-MQWatch-Sender", Utf8.ofString "probe")], Utf8.ofString "[ 1 ]"⟩

/-- What is published by it. -/
def publishedRecord : Record := ⟨Utf8.ofString "[1]", "a/b", [], "probe"⟩

theorem clears_clearRequest : Clears clearRequest where
  method := rfl
  command :=
    ⟨Utf8.ofString "clear", by decide, ⟨by decide, by decide⟩, Utf8.decode?_ofString "clear"⟩

theorem publishes_publishRequest : Publishes {} publishRequest publishedRecord where
  method := rfl
  record := ⟨Utf8.ofString "a%2Fb", "a/b", .array [.ofNat 1], by decide, ⟨by decide, by decide⟩,
    Utf8.decode?_ofString "a/b", by decide, by decide, by decide +kernel, rfl⟩

/-- The sizes that a store has if nothing else is chosen. -/
def usual : StoreSettings := ({} : Settings).store.toStore

/-- A record is on its way. -/
def sentRun : Trace × System := ((System.new usual).play [.send (plain [1])]).get rfl

/-- A clearing is given up before the owner comes to it, and the owner passes
    over it. -/
def givingUp : List Store.Action :=
  [.ask .clear, .start, .giveUp 1, .takeRequest, .drainRecord ⟨3, 0⟩, .serve]

/-- What comes of it. -/
def givenUpRun : Trace × System := (sentRun.2.play givingUp).get rfl

/-- A record is published after that. -/
def publishedRun : Trace × System := (givenUpRun.2.play [.send publishedRecord]).get rfl

theorem run_sentRun : Run usual sentRun.1 sentRun.2 := Run.of_play rfl

theorem run_givenUpRun : Run usual (sentRun.1 ++ givenUpRun.1) givenUpRun.2 := by
  have hplay : sentRun.2.play givingUp = some givenUpRun := (Option.some_get _).symm
  exact run_sentRun.play hplay

theorem run_publishedRun :
    Run usual (sentRun.1 ++ givenUpRun.1 ++ publishedRun.1) publishedRun.2 := by
  have hplay : givenUpRun.2.play [.send publishedRecord] = some publishedRun :=
    (Option.some_get _).symm
  exact run_givenUpRun.play hplay

/-- A clearing that was answered with a timeout and never took place, and a
    record published behind it. -/
theorem only_publish_and_clear_change_givenUp :
    ∃ (clock : Nat → Timestamp) (response : Response),
      Carried usual.timeout givenUpRun.1 (respond {} ⟨0, 0⟩ clearRequest) (some 1) response
      ∧ response.status = 504
      ∧ Effect clock givenUpRun.1 (some 1) givenUpRun.2 0 (sentRun.2.contents clock)
      ∧ Carried usual.timeout publishedRun.1 (respond {} ⟨0, 0⟩ publishRequest) (some 2)
          (.empty 202)
      ∧ Effect clock publishedRun.1 (some 2) publishedRun.2 1
          ((givenUpRun.2.contents clock).ingest usual.capacity clock publishedRecord)
      ∧ (publishedRun.2.contents clock).messages.map Message.body = [[1], Utf8.ofString "[1]"] := by
  have hclears : Carried usual.timeout givenUpRun.1 (respond {} ⟨0, 0⟩ clearRequest) (some 1)
      (Failure.ofStore (.timeout usual.timeout)).response := by
    have hback : .error (.timeout usual.timeout) ∈ givenUpRun.1.outcomes usual.timeout 1 := .head _
    rw [clears_clearRequest.respond]
    exact .ask (.head _) hback
  have hpublishes : Carried usual.timeout publishedRun.1 (respond {} ⟨0, 0⟩ publishRequest)
      (some 2) (.empty 202) := by
    have hended : Sent.accepted ≠ .waits := nofun
    rw [publishes_publishRequest.respond]
    exact .give (.head _) hended (.head _)
  have hshows : Trace.Shows (sentRun.1 ++ givenUpRun.1 ++ publishedRun.1) fun _ => ⟨3, 0⟩ := by
    intro m hm
    obtain rfl := List.mem_singleton.mp (show m ∈ [⟨0, ⟨3, 0⟩, plain [1]⟩] from hm)
    rfl
  obtain ⟨-, -, hnothing⟩ :=
    only_publish_and_clear_change run_sentRun run_givenUpRun nofun hshows.front hclears
  obtain ⟨hadded, -, -⟩ :=
    only_publish_and_clear_change run_givenUpRun run_publishedRun nofun hshows hpublishes
  have hother (r : Record) : ¬ Publishes {} clearRequest r := by
    rintro ⟨-, segment, key, v, hpath, -⟩
    have hbehind := Endpoint.behind?_eq_some_iff.mpr hpath
    exact nomatch hbehind
  refine ⟨_, _, hclears, rfl, hnothing hother ?_, hpublishes, ?_, rfl⟩
  · rintro ⟨-, hstatus⟩
    exact nomatch hstatus
  · exact (hadded publishedRecord publishes_publishRequest).2.1

end BusWindow.Http
