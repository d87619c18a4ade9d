import BusWindow.Proofs.Characters
import BusWindow.Proofs.Dump
import BusWindow.Proofs.Shown
import BusWindow.Proofs.Tallies

/-!
# The histogram — every message is counted once, and shown twice

    The tally of a reply counts its messages by their folded routing keys.
    What is counted under each key, and the order of the keys, leave no
    choice for it, however it is built and in whatever order the messages
    come. The rows of the page and the answer to a program show the same
    keys with the same counts, in the same order.

    * `histogram_frequencies` and `Histogram.unique` say that the tally is
      the one list that counts the messages;
    * `respond_page` is the endpoint for the page, beside that for programs,
      and `body_shownPage` what its rows show;
    * `every_message_counts_once` is the whole statement.
-/

namespace BusWindow

/-! ## The tally of a reply -/

namespace Tally

/-- How often a folded key was counted. -/
def countOf (tally : Tally) (key : String) : Nat := (SortedMap.get? key tally).getD 0

theorem countOf_ofKeys (keys : List String) (key : String) :
    (ofKeys keys).countOf key = (keys.map RoutingKey.fold).count key := by
  rw [countOf, get?_ofKeys]
  split
  · next hzero => rw [hzero]; rfl
  · rfl

end Tally

/-- How many messages have a routing key that is folded into a key. -/
def foldedInto (key : String) (messages : List Message) : Nat :=
  messages.countP fun m => RoutingKey.fold m.routingKey == key

/-- A list of keys and numbers counts some messages: its keys ascend by their
    bytes, and a key stands in it with a number if that many messages have a
    routing key that is folded into it, and not none. -/
structure Histogram (messages : List Message) (tally : Tally) : Prop where
  ascending : tally.Pairwise fun a b => Utf8.ofString a.1 < Utf8.ofString b.1
  mem_iff : ∀ key n, (key, n) ∈ tally ↔ n = foldedInto key messages ∧ n ≠ 0

theorem count_fold (messages : List Message) (key : String) :
    ((messages.map Message.routingKey).map RoutingKey.fold).count key
      = foldedInto key messages := by
  rw [List.map_map, List.count, List.countP_map]
  rfl

theorem foldedInto_ne_zero_iff (messages : List Message) (key : String) :
    foldedInto key messages ≠ 0 ↔ ∃ m ∈ messages, RoutingKey.fold m.routingKey = key := by
  rw [foldedInto, ← Nat.pos_iff_ne_zero, List.countP_pos_iff]
  simp

theorem countOf_frequencies (reply : Reply) (key : String) :
    reply.frequencies.countOf key = foldedInto key reply.messages := by
  rw [Reply.frequencies, Tally.countOf_ofKeys, count_fold]

theorem histogram_frequencies (reply : Reply) : Histogram reply.messages reply.frequencies := by
  have hsorted := Tally.sorted_ofKeys (reply.messages.map Message.routingKey)
  refine ⟨hsorted.imp fun hlt => Utf8.ofString_lt_iff.mpr hlt, ?_⟩
  intro key n
  rw [Reply.frequencies, ← hsorted.get?_eq_some_iff, Tally.get?_ofKeys, count_fold]
  split
  · next hzero => exact ⟨nofun, fun h => absurd (h.1.trans hzero) h.2⟩
  · next hne =>
    rw [Option.some.injEq]
    constructor
    · rintro rfl
      exact ⟨rfl, hne⟩
    · exact fun h => h.1.symm

/-- Only one list counts the messages, whatever it is built from. -/
theorem Histogram.unique {messages : List Message} {tally tally' : Tally}
    (h : Histogram messages tally) (h' : Histogram messages tally') : tally = tally' := by
  have hsorted : SortedMap.Sorted tally := h.ascending.imp Utf8.ofString_lt_iff.mp
  have hsorted' : SortedMap.Sorted tally' := h'.ascending.imp Utf8.ofString_lt_iff.mp
  refine hsorted.eq_of_mem_iff hsorted' ?_
  rintro ⟨key, n⟩
  rw [h.mem_iff, h'.mem_iff]

/-- No count is greater than the number of messages. -/
theorem le_length_of_mem_frequencies {reply : Reply} {p : String × Nat}
    (h : p ∈ reply.frequencies) : p.2 ≤ reply.messages.length := by
  obtain ⟨hcount, -⟩ := ((histogram_frequencies reply).mem_iff p.1 p.2).mp h
  rw [hcount]
  exact List.countP_le_length

/-! ## The two endpoints -/

namespace Http

variable {settings : Settings} {created : Timestamp} {request : Request} {raw : String} {q : Query}

/-- The response to a request for the page. -/
def shownPage (settings : IngestSettings) (created : Timestamp) (raw : String)
    (outcome : Except StoreError Reply) : Response :=
  pageResponse settings created raw (outcome.mapError Failure.ofStore)

/-- The endpoint for the page makes a page of what comes of asking. -/
theorem respond_page_eq (gets : request.Gets "/") (text : queryText? request.target = some raw) :
    respond settings created request
      = (askQuery settings.query.minLength raw).map
          (pageResponse settings.ingest created raw) := by
  have hleads : Endpoint.ofPath? (Utf8.ofString "/") = some .page := by decide
  rw [respond_of_gets gets hleads rfl, Endpoint.respond, text]

theorem respond_page (gets : request.Gets "/") (text : queryText? request.target = some raw)
    (long : checkLength settings.query.minLength raw = .ok ()) (parsed : Query.parse raw = .ok q) :
    respond settings created request = .ask (.query q) (shownPage settings.ingest created raw) := by
  rw [respond_page_eq gets text, askQuery_of_parse long parsed]
  rfl

/-- The rows of the page for a reply are its tally. -/
theorem body_shownPage (settings : IngestSettings) (created : Timestamp) (raw : String)
    (reply : Reply) :
    ∃ text, (shownPage settings created raw (.ok reply)).body = Utf8.ofString text
      ∧ Page.shownRows text = reply.frequencies.map fun row => (row.1, toString row.2) := by
  have hpage : shownPage settings created raw (.ok reply)
      = .html 200 (replyPage settings created raw none reply).render := rfl
  have hfrequencies : (replyPage settings created raw none reply).frequencies
      = reply.frequencies := rfl
  refine ⟨(replyPage settings created raw none reply).render, ?_, ?_⟩
  · rw [hpage, Response.html]
  · rw [Page.shownRows_render, hfrequencies]

/-- A number that fits 64 bits is written the same in both. -/
theorem compact_ofNat {n : Nat} (h : n < Json.Number.naturalBound) :
    (Json.Value.ofNat n).compact = toString n := by
  have hvalue : (UInt64.ofNat n).toNat = n := UInt64.toNat_ofNat_of_lt h
  show "" ++ toString (UInt64.ofNat n).toNat = toString n
  rw [hvalue, String.empty_append]

end Http

open Http

/-- **EVERY MESSAGE COUNTS ONCE**: the tally of a reply ascends by the bytes
    of its keys and counts the messages of the reply, and it is the only list
    that does. A key stands in it if and only if some message is folded into
    it, the counts make up the number of messages, neither the order of the
    messages nor that of the map in which they are counted matters, and what
    two replies count is added up when their messages are joined. Both
    endpoints ask the store the same. The rows that a reader sees on the page
    are the tally, and the answer to a program has the same keys with the
    same counts in the same order. -/
theorem every_message_counts_once (reply : Reply) :
    Histogram reply.messages reply.frequencies
      ∧ (∀ tally, Histogram reply.messages tally → tally = reply.frequencies)
      ∧ (∀ key, (∃ n, (key, n) ∈ reply.frequencies)
          ↔ ∃ m ∈ reply.messages, RoutingKey.fold m.routingKey = key)
      ∧ (reply.frequencies.map Prod.snd).sum = reply.messages.length
      ∧ (∀ other : Reply, other.messages.Perm reply.messages →
          other.frequencies = reply.frequencies)
      ∧ (∀ counts : Tally.Counts,
          counts.Perm (Tally.counts (reply.messages.map Message.routingKey)) →
          Tally.ofCounts counts = reply.frequencies)
      ∧ (∀ first second : Reply, reply.messages = first.messages ++ second.messages →
          ∀ key, reply.frequencies.countOf key
            = first.frequencies.countOf key + second.frequencies.countOf key)
      ∧ (∀ (settings : Settings) (created created' : Timestamp) (page program : Request)
          (raw : String) (q : Query), page.Gets "/" → program.Gets "/api/query" →
          queryText? page.target = some raw → queryText? program.target = some raw →
          checkLength settings.query.minLength raw = .ok () → Query.parse raw = .ok q →
          ∃ (finish finish' : Except StoreError Reply → Response) (text : String)
            (answer : Json.Value) (members : Json.Members),
            respond settings created page = .ask (.query q) finish
            ∧ respond settings created' program = .ask (.query q) finish'
            ∧ (finish (.ok reply)).body = Utf8.ofString text
            ∧ Page.shownRows text = reply.frequencies.map (fun row => (row.1, toString row.2))
            ∧ (finish' (.ok reply)).body = answer.compactBytes
            ∧ answer.member? "frequencies" = some (.object members)
            ∧ members = reply.frequencies.map (fun row => (row.1, .ofNat row.2))
            ∧ (reply.messages.length < Json.Number.naturalBound →
                Page.shownRows text = members.map fun m => (m.1, m.2.compact))) := by
  have hhistogram := histogram_frequencies reply
  refine ⟨hhistogram, fun tally h => h.unique hhistogram, ?_, ?_, ?_, ?_, ?_, ?_⟩
  · intro key
    rw [← foldedInto_ne_zero_iff]
    constructor
    · rintro ⟨n, hmem⟩
      obtain ⟨rfl, hne⟩ := (hhistogram.mem_iff key n).mp hmem
      exact hne
    · exact fun hne => ⟨_, (hhistogram.mem_iff key _).mpr ⟨rfl, hne⟩⟩
  · rw [Reply.frequencies, Tally.sum_ofKeys, List.length_map]
  · exact fun other perm => Tally.ofKeys_perm (perm.map Message.routingKey)
  · exact fun counts perm => Tally.ofCounts_perm (Tally.nodup_counts _) perm
  · intro first second joined key
    rw [countOf_frequencies, countOf_frequencies, countOf_frequencies, foldedInto, joined,
      List.countP_append]
    rfl
  · intro settings created created' page program raw q gets gets' text text' long parsed
    obtain ⟨shown, hbody, hrows⟩ := body_shownPage settings.ingest created raw reply
    refine ⟨_, _, shown, (answerOf reply).form, _, respond_page gets text long parsed,
      respond_query gets' text' long parsed, hbody, hrows, ?_, rfl, rfl, ?_⟩
    · rw [allResponse_ok, Response.json]
    · intro hlength
      rw [hrows, List.map_map]
      refine List.map_congr_left fun row hrow => ?_
      have hcount : row.2 < Json.Number.naturalBound :=
        (le_length_of_mem_frequencies hrow).trans_lt hlength
      rw [Function.comp_apply, compact_ofNat hcount]

/-- Three messages, two of them under keys that differ in an identifier. -/
def sessions : Reply where
  messages :=
    [⟨0, ⟨0, 0⟩, ⟨[], "session.00112233-4455-6677-8899-aabbccddeeff.closed", [], ""⟩⟩,
      ⟨1, ⟨0, 0⟩, ⟨[], "session.list", [], ""⟩⟩,
      ⟨2, ⟨0, 0⟩, ⟨[], "session.FFEEDDCC-BBAA-9988-7766-554433221100.closed", [], ""⟩⟩]
  totalReceived := 3
  buffered := 3
  capacity := 10

/-- A request for the page with everything on it. -/
def pageRequest : Request := ⟨"GET", ⟨Utf8.ofString "/", Utf8.ofString "q=*"⟩, [], []⟩

/-- On the page as in the answer, the two sessions stand in one row. -/
theorem every_message_counts_once_sessions :
    ∃ (finish finish' : Except StoreError Reply → Response) (text : String)
      (answer : Json.Value),
      respond {} ⟨0, 0⟩ pageRequest = .ask (.query .all) finish
      ∧ respond {} ⟨0, 0⟩ allRequest = .ask (.query .all) finish'
      ∧ (finish (.ok sessions)).body = Utf8.ofString text
      ∧ Page.shownRows text = [("session.<uuid>.closed", "2"), ("session.list", "1")]
      ∧ (finish' (.ok sessions)).body = answer.compactBytes
      ∧ answer.member? "frequencies"
        = some (.object [("session.<uuid>.closed", .ofNat 2), ("session.list", .ofNat 1)]) := by
  obtain ⟨-, hunique, -, -, -, -, -, hendpoints⟩ := every_message_counts_once sessions
  have hcounts : Tally.counts (sessions.messages.map Message.routingKey)
      = [("session.<uuid>.closed", 2), ("session.list", 1)] := by decide +kernel
  have hfrequencies :
      sessions.frequencies = [("session.<uuid>.closed", 2), ("session.list", 1)] := by
    rw [Reply.frequencies, Tally.ofKeys, hcounts]
    exact List.mergeSort_of_pairwise (by decide)
  obtain ⟨finish, finish', text, answer, members, hpage, hprogram, hshown, hrows, hbody, hmember,
    hmembers, -⟩ := hendpoints {} ⟨0, 0⟩ ⟨0, 0⟩ pageRequest allRequest "*" .all ⟨rfl, rfl⟩
      ⟨rfl, rfl⟩ (queryText?_star _) (queryText?_star _) rfl (by decide)
  rw [hmembers] at hmember
  rw [hfrequencies] at hrows hmember
  exact ⟨finish, finish', text, answer, hpage, hprogram, hshown, hrows, hbody, hmember⟩

end BusWindow
