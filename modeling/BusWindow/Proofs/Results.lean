import BusWindow.Proofs.Visibility

/-!
# Results — what a query finds is complete, in order and capped

    The numbers in the buffer ascend one by one from the oldest message to
    the newest. A query with clauses walks the buffer from its newest end,
    keeps what answers a clause and stops when the reply is full; a query for
    everything cuts the newest end off as it is. So both leave out older
    messages only.

    * `Numbered` is what a run keeps of the buffer (`Run.numbered_buffer`);
    * `Scan` and `Newest` say what a reply to either query has to be, and
      `Numbered.scan` and `Numbered.newest` that it is so;
    * `query_results_complete` is the whole statement.
-/

namespace BusWindow

namespace Buffer

/-- The numbers in a buffer ascend one by one and end with the last number
    that was given away. -/
structure Numbered (b : Buffer) : Prop where
  size_le : b.size ≤ b.received
  map_seq : b.toList.map Message.seq
    = (List.range' (b.received - b.size) b.size).map fun i : Nat => (i : Int)

/-- What a reply to a query with clauses has to be: kept messages that answer
    a clause, the newest first, as many as there are or as the reply may
    hold, and none that is newer was passed over. -/
structure Scan (b : Buffer) (limit : Nat) (clauses : List Clause) (found : List Message) :
    Prop where
  kept : ∀ m ∈ found, m ∈ b.toList
  accepted : ∀ m ∈ found, anyAccepts clauses m = true
  descending : found.Pairwise fun m m' => m'.seq < m.seq
  length : found.length = min limit (b.toList.countP (anyAccepts clauses))
  newest : ∀ m ∈ b.toList, anyAccepts clauses m = true → m ∉ found → ∀ m' ∈ found, m.seq < m'.seq

/-- What a reply to a query for everything has to be: the newest end of the
    buffer, as long as the reply may be, with numbers that ascend one by one
    up to the last number that was given away. -/
structure Newest (b : Buffer) (limit : Nat) (found : List Message) : Prop where
  suffix : found <:+ b.toList
  length : found.length = min b.size limit
  consecutive : found.map Message.seq
    = (List.range' (b.received - found.length) found.length).map fun i : Nat => (i : Int)
  last : ∀ m ∈ found.getLast?, m.seq = b.received - 1

theorem numbered_performAll (capacity : Nat) (works : List Work) :
    Numbered ((empty capacity).performAll works) := by
  have hsize := size_performAll capacity works
  have hreceived := received_performAll capacity works
  constructor
  · rw [hsize, hreceived]
    omega
  · rw [hsize, hreceived]
    exact map_seq_performAll capacity works

namespace Numbered

variable {b : Buffer}

theorem ascending (h : b.Numbered) : b.toList.Pairwise fun m m' => m.seq < m'.seq := by
  rw [← List.pairwise_map (f := Message.seq), h.map_seq, List.pairwise_map]
  refine List.Pairwise.imp ?_ List.pairwise_lt_range'
  intro i j hlt
  exact Int.ofNat_lt.mpr hlt

theorem nodup_seq (h : b.Numbered) : (b.toList.map Message.seq).Nodup := by
  rw [List.Nodup, List.pairwise_map]
  exact h.ascending.imp fun hlt => Int.ne_of_lt hlt

/-- A number names one message of the buffer. -/
theorem eq_of_seq_eq (h : b.Numbered) {m m' : Message} (hm : m ∈ b.toList) (hm' : m' ∈ b.toList)
    (heq : m.seq = m'.seq) : m = m' := List.inj_on_of_nodup_map h.nodup_seq hm hm' heq

theorem seq_nonneg (h : b.Numbered) {m : Message} (hm : m ∈ b.toList) : 0 ≤ m.seq := by
  have hmem : m.seq ∈ b.toList.map Message.seq := List.mem_map_of_mem hm
  rw [h.map_seq] at hmem
  obtain ⟨i, -, heq⟩ := List.mem_map.mp hmem
  omega

/-- A query with clauses finds what it should: its walk splits the accepted
    messages, newest first, into those that are found and older ones. -/
theorem scan (h : b.Numbered) (limit : Nat) (clauses : List Clause) :
    Scan b limit clauses (b.find limit (.filter clauses)) := by
  generalize haccepted : b.toList.reverse.filter (anyAccepts clauses) = accepted
  have hfind : b.find limit (.filter clauses) = accepted.take limit := by
    rw [← haccepted]
    rfl
  have hmem (m : Message) : m ∈ accepted ↔ m ∈ b.toList ∧ anyAccepts clauses m = true := by
    rw [← haccepted, List.mem_filter, List.mem_reverse]
  have hsorted : accepted.Pairwise fun m m' => m'.seq < m.seq := by
    rw [← haccepted]
    refine List.Pairwise.filter _ ?_
    rw [List.pairwise_reverse]
    exact h.ascending
  have hsplit : accepted.take limit ++ accepted.drop limit = accepted := List.take_append_drop ..
  rw [hfind]
  constructor
  · intro m hm
    exact ((hmem m).mp (List.mem_of_mem_take hm)).1
  · intro m hm
    exact ((hmem m).mp (List.mem_of_mem_take hm)).2
  · exact hsorted.sublist (List.take_sublist ..)
  · rw [List.length_take, ← haccepted, ← List.countP_eq_length_filter, List.countP_reverse]
  · intro m hm hanswers hnot m' hm'
    have hrest : m ∈ accepted.drop limit := by
      have hall := (hmem m).mpr ⟨hm, hanswers⟩
      rw [← hsplit] at hall
      rcases List.mem_append.mp hall with htake | hdrop
      · exact absurd htake hnot
      · exact hdrop
    rw [← hsplit] at hsorted
    exact (List.pairwise_append.mp hsorted).2.2 m' hm' m hrest

/-- A query for everything finds the newest end of the buffer. -/
theorem newest (h : b.Numbered) (limit : Nat) : Newest b limit (b.find limit .all) := by
  have hsize := h.size_le
  have hfind : b.find limit .all = b.toList.drop (b.size - min b.size limit) := rfl
  have hlength : (b.find limit .all).length = min b.size limit := by
    rw [hfind, List.length_drop, length_toList]
    omega
  have hseq : (b.find limit .all).map Message.seq
      = (List.range' (b.received - (b.find limit .all).length) (b.find limit .all).length).map
        fun i : Nat => (i : Int) := by
    rw [hlength, hfind, List.map_drop, h.map_seq, ← List.map_drop, List.drop_range']
    congr 2 <;> omega
  refine ⟨List.drop_suffix _ _, hlength, hseq, ?_⟩
  intro m hm
  -- the last one of ascending numbers, unless there is none
  have hlast : ((b.find limit .all).map Message.seq).getLast? = some m.seq := by
    rw [List.getLast?_map, Option.mem_def.mp hm]
    rfl
  rw [hseq, List.getLast?_map, List.getLast?_range'] at hlast
  split at hlast
  · exact nomatch hlast
  · next hpos =>
    have heq : ((b.received - (b.find limit .all).length + (b.find limit .all).length - 1 : Nat)
        : Int) = m.seq := Option.some.inj hlast
    omega

/-- A query finds messages as they are kept, and none of them twice. -/
theorem found_once (h : b.Numbered) (limit : Nat) (q : Query) :
    (∀ m ∈ b.find limit q, m ∈ b.toList) ∧ ((b.find limit q).map Message.seq).Nodup := by
  cases q with
  | all =>
      have hnewest := h.newest limit
      exact ⟨hnewest.suffix.subset, h.nodup_seq.sublist (hnewest.suffix.sublist.map _)⟩
  | filter clauses =>
      have hscan := h.scan limit clauses
      refine ⟨hscan.kept, ?_⟩
      rw [List.Nodup, List.pairwise_map]
      exact hscan.descending.imp fun hlt => (Int.ne_of_lt hlt).symm

end Numbered

end Buffer

namespace Store

variable {settings : StoreSettings} {t : Trace} {s : System}

theorem Run.numbered_buffer (run : Run settings t s) : s.buffer.Numbered := by
  rw [run.buffer_eq]
  exact Buffer.numbered_performAll _ _

/-- **RESULTS ARE COMPLETE, ORDERED AND CAPPED**: in every state that a run
    comes to, and for every size of a reply, a query with clauses finds what
    `Scan` says and a query for everything what `Newest` says. Neither names
    a message twice, and both show each message as it is kept. The owner
    replies so, with the size that the store was made with. -/
theorem query_results_complete (run : Run settings t s) :
    (∀ (limit : Nat) (clauses : List Clause),
        s.buffer.Scan limit clauses (s.buffer.reply limit (.query (.filter clauses))).messages)
      ∧ (∀ limit : Nat, s.buffer.Newest limit (s.buffer.reply limit (.query .all)).messages)
      ∧ (∀ (limit : Nat) (q : Query),
          (s.buffer.reply limit (.query q)).totalReceived = s.buffer.received
          ∧ ((s.buffer.reply limit (.query q)).messages.map Message.seq).Nodup
          ∧ ∀ m ∈ (s.buffer.reply limit (.query q)).messages, ∀ m' ∈ s.buffer.toList,
              m'.seq = m.seq → m' = m)
      ∧ ∀ (s' : System) (id : Nat) (q : Query) (reply : Reply),
          s.step .serve = some (s', .served id (.query q) reply) →
          reply = s.buffer.reply settings.maxResults (.query q) := by
  have hnumbered := run.numbered_buffer
  refine ⟨fun limit clauses => hnumbered.scan limit clauses, fun limit => hnumbered.newest limit,
    ?_, ?_⟩
  · intro limit q
    obtain ⟨hkept, hnodup⟩ := hnumbered.found_once limit q
    refine ⟨rfl, hnodup, ?_⟩
    intro m hm m' hm' heq
    exact hnumbered.eq_of_seq_eq hm' (hkept m hm) heq
  · intro s' id q reply served
    have hsettings := run.settings_eq
    cases Step.of_step served with
    | serve owner => rw [hsettings]

/-- Room for three messages, and for one in a reply. -/
def narrow : StoreSettings := ⟨3, 1, 2, 2, ⟨1000⟩⟩

/-- Four records come in, the first one leaves, and a query is taken that two
    of the others answer. -/
def querying : List Action :=
  [.start, .send (plain [1]), .send (plain [2]), .takeRecord ⟨0, 0⟩, .send (plain [3]),
    .takeRecord ⟨1, 0⟩, .takeRecord ⟨1, 0⟩, .send (plain [4]),
    .ask (.query (.filter [{ high := 2 }])), .takeRequest, .drainRecord ⟨2, 0⟩]

/-- What comes of it. -/
def queryingRun : Trace × System := ((System.new narrow).play querying).get (by decide)

theorem fits_queryingRun : ∀ m ∈ queryingRun.2.buffer.toList, m.seq ≤ greatestSeq := by
  have hseq : ∀ n ∈ queryingRun.2.buffer.toList.map Message.seq, n ≤ greatestSeq := by decide
  exact fun m hm => hseq m.seq (List.mem_map_of_mem hm)

theorem query_results_complete_narrow :
    Run narrow queryingRun.1 queryingRun.2
      ∧ ∃ (s' : System) (id : Nat) (reply : Reply),
          queryingRun.2.step .serve
              = some (s', .served id (.query (.filter [{ high := 2 }])) reply)
          ∧ reply.messages.map Message.seq = [2]
          ∧ queryingRun.2.buffer.Scan 1 [{ high := 2 }] reply.messages
          ∧ queryingRun.2.buffer.Newest 2
              (queryingRun.2.buffer.reply 2 (.query .all)).messages := by
  have hrun : Run narrow queryingRun.1 queryingRun.2 := Run.of_play (by decide)
  obtain ⟨s', reply, hserved⟩ : ∃ s' reply, queryingRun.2.step .serve
      = some (s', .served 4 (.query (.filter [{ high := 2 }])) reply) := ⟨_, _, rfl⟩
  obtain ⟨hscan, hnewest, -, hreply⟩ := query_results_complete hrun
  obtain rfl := hreply s' 4 _ reply hserved
  exact ⟨hrun, s', 4, _, hserved, rfl, hscan 1 _, hnewest 2⟩

end Store

end BusWindow
