import Mathlib.Logic.Relation
import BusWindow.Proofs.Addresses
import BusWindow.Proofs.Tallies
import BusWindow.Settings.Form

/-!
# Sections — what a value says of each setting

    A section is an object of settings, or an array of them in their order. A
    setting that a section gives has the value that is given, one that it
    does not give has its default, and a section that gives a setting a value
    of the wrong kind says nothing at all.

    * `IsAddress`, `IsNat`, `IsTexts` are the kinds of values, and `Given` is
      a setting that is given or has its default;
    * `Settles` is what the parts of a section do one after the other;
      `putMembers_ok_iff` and `putItems_ok_iff` are the inductions over the
      members of an object and the items of an array;
    * `settles_part_iff` takes one setting out of a section, and
      `ofValue_ok_iff` puts the sections together.
-/

namespace BusWindow.Settings

open Json (Value Members Taken Number)

/-! ## Kinds of values -/

/-- A value is a text that spells an address. -/
def IsAddress (v : Value) (a : Address) : Prop :=
  ∃ text, v = .string text ∧ Address.Spells text.toList a

/-- A value is a natural number below a bound. -/
def IsNat (bound : Nat) (v : Value) (n : Nat) : Prop := v = .ofNat n ∧ n < bound

/-- A value is a text. -/
def IsText (v : Value) (text : String) : Prop := v = .string text

/-- A value is a truth value. -/
def IsFlag (v : Value) (b : Bool) : Prop := v = .boolean b

/-- A value is a list of texts. -/
def IsTexts (v : Value) (texts : List String) : Prop := v = .array (texts.map .string)

section Kinds

variable {v : Value}

/-- A host is taken from a string that spells an address. -/
theorem takeAddress_ok_iff {a : Address} : takeAddress v = .ok a ↔ IsAddress v a := by
  constructor
  · intro h
    unfold takeAddress at h
    split at h
    · next text =>
      split at h
      · next address haddress =>
        obtain rfl := Except.ok.inj h
        exact ⟨text, rfl, Address.ofString?_eq_some_iff.mp haddress⟩
      · exact nomatch h
    · exact nomatch h
  · rintro ⟨text, rfl, spells⟩
    rw [takeAddress, Address.ofString?_eq_some_iff.mpr spells]

/-- A bounded number is taken from an integer below the bound. -/
theorem takeNat_ok_iff {bound n : Nat} {expected : String} (fits : bound ≤ Number.naturalBound) :
    Json.takeNat bound expected v = .ok n ↔ IsNat bound v n := by
  rw [Json.takeNat_ok_iff_takeInt, Json.takeInt_ok_iff, IsNat]
  constructor
  · rintro ⟨m, rfl, hm, -, hhigh⟩
    cases m with
    | natural k =>
        obtain rfl : k.toNat = n := Int.ofNat.inj (Option.some.inj hm)
        refine ⟨?_, by omega⟩
        rw [Value.ofNat, Number.ofNat, UInt64.ofNat_toNat]
    | negative m =>
        have hvalue : -((m.val + 1 : Nat) : Int) = n := Option.some.inj hm
        omega
    | double x => cases hm
  · rintro ⟨rfl, hlt⟩
    have hvalue : (UInt64.ofNat n).toNat = n :=
      UInt64.toNat_ofNat_of_lt' (Nat.lt_of_lt_of_le hlt fits)
    refine ⟨.ofNat n, rfl, ?_, Int.natCast_nonneg n, by omega⟩
    rw [Number.ofNat, Number.toInt?, hvalue]

/-- A count is taken from any natural number. -/
theorem takeCount_ok_iff {n : Nat} :
    Json.takeCount v = .ok n ↔ IsNat Number.naturalBound v n :=
  takeNat_ok_iff (Nat.le_refl _)

/-- A text is taken from a string. -/
theorem takeText_ok_iff {text : String} : Json.takeText v = .ok text ↔ IsText v text := by
  constructor
  · intro h
    unfold Json.takeText at h
    split at h
    · rw [IsText, Except.ok.inj h]
    · exact nomatch h
  · rintro rfl
    rfl

/-- A switch is taken from a boolean. -/
theorem takeBool_ok_iff {b : Bool} : Json.takeBool v = .ok b ↔ IsFlag v b := by
  constructor
  · intro h
    unfold Json.takeBool at h
    split at h
    · rw [IsFlag, Except.ok.inj h]
    · exact nomatch h
  · rintro rfl
    rfl

theorem takeEach_map (texts : List String) : takeEach (texts.map .string) = .ok texts := by
  induction texts with
  | nil => rfl
  | cons text texts ih =>
      rw [List.map_cons, takeEach, Json.takeText, ih]
      rfl

/-- Texts are taken from items that are all strings. -/
theorem takeEach_ok_iff {items : List Value} {texts : List String} :
    takeEach items = .ok texts ↔ items = texts.map .string := by
  constructor
  · intro h
    induction items generalizing texts with
    | nil =>
        obtain rfl := Except.ok.inj h
        rfl
    | cons w rest ih =>
        rw [takeEach] at h
        cases htext : Json.takeText w with
        | error e =>
            rw [htext] at h
            exact nomatch h
        | ok text =>
            cases hrest : takeEach rest with
            | error e =>
                rw [htext, hrest] at h
                exact nomatch h
            | ok more =>
                rw [htext, hrest] at h
                obtain rfl := Except.ok.inj h
                obtain rfl := takeText_ok_iff.mp htext
                rw [List.map_cons, ← ih hrest]
  · rintro rfl
    exact takeEach_map texts

/-- A list of texts is taken from an array of strings. -/
theorem takeTexts_ok_iff {texts : List String} : takeTexts v = .ok texts ↔ IsTexts v texts := by
  cases v with
  | array items =>
      rw [takeTexts, takeEach_ok_iff, IsTexts, Value.array.injEq]
  | _ =>
      constructor
      · exact nofun
      · exact nofun

end Kinds

/-! ## Settings that are given or have their defaults -/

/-- A setting has the value that is given for it, if it is of the right kind,
    and its default if none is given. -/
inductive Given {α : Type} (is : Value → α → Prop) (default : α) : Option Value → α → Prop where
  | absent : Given is default none default
  | present {v : Value} {a : α} (kind : is v a) : Given is default (some v) a

/-- The settings of the server, with their defaults. -/
structure ServerSays (members : Members) (s : ServerSettings) : Prop where
  host : Given IsAddress (.v4 127 0 0 1) (members.lookup "host") s.host
  port : Given (IsNat 65536) 9090 (members.lookup "port") s.port

/-- The settings of the store, with their defaults. -/
structure StoreSays (members : Members) (s : StoreSection) : Prop where
  capacity : Given (IsNat Number.naturalBound) 100000 (members.lookup "capacity") s.capacity
  maxResults : Given (IsNat Number.naturalBound) 1000 (members.lookup "max_results") s.maxResults
  requestQueue :
    Given (IsNat Number.naturalBound) 64 (members.lookup "request_queue") s.requestQueue
  ingestQueue :
    Given (IsNat Number.naturalBound) 1024 (members.lookup "ingest_queue") s.ingestQueue
  timeoutMillis :
    Given (IsNat Number.naturalBound) 5000 (members.lookup "request_timeout_ms") s.timeoutMillis

/-- The settings of what is taken in, with their defaults. -/
structure IngestSays (members : Members) (s : IngestSettings) : Prop where
  ignoreKeys : Given IsTexts [] (members.lookup "ignore_keys") s.ignoreKeys
  classHeader : Given IsText "__ClassName__" (members.lookup "class_header") s.classHeader
  indentJson : Given IsFlag false (members.lookup "indent_json") s.indentJson

/-- The settings of queries, with their defaults. -/
structure QuerySays (members : Members) (s : QuerySettings) : Prop where
  minLength : Given (IsNat Number.naturalBound) 3 (members.lookup "min_length") s.minLength

/-- The settings of the log, with their defaults. -/
structure LoggingSays (members : Members) (s : LoggingSettings) : Prop where
  level : Given IsText "info" (members.lookup "level") s.level
  json : Given IsFlag false (members.lookup "json") s.json

/-- The members of a section: an array gives the settings in their order, as
    far as it goes. -/
def membersOf? (names : List String) : Value → Option Members
  | .object members => some members
  | .array items => some (names.zip items)
  | _ => none

/-- What a value says as a section with settings of some names. -/
def SectionSays {σ : Type} (names : List String) (said : Members → σ → Prop) (v : Value) (s : σ) :
    Prop :=
  ∃ members, membersOf? names v = some members ∧ said members s

/-- All sections; one that is not given has the defaults. -/
structure SectionsSay (members : Members) (s : Settings) : Prop where
  server : Given (SectionSays ["host", "port"] ServerSays) {} (members.lookup "server") s.server
  store : Given (SectionSays ["capacity", "max_results", "request_queue", "ingest_queue",
    "request_timeout_ms"] StoreSays) {} (members.lookup "store") s.store
  ingest : Given (SectionSays ["ignore_keys", "class_header", "indent_json"] IngestSays) {}
    (members.lookup "ingest") s.ingest
  query : Given (SectionSays ["min_length"] QuerySays) {} (members.lookup "query") s.query
  logging : Given (SectionSays ["level", "json"] LoggingSays) {} (members.lookup "logging")
    s.logging

/-- The settings that a value says. -/
def Says (v : Value) (s : Settings) : Prop :=
  SectionSays ["server", "store", "ingest", "query", "logging"] SectionsSay v s

/-! ## What the parts of a section do -/

section Parts

variable {σ α : Type} {p q : Part σ} {parts : List (Part σ)} {members : Members}
  {key name : String} {v : Value} {s s' : σ}

/-- What a part does with a value. -/
def Part.Takes (p : Part σ) (v : Value) (s s' : σ) : Prop := p.put s v = .ok s'

/-- What a part does with members: it takes the value under its name, and
    does nothing if there is none. -/
def Part.Puts (p : Part σ) (members : Members) : σ → σ → Prop :=
  match members.lookup p.name with
  | none => Eq
  | some v => p.Takes v

/-- What the parts do, one after the other. -/
def Settles : List (Part σ) → Members → σ → σ → Prop
  | [], _ => Eq
  | p :: parts, members => Relation.Comp (p.Puts members) (Settles parts members)

/-- Two parts may take their values in either order. -/
def Part.Commute (p q : Part σ) : Prop :=
  ∀ v w, Relation.Comp (p.Takes v) (q.Takes w) = Relation.Comp (q.Takes w) (p.Takes v)

/-- A section whose parts have names of their own and may come in any
    order. -/
structure Sound (parts : List (Part σ)) : Prop where
  names : (parts.map Part.name).Nodup
  commute : parts.Pairwise Part.Commute

/-- Without its first part a list of sound parts is sound. -/
theorem Sound.tail (h : Sound (p :: parts)) : Sound parts :=
  ⟨(List.nodup_cons.mp h.names).2, (List.pairwise_cons.mp h.commute).2⟩

theorem lookup_eq_none (h : name ∉ members.map Prod.fst) : members.lookup name = none := by
  rw [List.lookup_eq_none_iff]
  intro m hm
  rw [bne_iff_ne]
  rintro rfl
  exact h (List.mem_map_of_mem hm)

/-- A part whose name is not given changes nothing. -/
theorem Part.puts_of_notMem (h : p.name ∉ members.map Prod.fst) : p.Puts members = Eq := by
  rw [Part.Puts, lookup_eq_none h]

/-- A part does not see what is given under another name. -/
theorem Part.puts_cons_of_ne (h : p.name ≠ key) :
    p.Puts ((key, v) :: members) = p.Puts members := by
  rw [Part.Puts, Part.Puts, List.lookup_cons, beq_eq_false_iff_ne.mpr h]

/-- A part takes what is given under its name. -/
theorem Part.puts_cons_self : p.Puts ((p.name, v) :: members) = p.Takes v := by
  rw [Part.Puts, List.lookup_cons_self]

/-- What no part has a name for is passed over. -/
theorem settles_cons_of_notMem (h : key ∉ parts.map Part.name) :
    Settles parts ((key, v) :: members) = Settles parts members := by
  induction parts with
  | nil => rfl
  | cons p parts ih =>
      obtain ⟨hne, hrest⟩ := not_or.mp (mt List.mem_cons.mpr h)
      rw [Settles, Settles, Part.puts_cons_of_ne (Ne.symm hne), ih hrest]

/-- Where nothing is given nothing changes. -/
theorem settles_nil (parts : List (Part σ)) : Settles parts [] = Eq := by
  induction parts with
  | nil => rfl
  | cons p parts ih =>
      rw [Settles, Part.puts_of_notMem List.not_mem_nil, ih, Relation.comp_eq]

/-- If two parts commute, what is given to one of them may be taken before
    the other puts in what is given to it. -/
theorem Part.Commute.puts (h : p.Commute q) :
    Relation.Comp (p.Puts members) (q.Takes v) = Relation.Comp (q.Takes v) (p.Puts members) := by
  rw [Part.Puts]
  cases members.lookup p.name with
  | none => rw [Relation.comp_eq, Relation.eq_comp]
  | some w => exact h w v

/-- A value under the name of a part may be taken before all others. -/
theorem settles_cons_of_mem (sound : Sound parts) (hp : p ∈ parts)
    (fresh : p.name ∉ members.map Prod.fst) :
    Settles parts ((p.name, v) :: members) = Relation.Comp (p.Takes v) (Settles parts members) := by
  induction parts with
  | nil => exact nomatch hp
  | cons q parts ih =>
      obtain ⟨hnames, -⟩ := List.nodup_cons.mp sound.names
      rcases List.mem_cons.mp hp with rfl | hmem
      · rw [Settles, Settles, Part.puts_cons_self, settles_cons_of_notMem hnames,
          Part.puts_of_notMem fresh, Relation.eq_comp]
      · have hne : q.name ≠ p.name := fun heq => hnames (heq ▸ List.mem_map_of_mem hmem)
        have hcommute : q.Commute p := (List.pairwise_cons.mp sound.commute).1 p hmem
        rw [Settles, Settles, Part.puts_cons_of_ne hne, ih sound.tail hmem, ← Relation.comp_assoc,
          hcommute.puts, Relation.comp_assoc]

/-- The members of an object, in whatever order, come to what the parts do
    one after the other. -/
theorem putMembers_ok_iff (sound : Sound parts) (distinct : (members.map Prod.fst).Nodup) :
    putMembers parts s members = .ok s' ↔ Settles parts members s s' := by
  induction members generalizing s with
  | nil => rw [putMembers, settles_nil, Except.ok.injEq]
  | cons m rest ih =>
      obtain ⟨key, v⟩ := m
      obtain ⟨hkey, hrest⟩ := List.nodup_cons.mp distinct
      rw [putMembers]
      cases hfind : parts.find? fun p => p.name == key with
      | none =>
          have hunknown : key ∉ parts.map Part.name := by
            intro hmem
            obtain ⟨p, hp, rfl⟩ := List.mem_map.mp hmem
            simpa using List.find?_eq_none.mp hfind p hp
          rw [settles_cons_of_notMem hunknown]
          exact ih hrest
      | some p =>
          have hp := List.mem_of_find?_eq_some hfind
          obtain rfl : p.name = key := by simpa using List.find?_some hfind
          rw [settles_cons_of_mem sound hp hkey]
          simp only [Relation.Comp, Part.Takes]
          cases p.put s v with
          | error e => simp
          | ok s₁ => simpa using ih hrest

/-- Without parts the rest of an array is not looked at. -/
theorem putItems_no_parts (s : σ) (items : List Value) : putItems [] s items = .ok s := by
  cases items with
  | nil => rfl
  | cons v rest => rfl

/-- Where the items end the other settings keep their defaults. -/
theorem putItems_no_items (parts : List (Part σ)) (s : σ) : putItems parts s [] = .ok s := by
  cases parts with
  | nil => rfl
  | cons p parts => rfl

/-- The items of an array are taken as if they had the names of the parts. -/
theorem putItems_ok_iff (names : (parts.map Part.name).Nodup) {items : List Value} :
    putItems parts s items = .ok s' ↔ Settles parts ((parts.map Part.name).zip items) s s' := by
  induction parts generalizing s items with
  | nil => rw [putItems_no_parts, Settles, Except.ok.injEq]
  | cons p parts ih =>
      obtain ⟨hname, hnames⟩ := List.nodup_cons.mp names
      cases items with
      | nil => rw [List.zip_nil_right, settles_nil, putItems_no_items, Except.ok.injEq]
      | cons v rest =>
          rw [List.map_cons, List.zip_cons_cons, putItems, Settles, Part.puts_cons_self,
            settles_cons_of_notMem hname]
          simp only [Relation.Comp, Part.Takes]
          cases p.put s v with
          | error e => simp
          | ok s₁ => simpa using ih hnames

/-- A section is told by its members, if each of them has its own name. -/
theorem takeSection_ok_iff (sound : Sound parts) {title : String}
    (distinct : ∀ members, v = .object members → (members.map Prod.fst).Nodup) :
    takeSection .allowed title parts s v = .ok s'
      ↔ ∃ members, membersOf? (parts.map Part.name) v = some members
        ∧ Settles parts members s s' := by
  cases v with
  | object members =>
      simp only [takeSection, membersOf?, Option.some.injEq, exists_eq_left']
      exact putMembers_ok_iff sound (distinct members rfl)
  | array items =>
      simp only [takeSection, membersOf?, Option.some.injEq, exists_eq_left']
      rw [← putItems_ok_iff sound.names]
      cases putItems parts s items with
      | error e => simp
      | ok s₁ => simp
  | _ => simp [takeSection, membersOf?, Json.refuse]

/-! ## Parts that set settings -/

variable {α β : Type} {is : Value → α → Prop} {taken : Taken α} {set : σ → α → σ}

/-- A part that sets one setting takes a value and puts it there. -/
theorem takes_part_iff :
    (part name taken set).Takes v s s' ↔ ∃ a, taken v = .ok a ∧ set s a = s' := by
  simp only [Part.Takes, part]
  cases taken v with
  | error e => simp [Except.map]
  | ok a => simp [Except.map]

/-- Parts that set different settings commute. -/
theorem part_commute {name' : String} {taken' : Taken β} {set' : σ → β → σ}
    (h : ∀ s a b, set' (set s a) b = set (set' s b) a) :
    (part name taken set).Commute (part name' taken' set') := by
  intro v w
  ext s s'
  simp only [Relation.Comp, takes_part_iff]
  constructor
  · rintro ⟨-, ⟨a, ha, rfl⟩, b, hb, rfl⟩
    exact ⟨_, ⟨b, hb, rfl⟩, a, ha, (h s a b).symm⟩
  · rintro ⟨-, ⟨b, hb, rfl⟩, a, ha, rfl⟩
    exact ⟨_, ⟨a, ha, rfl⟩, b, hb, h s a b⟩

/-- A setting comes to what is given for it, or stays as it is; then the
    other parts go on. -/
theorem settles_part_iff {g : σ → α} {rest : α → Prop}
    (kind : ∀ v, members.lookup name = some v → ∀ a, taken v = .ok a ↔ is v a)
    (same : ∀ s, set s (g s) = s) (next : ∀ a, Settles parts members (set s a) s' ↔ rest a) :
    Settles (part name taken set :: parts) members s s'
      ↔ ∃ a, Given is (g s) (members.lookup name) a ∧ rest a := by
  have hputs (s₁ : σ) : (part name taken set).Puts members s s₁
      ↔ ∃ a, Given is (g s) (members.lookup name) a ∧ set s a = s₁ := by
    simp only [Part.Puts, part]
    cases hlookup : members.lookup name with
    | none =>
        constructor
        · rintro rfl
          exact ⟨g s, .absent, same s⟩
        · rintro ⟨a, hgiven, rfl⟩
          cases hgiven with
          | absent => exact (same s).symm
    | some v =>
        refine takes_part_iff.trans (exists_congr fun a => and_congr_left fun _ => ?_)
        rw [kind v hlookup a]
        exact ⟨.present, fun | .present h => h⟩
  simp only [Settles, Relation.Comp, hputs, ← next]
  constructor
  · rintro ⟨-, ⟨a, hgiven, rfl⟩, hsettles⟩
    exact ⟨a, hgiven, hsettles⟩
  · rintro ⟨a, hgiven, hsettles⟩
    exact ⟨_, ⟨a, hgiven, rfl⟩, hsettles⟩

end Parts

/-! ## The sections -/

section Sections

variable {members : Members} {v : Value}

/-- What the parts of the server section settle is what the section has to say. -/
theorem settles_server_iff {s : ServerSettings} :
    Settles serverParts members {} s ↔ ServerSays members s := by
  refine (settles_part_iff (g := fun s => s.host) (fun _ _ _ => takeAddress_ok_iff)
    (fun _ => rfl) fun host =>
    settles_part_iff (g := fun s => s.port) (fun _ _ _ => takeNat_ok_iff (by decide))
      (fun _ => rfl) fun port => Iff.rfl).trans ?_
  constructor
  · rintro ⟨host, hhost, port, hport, rfl⟩
    exact ⟨hhost, hport⟩
  · intro h
    exact ⟨_, h.host, _, h.port, rfl⟩

/-- The same for the store. -/
theorem settles_store_iff {s : StoreSection} :
    Settles storeParts members {} s ↔ StoreSays members s := by
  refine (settles_part_iff (g := fun s => s.capacity) (fun _ _ _ => takeCount_ok_iff)
    (fun _ => rfl) fun capacity =>
    settles_part_iff (g := fun s => s.maxResults) (fun _ _ _ => takeCount_ok_iff)
      (fun _ => rfl) fun maxResults =>
    settles_part_iff (g := fun s => s.requestQueue) (fun _ _ _ => takeCount_ok_iff)
      (fun _ => rfl) fun requestQueue =>
    settles_part_iff (g := fun s => s.ingestQueue) (fun _ _ _ => takeCount_ok_iff)
      (fun _ => rfl) fun ingestQueue =>
    settles_part_iff (g := fun s => s.timeoutMillis)
      (fun _ _ _ => takeNat_ok_iff (Nat.le_refl _)) (fun _ => rfl) fun timeout => Iff.rfl).trans ?_
  constructor
  · rintro ⟨capacity, hcapacity, maxResults, hmaxResults, requestQueue, hrequestQueue,
      ingestQueue, hingestQueue, timeout, htimeout, rfl⟩
    exact ⟨hcapacity, hmaxResults, hrequestQueue, hingestQueue, htimeout⟩
  · intro h
    exact ⟨_, h.capacity, _, h.maxResults, _, h.requestQueue, _, h.ingestQueue, _,
      h.timeoutMillis, rfl⟩

/-- The same for what comes in. -/
theorem settles_ingest_iff {s : IngestSettings} :
    Settles ingestParts members {} s ↔ IngestSays members s := by
  refine (settles_part_iff (g := fun s => s.ignoreKeys) (fun _ _ _ => takeTexts_ok_iff)
    (fun _ => rfl) fun ignoreKeys =>
    settles_part_iff (g := fun s => s.classHeader) (fun _ _ _ => takeText_ok_iff)
      (fun _ => rfl) fun classHeader =>
    settles_part_iff (g := fun s => s.indentJson) (fun _ _ _ => takeBool_ok_iff)
      (fun _ => rfl) fun indentJson => Iff.rfl).trans ?_
  constructor
  · rintro ⟨ignoreKeys, hignoreKeys, classHeader, hclassHeader, indentJson, hindentJson, rfl⟩
    exact ⟨hignoreKeys, hclassHeader, hindentJson⟩
  · intro h
    exact ⟨_, h.ignoreKeys, _, h.classHeader, _, h.indentJson, rfl⟩

/-- The same for queries. -/
theorem settles_query_iff {s : QuerySettings} :
    Settles queryParts members {} s ↔ QuerySays members s := by
  refine (settles_part_iff (g := fun s => s.minLength) (fun _ _ _ => takeCount_ok_iff)
    (fun _ => rfl) fun minLength => Iff.rfl).trans ?_
  constructor
  · rintro ⟨minLength, hminLength, rfl⟩
    exact ⟨hminLength⟩
  · intro h
    exact ⟨_, h.minLength, rfl⟩

/-- The same for logging. -/
theorem settles_logging_iff {s : LoggingSettings} :
    Settles loggingParts members {} s ↔ LoggingSays members s := by
  refine (settles_part_iff (g := fun s => s.level) (fun _ _ _ => takeText_ok_iff)
    (fun _ => rfl) fun level =>
    settles_part_iff (g := fun s => s.json) (fun _ _ _ => takeBool_ok_iff)
      (fun _ => rfl) fun json => Iff.rfl).trans ?_
  constructor
  · rintro ⟨level, hlevel, json, hjson, rfl⟩
    exact ⟨hlevel, hjson⟩
  · intro h
    exact ⟨_, h.level, _, h.json, rfl⟩

/-! Every part sets a setting of its own, so the parts of each section
    commute. -/

/-- The parts of a section have different names and change different settings. -/
theorem sound_serverParts : Sound serverParts := ⟨by decide, by simp [serverParts, part_commute]⟩

theorem sound_storeParts : Sound storeParts := ⟨by decide, by simp [storeParts, part_commute]⟩

theorem sound_ingestParts : Sound ingestParts := ⟨by decide, by simp [ingestParts, part_commute]⟩

theorem sound_queryParts : Sound queryParts := ⟨by decide, by simp [queryParts]⟩

theorem sound_loggingParts : Sound loggingParts :=
  ⟨by decide, by simp [loggingParts, part_commute]⟩

theorem sound_sections : Sound (sections .allowed) := ⟨by decide, by simp [sections, part_commute]⟩

/-- The values of the settings of an ordered section are ordered. -/
theorem ordered_of_lookup {names : List String} {name : String} {w : Value} (ordered : v.Ordered)
    (h : membersOf? names v = some members) (found : members.lookup name = some w) :
    w.Ordered := by
  obtain ⟨before, after, rfl, -⟩ := List.lookup_eq_some_iff.mp found
  have hmem : (name, w) ∈ before ++ (name, w) :: after :=
    List.mem_append_right _ List.mem_cons_self
  cases v with
  | object members =>
      obtain rfl := Option.some.inj h
      exact (Value.ordered_object.mp ordered).2 _ hmem
  | array items =>
      rw [← Option.some.inj h] at hmem
      exact Value.ordered_array.mp ordered _ (List.of_mem_zip hmem).2
  | _ => exact nomatch h

/-- A section is taken as what it says. -/
theorem takeSection_sectionSays_iff {σ : Type} {parts : List (Part σ)} {said : Members → σ → Prop}
    {defaults s : σ} {title : String} (sound : Sound parts) (ordered : v.Ordered)
    (settles : ∀ members, membersOf? (parts.map Part.name) v = some members →
      (Settles parts members defaults s ↔ said members s)) :
    takeSection .allowed title parts defaults v = .ok s
      ↔ SectionSays (parts.map Part.name) said v s := by
  rw [takeSection_ok_iff sound]
  · exact exists_congr fun members => and_congr_right (settles members)
  · rintro members rfl
    exact (Value.ordered_object.mp ordered).1.nodup

/-- What the sections settle is what the members of the file have to say. -/
theorem settles_sections_iff {s : Settings}
    (ordered : ∀ name w, members.lookup name = some w → w.Ordered) :
    Settles (sections .allowed) members {} s ↔ SectionsSay members s := by
  refine (settles_part_iff (g := fun s => s.server) (fun v hv _ =>
      takeSection_sectionSays_iff sound_serverParts (ordered _ _ hv) fun _ _ => settles_server_iff)
    (fun _ => rfl) fun server =>
    settles_part_iff (g := fun s => s.store) (fun v hv _ =>
        takeSection_sectionSays_iff sound_storeParts (ordered _ _ hv) fun _ _ => settles_store_iff)
      (fun _ => rfl) fun store =>
    settles_part_iff (g := fun s => s.ingest) (fun v hv _ =>
        takeSection_sectionSays_iff sound_ingestParts (ordered _ _ hv)
          fun _ _ => settles_ingest_iff)
      (fun _ => rfl) fun ingest =>
    settles_part_iff (g := fun s => s.query) (fun v hv _ =>
        takeSection_sectionSays_iff sound_queryParts (ordered _ _ hv) fun _ _ => settles_query_iff)
      (fun _ => rfl) fun query =>
    settles_part_iff (g := fun s => s.logging) (fun v hv _ =>
        takeSection_sectionSays_iff sound_loggingParts (ordered _ _ hv)
          fun _ _ => settles_logging_iff)
      (fun _ => rfl) fun logging => Iff.rfl).trans ?_
  constructor
  · rintro ⟨server, hserver, store, hstore, ingest, hingest, query, hquery, logging, hlogging, rfl⟩
    exact ⟨hserver, hstore, hingest, hquery, hlogging⟩
  · intro h
    exact ⟨_, h.server, _, h.store, _, h.ingest, _, h.query, _, h.logging, rfl⟩

/-- The settings of an ordered value are what it says. -/
theorem ofValue_ok_iff {s : Settings} (ordered : v.Ordered) :
    ofValue .allowed v = .ok s ↔ Says v s :=
  takeSection_sectionSays_iff sound_sections ordered fun _ h =>
    settles_sections_iff fun _ _ found => ordered_of_lookup ordered h found

end Sections

end BusWindow.Settings
