import BusWindow.Json.Shape
import BusWindow.Settings

/-!
# Settings as values

    Settings are given as a value: an object of sections, each of which is
    an object of settings. What is missing keeps its default and what is
    not known is passed over. A section, and the whole, may also be given
    as an array of its parts in their order, which may be cut short. Whether
    it may also be longer depends on where the value comes from.
-/

namespace BusWindow

open Json (Value Taken Members takeNat takeCount takeBool takeText refuse)

namespace Settings

/-- The texts of some values, up to the first that is none. -/
def takeEach : List Value → Except Json.Cause (List String)
  | [] => .ok []
  | v :: rest =>
    match takeText v with
    | .error e => .error e
    | .ok s => (takeEach rest).map (s :: ·)

/-- A list of texts. -/
def takeTexts : Taken (List String)
  | .array items => takeEach items
  | v => refuse "a sequence" v

/-- The address of a host. -/
def takeAddress : Taken Address
  | .string s =>
    match Address.ofString? s with
    | some address => .ok address
    | none => .error (.misfit "invalid IP address syntax")
  | v => refuse "IP address" v

/-- A part of a section: its name, and how it is put in. -/
structure Part (σ : Type) where
  name : String
  put : σ → Taken σ

/-- The part whose value is taken by `taken` and put in by `set`. -/
def part {σ α : Type} (name : String) (taken : Taken α) (set : σ → α → σ) : Part σ :=
  ⟨name, fun s v => (taken v).map (set s)⟩

/-- Puts in the members of an object, in their order. -/
def putMembers {σ : Type} (parts : List (Part σ)) : σ → Members → Except Json.Cause σ
  | s, [] => .ok s
  | s, (name, v) :: rest =>
    match parts.find? fun p => p.name == name with
    | none => putMembers parts s rest
    | some p =>
      match p.put s v with
      | .error e => .error e
      | .ok s => putMembers parts s rest

/-- Puts in the items of an array, in the order of the parts. -/
def putItems {σ : Type} : List (Part σ) → σ → List Value → Except Json.Cause σ
  | p :: parts, s, v :: rest =>
    match p.put s v with
    | .error e => .error e
    | .ok s => putItems parts s rest
  | _, s, _ => .ok s

/-- Whether an array may hold more items than its section has parts. -/
inductive Surplus where
  | allowed
  | refused
  deriving DecidableEq, Repr

/-- A section with its parts, which begins with the defaults. -/
def takeSection {σ : Type} (surplus : Surplus) (name : String) (parts : List (Part σ))
    (defaults : σ) : Taken σ
  | .object members => putMembers parts defaults members
  | .array items =>
    match putItems parts defaults items with
    | .error e => .error e
    | .ok s =>
      if surplus = .refused ∧ parts.length < items.length then
        .error (.wrongLength items.length "fewer elements in array")
      else .ok s
  | v => refuse ("struct " ++ name) v

def serverParts : List (Part ServerSettings) :=
  [part "host" takeAddress fun s a => { s with host := a },
   part "port" (takeNat 65536 "u16") fun s n => { s with port := n }]

def storeParts : List (Part StoreSection) :=
  [part "capacity" takeCount fun s n => { s with capacity := n },
   part "max_results" takeCount fun s n => { s with maxResults := n },
   part "request_queue" takeCount fun s n => { s with requestQueue := n },
   part "ingest_queue" takeCount fun s n => { s with ingestQueue := n },
   part "request_timeout_ms" (takeNat Json.Number.naturalBound "u64") fun s n =>
     { s with timeoutMillis := n }]

def ingestParts : List (Part IngestSettings) :=
  [part "ignore_keys" takeTexts fun s l => { s with ignoreKeys := l },
   part "class_header" takeText fun s t => { s with classHeader := t },
   part "indent_json" takeBool fun s b => { s with indentJson := b }]

def queryParts : List (Part QuerySettings) :=
  [part "min_length" takeCount fun s n => { s with minLength := n }]

def loggingParts : List (Part LoggingSettings) :=
  [part "level" takeText fun s t => { s with level := t },
   part "json" takeBool fun s b => { s with json := b }]

/-- The sections. -/
def sections (surplus : Surplus) : List (Part Settings) :=
  [part "server" (takeSection surplus "ServerConfig" serverParts {})
     fun s x => { s with server := x },
   part "store" (takeSection surplus "StoreSettings" storeParts {})
     fun s x => { s with store := x },
   part "ingest" (takeSection surplus "IngestSettings" ingestParts {})
     fun s x => { s with ingest := x },
   part "query" (takeSection surplus "QuerySettings" queryParts {})
     fun s x => { s with query := x },
   part "logging" (takeSection surplus "LoggingConfig" loggingParts {})
     fun s x => { s with logging := x }]

/-- The settings that a value stands for. -/
def ofValue (surplus : Surplus) : Taken Settings :=
  takeSection surplus "Config" (sections surplus) {}

end Settings

end BusWindow
