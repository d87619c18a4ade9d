import BusWindow.Proofs.Tallies
import BusWindow.Toml.Reader

/-!
# Growth — the rules by which a document grows

    A document grows by headers and by keys with values. `Grows` is a table
    that changes at the end of a path, with the tables on the way: one that
    is not there is opened, and one that has a header is closed for dotted
    keys. `Puts`, `Headed` and `HeadedNext` are the changes at the end, and
    `Follows` is one statement of a document.

    The rules say which growths there are, and the functions that grow a
    document give nothing for all others (`head_eq_some_iff_follows`,
    `headNext_eq_some_iff_follows`, `put_eq_some_iff_follows`, all three from
    `update_eq_some_iff`), as long as every key of a table stands in it once.
    What a document holds in the end is what its statements have put there,
    nothing less and nothing more (`Builds.leaves_perm`), and unless there
    are tables in double brackets nothing is put twice (`Builds.nodup_held`).
-/

namespace BusWindow.Toml

open Json (Value)

/-! ## Tables in which every key stands once -/

/-- An item in whose open tables every key stands once. -/
inductive Item.Distinct : Item → Prop where
  | leaf {v : Value} : Item.Distinct (.leaf v)
  | table {kind : Kind} {es : Entries} (names : (es.map Prod.fst).Nodup)
      (entries : ∀ e ∈ es, Item.Distinct e.2) : Item.Distinct (.table kind es)
  | tables {earlier : List Entries} {last : Entries} (names : (last.map Prod.fst).Nodup)
      (entries : ∀ e ∈ last, Item.Distinct e.2) : Item.Distinct (.tables earlier last)

/-- Entries each of which has a key of its own. -/
structure Entries.Distinct (es : Entries) : Prop where
  names : (es.map Prod.fst).Nodup
  entries : ∀ e ∈ es, e.2.Distinct

section Distinct

variable {es front back : Entries} {key : String} {item item' : Item}

theorem Entries.Distinct.nil : Entries.Distinct [] := ⟨List.nodup_nil, nofun⟩

/-- A new key may be put behind the others. -/
theorem Entries.Distinct.concat (h : es.Distinct) (fresh : key ∉ es.map Prod.fst)
    (distinct : item.Distinct) : Entries.Distinct (es ++ [(key, item)]) := by
  constructor
  · rw [List.map_append, List.nodup_append]
    refine ⟨h.names, List.nodup_singleton key, ?_⟩
    rintro name hname _ hkey rfl
    obtain rfl := List.mem_singleton.mp hkey
    exact fresh hname
  · exact List.forall_mem_append.mpr ⟨h.entries, List.forall_mem_singleton.mpr distinct⟩

/-- In the tables inside every key stands once as well. -/
theorem Entries.Distinct.inside (h : Entries.Distinct (front ++ (key, item) :: back)) :
    item.Distinct :=
  h.entries _ (List.mem_append_right _ List.mem_cons_self)

/-- The item under a key may be another one. -/
theorem Entries.Distinct.swap (h : Entries.Distinct (front ++ (key, item) :: back))
    (distinct : item'.Distinct) : Entries.Distinct (front ++ (key, item') :: back) := by
  obtain ⟨names, entries⟩ := h
  simp only [List.forall_mem_append, List.forall_mem_cons] at entries
  refine ⟨by simpa using names, ?_⟩
  exact List.forall_mem_append.mpr ⟨entries.1, List.forall_mem_cons.mpr ⟨distinct, entries.2.2⟩⟩

/-- A key is not found if it does not stand in the table. -/
theorem get?_eq_none_iff : es.get? key = none ↔ key ∉ es.map Prod.fst := by
  simp only [Entries.get?, List.lookup_eq_none_iff, bne_iff_ne, List.mem_map, not_exists, not_and]
  exact forall₂_congr fun e _ => ne_comm

/-- What is found under a key stands somewhere. -/
theorem exists_split (h : es.get? key = some item) :
    ∃ front back, es = front ++ (key, item) :: back := by
  obtain ⟨front, back, rfl, -⟩ := List.lookup_eq_some_iff.mp h
  exact ⟨front, back, rfl⟩

/-- A key stands nowhere else. -/
theorem Entries.Distinct.notMem (h : Entries.Distinct (front ++ (key, item) :: back)) :
    (∀ e ∈ front, e.1 ≠ key) ∧ ∀ e ∈ back, e.1 ≠ key := by
  have names := h.names
  rw [List.map_append, List.map_cons, List.nodup_append, List.nodup_cons] at names
  obtain ⟨-, ⟨hback, -⟩, hfront⟩ := names
  refine ⟨fun e he => hfront _ (List.mem_map_of_mem he) _ List.mem_cons_self, fun e he hkey => ?_⟩
  exact hback (List.mem_map.mpr ⟨e, he, hkey⟩)

/-- What stands somewhere is found under its key. -/
theorem Entries.Distinct.get?_eq (h : Entries.Distinct (front ++ (key, item) :: back)) :
    Entries.get? key (front ++ (key, item) :: back) = some item :=
  List.lookup_eq_some_iff.mpr
    ⟨front, back, rfl, fun e he => bne_iff_ne.mpr (h.notMem.1 e he).symm⟩

theorem replace_of_notMem (h : ∀ e ∈ es, e.1 ≠ key) (item : Item) : es.replace key item = es :=
  (List.map_congr_left fun e he => if_neg (h e he)).trans (List.map_id es)

/-- One item is put in the place of another, and all others stay. -/
theorem Entries.Distinct.replace_eq (h : Entries.Distinct (front ++ (key, item) :: back)) :
    Entries.replace key item' (front ++ (key, item) :: back) = front ++ (key, item') :: back := by
  have hback := replace_of_notMem h.notMem.2 item'
  have hfront := replace_of_notMem h.notMem.1 item'
  simp only [Entries.replace, List.map_append, List.map_cons, if_true] at hfront hback ⊢
  rw [hfront, hback]

end Distinct

/-! ## Growth at the end of a path -/

/-- A table changes at the end of a path. Tables on the way that are not there
    are opened as tables of some kind, and through dotted keys no table with a
    header is reached. -/
inductive Grows (kind : Kind) (Change : Kind → Entries → Entries → Prop) :
    List String → Kind → Entries → Entries → Prop where
  | here {there : Kind} {es es' : Entries} (change : Change there es es') :
      Grows kind Change [] there es es'
  | opened {there : Kind} {key : String} {path : List String} {es sub : Entries}
      (fresh : key ∉ es.map Prod.fst) (inside : Grows kind Change path kind [] sub) :
      Grows kind Change (key :: path) there es (es ++ [(key, .table kind sub)])
  | entered {there inner : Kind} {key : String} {path : List String}
      {front back sub sub' : Entries} (reached : kind = .dotted → inner ≠ .headed)
      (inside : Grows kind Change path inner sub sub') :
      Grows kind Change (key :: path) there (front ++ (key, .table inner sub) :: back)
        (front ++ (key, .table inner sub') :: back)
  | continued {there : Kind} {key : String} {path : List String} {earlier : List Entries}
      {front back last last' : Entries} (inside : Grows kind Change path .headed last last') :
      Grows kind Change (key :: path) there (front ++ (key, .tables earlier last) :: back)
        (front ++ (key, .tables earlier last') :: back)

/-- A table changes under the last key of a path. -/
def Reaches (kind : Kind) (Change : String → Kind → Entries → Entries → Prop)
    (path : List String) (here : Kind) (es es' : Entries) : Prop :=
  ∃ way name, path = way ++ [name] ∧ Grows kind (Change name) way here es es'

/-- A value is put under a path. Its last key must be new, and the table it
    goes to is a dotted one if and only if the path has more keys. -/
def Puts (path : List String) (v : Value) : Kind → Entries → Entries → Prop :=
  Reaches .dotted (fun name there es es' => (there = .dotted ↔ 1 < path.length)
    ∧ name ∉ es.map Prod.fst ∧ es' = es ++ [(name, .leaf v)]) path

/-- A table gets a header: one that is new, or that headers have only gone
    through so far. -/
inductive Headed (name : String) : Entries → Entries → Prop where
  | opened {es : Entries} (fresh : name ∉ es.map Prod.fst) :
      Headed name es (es ++ [(name, .table .headed [])])
  | passed {front back sub : Entries} :
      Headed name (front ++ (name, .table .passed sub) :: back)
        (front ++ (name, .table .headed sub) :: back)

/-- One more table begins under a name. -/
inductive HeadedNext (name : String) : Entries → Entries → Prop where
  | opened {es : Entries} (fresh : name ∉ es.map Prod.fst) :
      HeadedNext name es (es ++ [(name, .tables [] [])])
  | next {earlier : List Entries} {front back last : Entries} :
      HeadedNext name (front ++ (name, .tables earlier last) :: back)
        (front ++ (name, .tables (earlier ++ [last]) []) :: back)

section Growth

variable {kind here : Kind} {Change : Kind → Entries → Entries → Prop}
  {change : Kind → Entries → Option Entries} {path : List String} {name : String} {v : Value}
  {es es' : Entries}

/-- Growth keeps every key once if the change at the end of the path does. -/
theorem Grows.distinct (h : Grows kind Change path here es es')
    (keeps : ∀ there es es', Change there es es' → es.Distinct → es'.Distinct)
    (distinct : es.Distinct) : es'.Distinct := by
  induction h with
  | here change => exact keeps _ _ _ change distinct
  | opened fresh _ ih =>
      have hsub := ih .nil
      exact distinct.concat fresh (.table hsub.names hsub.entries)
  | entered _ _ ih =>
      cases distinct.inside with
      | table names entries =>
          have hsub := ih ⟨names, entries⟩
          exact distinct.swap (.table hsub.names hsub.entries)
  | continued _ ih =>
      cases distinct.inside with
      | tables names entries =>
          have hlast := ih ⟨names, entries⟩
          exact distinct.swap (.tables hlast.names hlast.entries)

/-- What grows is what the rules allow to grow, by induction on the path. -/
theorem grows_of_update (distinct : es.Distinct)
    (changes : ∀ there {es es' : Entries}, es.Distinct →
      change there es = some es' → Change there es es')
    (h : Entries.update kind change path here es = some es') :
    Grows kind Change path here es es' := by
  induction path generalizing here es es' with
  | nil => exact .here (changes here distinct h)
  | cons key path ih =>
      rw [Entries.update] at h
      split at h
      · next hget =>
        obtain ⟨sub, hsub, rfl⟩ := Option.map_eq_some_iff.mp h
        exact .opened (get?_eq_none_iff.mp hget) (ih .nil hsub)
      · cases h
      · next earlier last hget =>
        obtain ⟨front, back, rfl⟩ := exists_split hget
        obtain ⟨last', hlast, rfl⟩ := Option.map_eq_some_iff.mp h
        rw [distinct.replace_eq]
        cases distinct.inside with
        | tables names entries => exact .continued (ih ⟨names, entries⟩ hlast)
      · next inner sub hget =>
        obtain ⟨front, back, rfl⟩ := exists_split hget
        obtain ⟨hreached, h⟩ := Option.ite_none_left_eq_some.mp h
        obtain ⟨sub', hsub, rfl⟩ := Option.map_eq_some_iff.mp h
        rw [distinct.replace_eq]
        cases distinct.inside with
        | table names entries => exact .entered (not_and.mp hreached) (ih ⟨names, entries⟩ hsub)

/-- What the rules allow to grow grows, by induction on how it does. -/
theorem Grows.update_eq (h : Grows kind Change path here es es') (distinct : es.Distinct)
    (changes : ∀ there {es es' : Entries}, es.Distinct →
      Change there es es' → change there es = some es') :
    Entries.update kind change path here es = some es' := by
  induction h with
  | here hchange => exact changes _ distinct hchange
  | opened fresh _ ih =>
      rw [Entries.update, get?_eq_none_iff.mpr fresh]
      simp only [ih .nil, Option.map_some, Entries.add]
  | entered reached _ ih =>
      rw [Entries.update, distinct.get?_eq]
      cases distinct.inside with
      | table names entries =>
          simp only [ih ⟨names, entries⟩, if_neg (not_and.mpr reached), Option.map_some,
            distinct.replace_eq]
  | continued _ ih =>
      rw [Entries.update, distinct.get?_eq]
      cases distinct.inside with
      | tables names entries =>
          simp only [ih ⟨names, entries⟩, Option.map_some, distinct.replace_eq]

/-- The growths that the rules allow are those that there are. -/
theorem update_eq_some_iff (distinct : es.Distinct)
    (changes : ∀ there {es es' : Entries}, es.Distinct →
      (change there es = some es' ↔ Change there es es')) :
    Entries.update kind change path here es = some es' ↔ Grows kind Change path here es es' :=
  ⟨grows_of_update distinct fun there _ _ hes => (changes there hes).mp,
    fun h => h.update_eq distinct fun there _ _ hes => (changes there hes).mpr⟩

/-- The way to the last part of a path is gone as growth has it. -/
theorem update_dropLast_eq_some_iff {Change : String → Kind → Entries → Entries → Prop}
    (distinct : es.Distinct) (nonempty : path ≠ [])
    (changes : ∀ there {es es' : Entries}, es.Distinct →
      (change there es = some es' ↔ Change (path.getLast?.getD "") there es es')) :
    Entries.update kind change path.dropLast here es = some es'
      ↔ Reaches kind Change path here es es' := by
  obtain ⟨way, name, rfl⟩ : ∃ way name, path = way ++ [name] :=
    ⟨_, _, (List.dropLast_append_getLast nonempty).symm⟩
  rw [List.getLast?_concat, Option.getD_some] at changes
  rw [List.dropLast_concat, update_eq_some_iff distinct changes]
  constructor
  · exact fun h => ⟨way, name, rfl, h⟩
  · rintro ⟨way', name', heq, h⟩
    obtain ⟨rfl, hname⟩ := List.append_inj' heq rfl
    obtain rfl := List.singleton_inj.mp hname
    exact h

/-- The same for a change under the last part of a path. -/
theorem Reaches.distinct {Change : String → Kind → Entries → Entries → Prop}
    (h : Reaches kind Change path here es es')
    (keeps : ∀ name there es es', Change name there es es' → es.Distinct → es'.Distinct)
    (distinct : es.Distinct) : es'.Distinct := by
  obtain ⟨way, name, rfl, hgrows⟩ := h
  exact hgrows.distinct (keeps name) distinct

/-- A value is put at a path if and only if the table grows by it. -/
theorem putPath_eq_some_iff (distinct : es.Distinct) (nonempty : path ≠ []) :
    putPath path v here es = some es' ↔ Puts path v here es es' := by
  refine update_dropLast_eq_some_iff distinct nonempty fun there {es es'} _ => ?_
  rw [Option.ite_none_left_eq_some, Option.ite_none_left_eq_some, Option.some_inj,
    Option.not_isSome_iff_eq_none, get?_eq_none_iff, eq_comm (b := es')]
  refine and_congr ?_ Iff.rfl
  match path, nonempty with
  | [_], _ => simp
  | _ :: _ :: _, _ => simp

/-- Putting a value keeps every key once. -/
theorem Puts.distinct (h : Puts path v here es es') (distinct : es.Distinct) : es'.Distinct := by
  refine Reaches.distinct h ?_ distinct
  rintro name there es es' ⟨-, fresh, rfl⟩ hes
  exact hes.concat fresh .leaf

/-- A header opens a table, or one that was opened on the way to another. -/
theorem head_eq_some_iff (distinct : es.Distinct) :
    es.head name = some es' ↔ Headed name es es' := by
  constructor
  · intro h
    unfold Entries.head at h
    split at h
    · next hget =>
      obtain rfl := Option.some.inj h
      exact .opened (get?_eq_none_iff.mp hget)
    · next sub hget =>
      obtain ⟨front, back, rfl⟩ := exists_split hget
      obtain rfl := Option.some.inj h
      rw [distinct.replace_eq]
      exact .passed
    · cases h
  · intro h
    cases h with
    | opened fresh => rw [Entries.head, get?_eq_none_iff.mpr fresh, Entries.add]
    | passed =>
        rw [Entries.head, distinct.get?_eq]
        exact congrArg some distinct.replace_eq

/-- A header keeps every key once. -/
theorem Headed.distinct (h : Headed name es es') (distinct : es.Distinct) : es'.Distinct := by
  cases h with
  | opened fresh => exact distinct.concat fresh (.table List.nodup_nil nofun)
  | passed =>
      cases distinct.inside with
      | table names entries => exact distinct.swap (.table names entries)

/-- The header of one more table opens the first, or one behind the others. -/
theorem headNext_eq_some_iff (distinct : es.Distinct) :
    es.headNext name = some es' ↔ HeadedNext name es es' := by
  constructor
  · intro h
    unfold Entries.headNext at h
    split at h
    · next hget =>
      obtain rfl := Option.some.inj h
      exact .opened (get?_eq_none_iff.mp hget)
    · next earlier last hget =>
      obtain ⟨front, back, rfl⟩ := exists_split hget
      obtain rfl := Option.some.inj h
      rw [distinct.replace_eq]
      exact .next
    · cases h
  · intro h
    cases h with
    | opened fresh => rw [Entries.headNext, get?_eq_none_iff.mpr fresh, Entries.add]
    | next =>
        rw [Entries.headNext, distinct.get?_eq]
        exact congrArg some distinct.replace_eq

/-- So does the header of one more table. -/
theorem HeadedNext.distinct (h : HeadedNext name es es') (distinct : es.Distinct) :
    es'.Distinct := by
  cases h with
  | opened fresh => exact distinct.concat fresh (.tables List.nodup_nil nofun)
  | next => exact distinct.swap (.tables List.nodup_nil nofun)

end Growth

/-! ## Statements -/

/-- What stands at the beginning of a line. -/
inductive Statement where
  /-- A header. -/
  | header (path : List String)
  /-- A header in double brackets. -/
  | headerNext (path : List String)
  /-- A key with its value. -/
  | put (path : List String) (v : Value)

/-- What a statement makes of a document. -/
inductive Follows : Statement → Document → Document → Prop where
  | header {d : Document} {path : List String} {es : Entries}
      (heads : Reaches .passed (fun name _ => Headed name) path .headed d.entries es) :
      Follows (.header path) d ⟨es, path⟩
  | headerNext {d : Document} {path : List String} {es : Entries}
      (heads : Reaches .passed (fun name _ => HeadedNext name) path .headed d.entries es) :
      Follows (.headerNext path) d ⟨es, path⟩
  | put {d : Document} {path : List String} {v : Value} {es : Entries}
      (puts : Grows .passed (Puts path v) d.path .headed d.entries es) :
      Follows (.put path v) d ⟨es, d.path⟩

/-- What statements make of a document, one after the other. -/
inductive Builds : List Statement → Document → Document → Prop where
  | nil {d : Document} : Builds [] d d
  | cons {statement : Statement} {statements : List Statement} {d d₁ d' : Document}
      (follows : Follows statement d d₁) (more : Builds statements d₁ d') :
      Builds (statement :: statements) d d'

section Statements

variable {statement : Statement} {statements : List Statement} {d d' : Document}
  {path : List String} {v : Value}

/-- A header is followed by the document as it is said to be. -/
theorem head_eq_some_iff_follows (distinct : d.entries.Distinct) (nonempty : path ≠ []) :
    d.head path = some d' ↔ Follows (.header path) d d' := by
  rw [Document.head, Option.map_eq_some_iff]
  constructor
  · rintro ⟨es, hes, rfl⟩
    exact .header ((update_dropLast_eq_some_iff distinct nonempty
      fun _ _ _ => head_eq_some_iff).mp hes)
  · intro h
    cases h with
    | header heads =>
        exact ⟨_, (update_dropLast_eq_some_iff distinct nonempty
          fun _ _ _ => head_eq_some_iff).mpr heads, rfl⟩

/-- The same for the header of one more table. -/
theorem headNext_eq_some_iff_follows (distinct : d.entries.Distinct) (nonempty : path ≠ []) :
    d.headNext path = some d' ↔ Follows (.headerNext path) d d' := by
  rw [Document.headNext, Option.map_eq_some_iff]
  constructor
  · rintro ⟨es, hes, rfl⟩
    exact .headerNext ((update_dropLast_eq_some_iff distinct nonempty
      fun _ _ _ => headNext_eq_some_iff).mp hes)
  · intro h
    cases h with
    | headerNext heads =>
        exact ⟨_, (update_dropLast_eq_some_iff distinct nonempty
          fun _ _ _ => headNext_eq_some_iff).mpr heads, rfl⟩

/-- The same for an entry, in the table of the header above it. -/
theorem put_eq_some_iff_follows (distinct : d.entries.Distinct) (nonempty : path ≠ []) :
    d.put path v = some d' ↔ Follows (.put path v) d d' := by
  rw [Document.put, Option.map_eq_some_iff]
  constructor
  · rintro ⟨es, hes, rfl⟩
    exact .put ((update_eq_some_iff distinct
      fun _ _ _ hes => putPath_eq_some_iff hes nonempty).mp hes)
  · intro h
    cases h with
    | put puts =>
        exact ⟨_, (update_eq_some_iff distinct
          fun _ _ _ hes => putPath_eq_some_iff hes nonempty).mpr puts, rfl⟩

/-- One statement leaves every key standing once. -/
theorem Follows.distinct (h : Follows statement d d') (distinct : d.entries.Distinct) :
    d'.entries.Distinct := by
  cases h with
  | header heads => exact heads.distinct (fun _ _ _ _ h => h.distinct) distinct
  | headerNext heads => exact heads.distinct (fun _ _ _ _ h => h.distinct) distinct
  | put puts => exact puts.distinct (fun _ _ _ h => h.distinct) distinct

/-- In a document that statements build every key stands once. -/
theorem Builds.distinct (h : Builds statements d d') (distinct : d.entries.Distinct) :
    d'.entries.Distinct := by
  induction h with
  | nil => exact distinct
  | cons follows _ ih => exact ih (follows.distinct distinct)

end Statements

/-! ## What a document holds -/

mutual

/-- The values that an item holds, each with its path from the item on. -/
def Item.leaves : Item → List (List String × Value)
  | .leaf v => [([], v)]
  | .table _ entries => entriesLeaves entries
  | .tables earlier last => tablesLeaves earlier ++ entriesLeaves last

/-- The values that entries hold, each with its path. -/
def entriesLeaves : List (String × Item) → List (List String × Value)
  | [] => []
  | (key, item) :: rest => item.leaves.map (fun l => (key :: l.1, l.2)) ++ entriesLeaves rest

/-- The values that tables hold. -/
def tablesLeaves : List (List (String × Item)) → List (List String × Value)
  | [] => []
  | entries :: rest => entriesLeaves entries ++ tablesLeaves rest

end

/-- The values that statements put, each with its whole path, where keys
    belong to the table under `place`. -/
def held (place : List String) : List Statement → List (List String × Value)
  | [] => []
  | .header path :: rest => held path rest
  | .headerNext path :: rest => held path rest
  | .put path v :: rest => (place ++ path, v) :: held place rest

section Leaves

variable {kind here : Kind} {Change : Kind → Entries → Entries → Prop} {path : List String}
  {key name : String} {v : Value} {item : Item} {es es' front back : Entries}
  {new : List (List String × Value)} {statement : Statement} {statements : List Statement}
  {d d' : Document}

/-- Two tables together hold what each of them holds. -/
theorem entriesLeaves_append :
    entriesLeaves (front ++ back) = entriesLeaves front ++ entriesLeaves back := by
  induction front with
  | nil => rfl
  | cons e rest ih =>
      rw [List.cons_append, entriesLeaves, entriesLeaves, ih, List.append_assoc]

theorem tablesLeaves_append {before after : List Entries} :
    tablesLeaves (before ++ after) = tablesLeaves before ++ tablesLeaves after := by
  induction before with
  | nil => rfl
  | cons es rest ih => rw [List.cons_append, tablesLeaves, tablesLeaves, ih, List.append_assoc]

/-- What an item holds under a key. -/
theorem leaves_under (h : item.leaves.Perm new) :
    (entriesLeaves [(key, item)]).Perm (new.map fun l => (key :: l.1, l.2)) := by
  rw [entriesLeaves, entriesLeaves, List.append_nil]
  exact h.map _

/-- If the item under a key holds more, so do the entries. -/
theorem leaves_swap {item' : Item} (h : item'.leaves.Perm (new ++ item.leaves)) :
    (entriesLeaves (front ++ (key, item') :: back)).Perm
      (new.map (fun l => (key :: l.1, l.2)) ++ entriesLeaves (front ++ (key, item) :: back)) := by
  have hitem := h.map fun l => (key :: l.1, l.2)
  rw [List.map_append] at hitem
  simp only [entriesLeaves_append, entriesLeaves]
  refine ((hitem.append_right _).append_left _).trans ?_
  rw [List.append_assoc]
  exact List.perm_append_comm_assoc _ _ _

/-- A table that grows at the end of a path holds the new values under the
    path, and what it held. -/
theorem Grows.leaves_perm (h : Grows kind Change path here es es')
    (new : List (List String × Value))
    (adds : ∀ there es es', Change there es es' →
      (entriesLeaves es').Perm (new ++ entriesLeaves es)) :
    (entriesLeaves es').Perm (new.map (fun l => (path ++ l.1, l.2)) ++ entriesLeaves es) := by
  have hunder (key : String) (path : List String) :
      (new.map fun l => (path ++ l.1, l.2)).map (fun l => (key :: l.1, l.2))
        = new.map fun l => (key :: path ++ l.1, l.2) := by
    rw [List.map_map]
    rfl
  induction h with
  | here change => simpa using adds _ _ _ change
  | @opened there key path es sub _ _ ih =>
      have hitem : (Item.table kind sub).leaves.Perm (new.map fun l => (path ++ l.1, l.2)) := by
        rw [Item.leaves]
        rwa [entriesLeaves, List.append_nil] at ih
      rw [entriesLeaves_append, ← hunder]
      exact ((leaves_under hitem).append_left _).trans List.perm_append_comm
  | @entered there inner key path front back sub sub' _ _ ih =>
      rw [← hunder]
      refine leaves_swap ?_
      rwa [Item.leaves, Item.leaves]
  | @continued there key path earlier front back last last' _ ih =>
      rw [← hunder]
      refine leaves_swap ?_
      rw [Item.leaves, Item.leaves]
      exact (ih.append_left _).trans (List.perm_append_comm_assoc _ _ _)

/-- A change under the last part of a path that adds no value leaves a table
    with what it held. -/
theorem Reaches.leaves_perm {Change : String → Kind → Entries → Entries → Prop}
    (h : Reaches kind Change path here es es')
    (adds : ∀ name there es es', Change name there es es' →
      (entriesLeaves es').Perm (entriesLeaves es)) :
    (entriesLeaves es').Perm (entriesLeaves es) := by
  obtain ⟨way, name, rfl, hgrows⟩ := h
  exact hgrows.leaves_perm [] (adds name)

/-- A header puts no value. -/
theorem Headed.leaves_perm (h : Headed name es es') :
    (entriesLeaves es').Perm (entriesLeaves es) := by
  cases h with
  | opened fresh => simp [entriesLeaves_append, entriesLeaves, Item.leaves]
  | passed => simp [entriesLeaves_append, entriesLeaves, Item.leaves]

/-- Nor does the header of one more table. -/
theorem HeadedNext.leaves_perm (h : HeadedNext name es es') :
    (entriesLeaves es').Perm (entriesLeaves es) := by
  cases h with
  | opened fresh => simp [entriesLeaves_append, entriesLeaves, Item.leaves, tablesLeaves]
  | next =>
      simp [entriesLeaves_append, entriesLeaves, Item.leaves, tablesLeaves_append, tablesLeaves]

/-- An entry puts its value under its whole path. -/
theorem Puts.leaves_perm (h : Puts path v here es es') :
    (entriesLeaves es').Perm ((path, v) :: entriesLeaves es) := by
  obtain ⟨way, name, rfl, hgrows⟩ := h
  refine hgrows.leaves_perm [([name], v)] ?_
  rintro there es es' ⟨-, -, rfl⟩
  rw [entriesLeaves_append]
  exact List.perm_append_comm

/-- **WHAT A DOCUMENT HOLDS**: its values are those that its statements have
    put there, each under its whole path; none is lost and none is made up. -/
theorem Builds.leaves_perm (h : Builds statements d d') :
    (entriesLeaves d'.entries).Perm (held d.path statements ++ entriesLeaves d.entries) := by
  induction h with
  | nil => rfl
  | @cons statement statements d d₁ d' follows _ ih =>
      cases follows with
      | header heads =>
          exact ih.trans ((heads.leaves_perm fun _ _ _ _ h => h.leaves_perm).append_left _)
      | headerNext heads =>
          exact ih.trans ((heads.leaves_perm fun _ _ _ _ h => h.leaves_perm).append_left _)
      | @put _ path v es puts =>
          have hput := puts.leaves_perm [(path, v)] fun _ _ _ h => h.leaves_perm
          exact ih.trans ((hput.append_left _).trans List.perm_middle)

end Leaves

/-! ## Nothing is put twice -/

/-- An item that holds no tables under headers in double brackets. -/
inductive Item.Single : Item → Prop where
  | leaf {v : Value} : Item.Single (.leaf v)
  | table {kind : Kind} {es : Entries} (entries : ∀ e ∈ es, Item.Single e.2) :
      Item.Single (.table kind es)

/-- Entries none of which holds such tables. -/
def Entries.Single (es : Entries) : Prop := ∀ e ∈ es, e.2.Single

section Single

variable {kind here : Kind} {Change : Kind → Entries → Entries → Prop} {path : List String}
  {key name : String} {v : Value} {item item' : Item} {es es' front back : Entries}
  {statements : List Statement} {d d' : Document}

theorem Entries.Single.concat (h : es.Single) (single : item.Single) :
    Entries.Single (es ++ [(key, item)]) :=
  List.forall_mem_append.mpr ⟨h, List.forall_mem_singleton.mpr single⟩

theorem Entries.Single.inside (h : Entries.Single (front ++ (key, item) :: back)) : item.Single :=
  h _ (List.mem_append_right _ List.mem_cons_self)

theorem Entries.Single.swap (h : Entries.Single (front ++ (key, item) :: back))
    (single : item'.Single) : Entries.Single (front ++ (key, item') :: back) := by
  obtain ⟨hfront, hback⟩ := List.forall_mem_append.mp h
  refine List.forall_mem_append.mpr ⟨hfront, List.forall_mem_cons.mpr ⟨single, ?_⟩⟩
  exact (List.forall_mem_cons.mp hback).2

/-- Growth opens no tables in double brackets on its way. -/
theorem Grows.single (h : Grows kind Change path here es es')
    (keeps : ∀ there es es', Change there es es' → es.Single → es'.Single) (single : es.Single) :
    es'.Single := by
  induction h with
  | here change => exact keeps _ _ _ change single
  | opened _ _ ih => exact single.concat (.table (ih nofun))
  | entered _ _ ih =>
      cases single.inside with
      | table entries => exact single.swap (.table (ih entries))
  | continued => exact nomatch single.inside

theorem Puts.single (h : Puts path v here es es') (single : es.Single) : es'.Single := by
  obtain ⟨way, name, rfl, hgrows⟩ := h
  refine hgrows.single ?_ single
  rintro there es es' ⟨-, -, rfl⟩ hes
  exact hes.concat .leaf

theorem Headed.single (h : Headed name es es') (single : es.Single) : es'.Single := by
  cases h with
  | opened fresh => exact single.concat (.table nofun)
  | passed =>
      cases single.inside with
      | table entries => exact single.swap (.table entries)

/-- Without headers in double brackets there are no such tables. -/
theorem Builds.single (h : Builds statements d d') (plain : ∀ path, .headerNext path ∉ statements)
    (single : d.entries.Single) : d'.entries.Single := by
  induction h with
  | nil => exact single
  | cons follows _ ih =>
      refine ih (fun path hpath => plain path (List.mem_cons_of_mem _ hpath)) ?_
      cases follows with
      | header heads =>
          obtain ⟨way, name, -, hgrows⟩ := heads
          exact hgrows.single (fun _ _ _ h => h.single) single
      | headerNext => exact absurd List.mem_cons_self (plain _)
      | put puts => exact puts.single (fun _ _ _ h => h.single) single

/-- The path of a value begins with one of the keys. -/
theorem exists_key_of_mem {l : List String × Value} (h : l ∈ entriesLeaves es) :
    ∃ key path, l.1 = key :: path ∧ key ∈ es.map Prod.fst := by
  induction es with
  | nil => exact nomatch h
  | cons e rest ih =>
      obtain ⟨key, item⟩ := e
      rcases List.mem_append.mp h with hitem | hrest
      · obtain ⟨l', -, rfl⟩ := List.mem_map.mp hitem
        exact ⟨key, l'.1, rfl, List.mem_cons_self⟩
      · obtain ⟨key', path, hl, hkey⟩ := ih hrest
        exact ⟨key', path, hl, List.mem_cons_of_mem _ hkey⟩

/-- Under different keys there are different paths. -/
theorem nodup_entriesLeaves (names : (es.map Prod.fst).Nodup)
    (each : ∀ e ∈ es, (e.2.leaves.map Prod.fst).Nodup) :
    ((entriesLeaves es).map Prod.fst).Nodup := by
  induction es with
  | nil => exact List.nodup_nil
  | cons e rest ih =>
      obtain ⟨key, item⟩ := e
      rw [List.map_cons, List.nodup_cons] at names
      obtain ⟨hitem, hrest⟩ := List.forall_mem_cons.mp each
      have hunder : ((item.leaves.map fun l => (key :: l.1, l.2)).map Prod.fst).Nodup := by
        have hpaths : (item.leaves.map fun l => (key :: l.1, l.2)).map Prod.fst
            = (item.leaves.map Prod.fst).map (key :: ·) := by simp
        rw [hpaths]
        exact hitem.map fun _ _ h => (List.cons.inj h).2
      rw [entriesLeaves, List.map_append]
      refine List.nodup_append.mpr ⟨hunder, ih names.2 hrest, ?_⟩
      rintro path hpath _ hpath' rfl
      obtain ⟨_, hl, rfl⟩ := List.mem_map.mp hpath
      obtain ⟨l, -, rfl⟩ := List.mem_map.mp hl
      obtain ⟨l', hl', heq⟩ := List.mem_map.mp hpath'
      obtain ⟨key', path, hkey', hmem⟩ := exists_key_of_mem hl'
      obtain ⟨rfl, -⟩ := List.cons.inj (hkey'.symm.trans heq)
      exact names.1 hmem

/-- No two values of an item stand under one path. -/
theorem Item.Single.nodup_leaves (h : item.Single) (distinct : item.Distinct) :
    (item.leaves.map Prod.fst).Nodup := by
  induction h with
  | leaf => exact List.nodup_singleton _
  | table _ ih =>
      cases distinct with
      | table names entries => exact nodup_entriesLeaves names fun e he => ih e he (entries e he)

/-- **NOTHING IS PUT TWICE**: statements that build a document put no two values
    under one path, unless there are headers in double brackets among them. -/
theorem Builds.nodup_held (h : Builds statements ⟨[], []⟩ d)
    (plain : ∀ path, .headerNext path ∉ statements) :
    ((held [] statements).map Prod.fst).Nodup := by
  have hdistinct := h.distinct .nil
  have hsingle := h.single plain nofun
  have hleaves : (entriesLeaves d.entries).Perm (held [] statements) := by
    simpa [entriesLeaves] using h.leaves_perm
  rw [← (hleaves.map Prod.fst).nodup_iff]
  exact nodup_entriesLeaves hdistinct.names fun e he =>
    (hsingle e he).nodup_leaves (hdistinct.entries e he)

end Single

/-! ## What stands under the keys of a document -/

/-- In a map a key is found as in any list of pairs. -/
theorem get?_eq_lookup {α : Type} (key : String) (map : List (String × α)) :
    SortedMap.get? key map = map.lookup key := by
  induction map with
  | nil => rfl
  | cons p rest ih =>
      obtain ⟨k, v⟩ := p
      by_cases hk : k = key
      · rw [SortedMap.get?, if_pos hk, hk, List.lookup_cons_self]
      · rw [SortedMap.get?, if_neg hk, List.lookup_cons, beq_eq_false_iff_ne.mpr (Ne.symm hk), ih]

/-- In the value of a table there stands under each key what its item stands
    for. -/
theorem lookup_entriesValue (es : Entries) (key : String) :
    (entriesValue es).lookup key = (es.get? key).map Item.value := by
  induction es with
  | nil => rfl
  | cons e rest ih =>
      obtain ⟨k, item⟩ := e
      rw [← get?_eq_lookup] at ih ⊢
      rw [entriesValue, SortedMap.get?_insert, ih, Entries.get?, Entries.get?]
      by_cases hk : k = key
      · rw [if_pos hk, hk, List.lookup_cons_self, Option.map_some]
      · rw [if_neg hk, List.lookup_cons, beq_eq_false_iff_ne.mpr (Ne.symm hk)]

end BusWindow.Toml
