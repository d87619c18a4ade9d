import Mathlib.Algebra.GroupWithZero.Nat
import Mathlib.Data.List.Induction
import Mathlib.Data.List.Sort
import BusWindow.Tally
import BusWindow.Proofs.Values

/-!
# Tallies — what is counted, and that its order does not matter

    Keys are counted one after the other into a map without order, and the
    map is sorted when all are counted. All that can be read off a tally is
    how often each folded key was counted, and a map in ascending order is
    the only one with its contents. So neither the order of the map nor that
    of the keys matters.

    * `get?_insert` and `Sorted.ext` are about sorted maps: what is under each
      key after a change, and that this determines the map;
    * `get?_counts` says what is under a key of a map of counts, by induction
      on the keys counted so far;
    * `ofCounts_perm` is about the order of the map, and `ofKeys_perm` about
      that of the keys.
-/

namespace BusWindow

/-! ## What is under the keys of a map -/

namespace SortedMap

variable {α : Type} {key : String} {value : α} {map map' : List (String × α)}

/-- A change under one key leaves the others as they were. -/
theorem get?_insert (key key' : String) (value : α) (map : List (String × α)) :
    get? key' (insert key value map) = if key = key' then some value else get? key' map := by
  induction map with
  | nil => rfl
  | cons p rest ih =>
      obtain ⟨k, v⟩ := p
      rw [insert]
      split
      · rfl
      · split
        · next heq =>
          -- the pair that is replaced had the same key
          subst heq
          rw [get?, get?]
          split
          · rfl
          · rfl
        · next hne =>
          rw [get?, get?, ih]
          by_cases hk : k = key'
          · rw [if_pos hk, if_pos hk, if_neg fun heq => hne (heq.trans hk.symm)]
          · rw [if_neg hk, if_neg hk]

/-- What is found under a key stands there. -/
theorem mem_of_get?_eq_some (h : get? key map = some value) : (key, value) ∈ map := by
  induction map with
  | nil => exact nomatch h
  | cons p rest ih =>
      obtain ⟨k, v⟩ := p
      rw [get?] at h
      split at h
      · next heq =>
        rw [heq, Option.some.inj h]
        exact List.mem_cons_self
      · exact List.mem_cons_of_mem _ (ih h)

/-- Where every key stands once, every pair can be found under its key. -/
theorem get?_eq_some_iff (distinct : (map.map Prod.fst).Nodup) :
    get? key map = some value ↔ (key, value) ∈ map := by
  refine ⟨mem_of_get?_eq_some, ?_⟩
  intro hmem
  induction map with
  | nil => exact nomatch hmem
  | cons p rest ih =>
      obtain ⟨k, v⟩ := p
      obtain ⟨hfirst, hrest⟩ := List.nodup_cons.mp distinct
      rcases List.mem_cons.mp hmem with heq | hmem
      · obtain ⟨rfl, rfl⟩ := Prod.mk.inj heq
        exact if_pos rfl
      · have hne : k ≠ key := by
          rintro rfl
          exact hfirst (List.mem_map.mpr ⟨_, hmem, rfl⟩)
        rw [get?, if_neg hne]
        exact ih hrest hmem

/-- In a sorted map every key stands once. -/
theorem Sorted.nodup (h : Sorted map) : (map.map Prod.fst).Nodup :=
  List.pairwise_map.mpr (h.imp ne_of_lt)

/-- In a sorted map every pair can be found under its key. -/
theorem Sorted.get?_eq_some_iff (h : Sorted map) :
    get? key map = some value ↔ (key, value) ∈ map :=
  SortedMap.get?_eq_some_iff h.nodup

/-- There is one sorted map with given pairs. -/
theorem Sorted.eq_of_mem_iff (h : Sorted map) (h' : Sorted map')
    (same : ∀ p, p ∈ map ↔ p ∈ map') : map = map' := by
  have : Std.Irrefl fun a b : String × α => a.1 < b.1 := ⟨fun a => lt_irrefl a.1⟩
  have : Std.Antisymm fun a b : String × α => a.1 < b.1 :=
    ⟨fun a b hlt hlt' => absurd hlt' (lt_asymm hlt)⟩
  exact List.Pairwise.eq_of_mem_iff h h' same

/-- There is one sorted map with given values under its keys. -/
theorem Sorted.ext (h : Sorted map) (h' : Sorted map')
    (same : ∀ key, get? key map = get? key map') : map = map' := by
  refine h.eq_of_mem_iff h' ?_
  rintro ⟨key, value⟩
  rw [← h.get?_eq_some_iff, ← h'.get?_eq_some_iff, same]

end SortedMap

/-! ## What is counted -/

namespace Tally

variable {keys keys' : List String}

/-- One more of a key changes what is under this key. -/
theorem get?_increment (key key' : String) (counts : Counts) :
    SortedMap.get? key' (counts.increment key)
      = if key = key' then some ((SortedMap.get? key counts).getD 0 + 1)
        else SortedMap.get? key' counts := by
  induction counts with
  | nil => rfl
  | cons p rest ih =>
      obtain ⟨k, n⟩ := p
      rw [Counts.increment]
      by_cases heq : k = key
      · subst heq
        rw [if_pos rfl, SortedMap.get?, SortedMap.get?, SortedMap.get?, if_pos rfl,
          Option.getD_some]
        split
        · rfl
        · rfl
      · rw [if_neg heq, SortedMap.get?, SortedMap.get?, SortedMap.get?, if_neg heq, ih]
        by_cases hk : k = key'
        · rw [if_pos hk, if_pos hk, if_neg fun h => heq (hk.trans h.symm)]
        · rw [if_neg hk, if_neg hk]

/-- The keys with one more of a key: it is new at the end, or it was there. -/
theorem map_fst_increment (key : String) (counts : Counts) :
    (counts.increment key).map Prod.fst
      = if key ∈ counts.map Prod.fst then counts.map Prod.fst
        else counts.map Prod.fst ++ [key] := by
  induction counts with
  | nil => rfl
  | cons p rest ih =>
      obtain ⟨k, n⟩ := p
      rw [Counts.increment]
      by_cases heq : k = key
      · rw [if_pos heq, if_pos (heq ▸ List.mem_cons_self)]
        rfl
      · have hmem : key ∈ ((k, n) :: rest).map Prod.fst ↔ key ∈ rest.map Prod.fst := by
          rw [List.map_cons, List.mem_cons, or_iff_right (Ne.symm heq)]
        rw [if_neg heq, List.map_cons, ih]
        split
        · next hrest => rw [if_pos (hmem.mpr hrest), List.map_cons]
        · next hrest => rw [if_neg (mt hmem.mp hrest), List.map_cons, List.cons_append]

/-- One more of a key adds one to the sum of all counts. -/
theorem sum_increment (key : String) (counts : Counts) :
    ((counts.increment key).map Prod.snd).sum = (counts.map Prod.snd).sum + 1 := by
  induction counts with
  | nil => rfl
  | cons p rest ih =>
      obtain ⟨k, n⟩ := p
      rw [Counts.increment]
      split
      · simp only [List.map_cons, List.sum_cons]
        omega
      · simp only [List.map_cons, List.sum_cons, ih]
        omega

/-- The last key is counted when the others have been. -/
theorem counts_concat (keys : List String) (key : String) :
    counts (keys ++ [key]) = (counts keys).increment (RoutingKey.fold key) := by
  rw [counts, List.foldl_append]
  rfl

/-- Every folded key is counted in one place. -/
theorem nodup_counts (keys : List String) : ((counts keys).map Prod.fst).Nodup := by
  induction keys using List.reverseRecOn with
  | nil => exact List.nodup_nil
  | append_singleton keys key ih =>
      rw [counts_concat, map_fst_increment]
      split
      · exact ih
      · next hnew =>
        rw [List.nodup_append]
        refine ⟨ih, List.nodup_singleton _, ?_⟩
        intro k hk k' hk'
        obtain rfl := List.mem_singleton.mp hk'
        rintro rfl
        exact hnew hk

/-- Under a key stands how often it was counted, and nothing if it never
    was. -/
theorem get?_counts (keys : List String) (key : String) :
    SortedMap.get? key (counts keys)
      = if (keys.map RoutingKey.fold).count key = 0 then none
        else some ((keys.map RoutingKey.fold).count key) := by
  induction keys using List.reverseRecOn with
  | nil => rfl
  | append_singleton keys last ih =>
      rw [counts_concat, get?_increment, List.map_append, List.count_append]
      by_cases h : RoutingKey.fold last = key
      · have hlast : ([last].map RoutingKey.fold).count key = 1 := by
          rw [List.map_singleton, h, List.count_singleton_self]
        rw [if_pos h, h, ih, hlast, if_neg (Nat.succ_ne_zero _)]
        -- no entry yet and the count zero are the same
        split
        · next hzero => rw [hzero]; rfl
        · rfl
      · have hlast : ([last].map RoutingKey.fold).count key = 0 := by
          rw [List.map_singleton, List.count_singleton, if_neg (by simpa using h)]
        rw [if_neg h, ih, hlast, Nat.add_zero]

/-! ## What is listed -/

/-- A tally lists what its counts hold. -/
theorem ofCounts_perm_self (counts : Counts) : (ofCounts counts).Perm counts :=
  List.mergeSort_perm _ _

/-- A tally is sorted if every key is counted in one place. -/
theorem sorted_ofCounts {counts : Counts} (distinct : (counts.map Prod.fst).Nodup) :
    SortedMap.Sorted (ofCounts counts) := by
  have hle : (ofCounts counts).Pairwise fun a b => (!decide (b.1 < a.1)) = true := by
    refine List.pairwise_mergeSort ?_ ?_ counts
    · intro a b c hab hbc
      simp only [Bool.not_eq_true', decide_eq_false_iff_not, not_lt] at hab hbc ⊢
      exact le_trans hab hbc
    · intro a b
      simp only [Bool.or_eq_true, Bool.not_eq_true', decide_eq_false_iff_not, not_lt]
      exact le_total a.1 b.1
  have hne : (ofCounts counts).Pairwise fun a b => a.1 ≠ b.1 :=
    List.pairwise_map.mp (((ofCounts_perm_self counts).map Prod.fst).nodup_iff.mpr distinct)
  refine hle.imp₂ (fun a b hnot hne => ?_) hne
  simp only [Bool.not_eq_true', decide_eq_false_iff_not, not_lt] at hnot
  exact lt_of_le_of_ne hnot hne

/-- In whatever order the counts stand, their tally is the same. -/
theorem ofCounts_perm {counts counts' : Counts} (distinct : (counts.map Prod.fst).Nodup)
    (h : counts'.Perm counts) : ofCounts counts' = ofCounts counts := by
  have hdistinct' : (counts'.map Prod.fst).Nodup := (h.map Prod.fst).nodup_iff.mpr distinct
  refine (sorted_ofCounts hdistinct').eq_of_mem_iff (sorted_ofCounts distinct) fun p => ?_
  rw [(ofCounts_perm_self counts').mem_iff, (ofCounts_perm_self counts).mem_iff, h.mem_iff]

/-- Where nothing is counted, nothing is listed. -/
theorem ofKeys_nil : ofKeys [] = [] := List.mergeSort_nil

/-- The keys of a tally ascend. -/
theorem sorted_ofKeys (keys : List String) : SortedMap.Sorted (ofKeys keys) :=
  sorted_ofCounts (nodup_counts keys)

/-- A key stands in a tally with how often it was counted, and not if it
    never was. -/
theorem get?_ofKeys (keys : List String) (key : String) :
    SortedMap.get? key (ofKeys keys)
      = if (keys.map RoutingKey.fold).count key = 0 then none
        else some ((keys.map RoutingKey.fold).count key) := by
  rw [← get?_counts]
  refine Option.ext fun n => ?_
  rw [(sorted_ofKeys keys).get?_eq_some_iff, SortedMap.get?_eq_some_iff (nodup_counts keys),
    ofKeys, (ofCounts_perm_self _).mem_iff]

/-- Every key that is counted adds one to the sum of a tally. -/
theorem sum_ofKeys (keys : List String) : ((ofKeys keys).map Prod.snd).sum = keys.length := by
  rw [ofKeys, ((ofCounts_perm_self (counts keys)).map Prod.snd).sum_nat]
  induction keys using List.reverseRecOn with
  | nil => rfl
  | append_singleton keys key ih =>
      rw [counts_concat, sum_increment, ih, List.length_append, List.length_singleton]

/-- The order in which keys are counted does not matter. -/
theorem ofKeys_perm (h : keys.Perm keys') : ofKeys keys = ofKeys keys' := by
  refine (sorted_ofKeys keys).ext (sorted_ofKeys keys') ?_
  intro key
  rw [get?_ofKeys, get?_ofKeys, (h.map RoutingKey.fold).count_eq]

end Tally

end BusWindow
