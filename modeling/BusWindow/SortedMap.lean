/-!
# Sorted maps — association lists in ascending order of their keys

    A map is a list of pairs whose keys ascend strictly, so every key stands
    in it once and two maps with the same pairs are the same list. Keys are
    ordered by their code points, which is also the order of their bytes.
-/

namespace BusWindow.SortedMap

variable {α : Type}

/-- Puts a value under a key: a key that is there already takes the new
    value, a new key goes to its place. -/
def insert (key : String) (value : α) : List (String × α) → List (String × α)
  | [] => [(key, value)]
  | (k, v) :: rest =>
    if key < k then (key, value) :: (k, v) :: rest
    else if key = k then (key, value) :: rest
    else (k, v) :: insert key value rest

/-- The value under a key. -/
def get? (key : String) : List (String × α) → Option α
  | [] => none
  | (k, v) :: rest => if k = key then some v else get? key rest

/-- The map of a list of pairs, in which the last pair with a key counts. -/
def ofList (pairs : List (String × α)) : List (String × α) :=
  pairs.foldl (fun map p => insert p.1 p.2 map) []

/-- Keys ascend strictly. -/
def Sorted (map : List (String × α)) : Prop :=
  map.Pairwise fun a b => a.1 < b.1

end BusWindow.SortedMap
