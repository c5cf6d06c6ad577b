/-!
# Ordered maps

Bindings in ascending order of their keys, each key at most once. `insert` keeps both; a binding
that is already there is replaced. `insertNew` leaves such a binding as it is.
-/

namespace DynProto

/-- Bindings of keys to values, in ascending order of the keys. -/
abbrev OrderedMap (κ : Type u) (α : Type v) := List (κ × α)

namespace OrderedMap

variable {κ : Type u} {α : Type v} [Ord κ]

/-- The map with one binding added or replaced. -/
def insert (key : κ) (value : α) : OrderedMap κ α → OrderedMap κ α
  | [] => [(key, value)]
  | (k, v) :: rest =>
    match compare key k with
    | .lt => (key, value) :: (k, v) :: rest
    | .eq => (key, value) :: rest
    | .gt => (k, v) :: insert key value rest

/-- The value bound to a key. -/
def get? (key : κ) : OrderedMap κ α → Option α
  | [] => none
  | (k, v) :: rest => if compare key k == .eq then some v else get? key rest

/-- The map with one binding added, unless the key is bound already. -/
def insertNew (key : κ) (value : α) (map : OrderedMap κ α) : OrderedMap κ α :=
  match get? key map with
  | some _ => map
  | none => insert key value map

/-- The map of a list of bindings; of several with one key the last one stays. -/
def ofList (bindings : List (κ × α)) : OrderedMap κ α :=
  bindings.foldl (fun map binding => insert binding.1 binding.2 map) []

end OrderedMap

end DynProto
