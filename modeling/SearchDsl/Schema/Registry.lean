import SearchDsl.Schema.Snapshot

/-!
# The registry of mappings

The current snapshot of each index. Every change of the registry has a number, which its snapshot
carries on; removing an index that is not known changes nothing.
-/

namespace SearchDsl

/-- The current snapshots, by index, and the number of changes so far. -/
structure Registry where
  snapshots : List (String × Snapshot)
  generation : Nat

namespace Registry

/-- No index is known. -/
def empty : Registry := ⟨[], 0⟩

/-- The current snapshot of an index. -/
def get? (r : Registry) (index : String) : Option Snapshot := r.snapshots.lookup index

/-- The current snapshot of an index. -/
def snapshot (r : Registry) (index : String) : Except Error Snapshot :=
  match r.get? index with
  | some s => .ok s
  | none => .error (.unknownIndex index)

/-- The index is known. -/
def contains (r : Registry) (index : String) : Bool := (r.get? index).isSome

/-- A mapping becomes the current one of its index. -/
def publish (r : Registry) (index : String) (mapping : Mapping) : Snapshot × Registry :=
  let s := Snapshot.ofMapping index mapping (r.generation + 1)
  (s, ⟨Table.set index s r.snapshots, r.generation + 1⟩)

/-- The index is no longer known. -/
def remove (r : Registry) (index : String) : Registry :=
  if r.contains index then ⟨Table.erase index r.snapshots, r.generation + 1⟩ else r

/-- The names of the known indices, in order. -/
def indices (r : Registry) : List String := r.snapshots.map Prod.fst

end Registry
end SearchDsl
