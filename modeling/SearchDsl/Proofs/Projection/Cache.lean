import SearchDsl.Projection.Cache

/-!
# Entries and floors of the cache

What the operations of the cache do to the entry and to the floor of an index: a refresh and an
invalidation decide those of their own index and leave the others alone.

* `entry_refresh`, `floor_refresh`, `entry_invalidate`, `floor_invalidate`;
* `lookup_of_cached`: an entry of the snapshot's generation is what a reader gets;
* `lookup_of_covers`: a reader whose snapshot is no newer than what is known of its index leaves the
  cache as it is.
-/

namespace SearchDsl
namespace ProjectionCache

variable {c : ProjectionCache} {s : Snapshot} {settings : Settings} {i index : String} {n : Nat}

/-! ### Refreshes and invalidations -/

theorem entry_refresh : (c.refresh s settings).2.entries.lookup index =
    if index = s.index then some ⟨s.generation, Projection.defaults s settings⟩
    else c.entries.lookup index :=
  Table.lookup_set ..

theorem floor_refresh (h : index ≠ s.index) :
    (c.refresh s settings).2.floor index = c.floor index := by
  show ((if c.floor s.index ≤ s.generation then Table.erase s.index c.floors
    else c.floors).lookup index).getD 0 = (c.floors.lookup index).getD 0
  split
  · rw [Table.lookup_erase, if_neg h]
  · rfl

theorem entry_invalidate : (c.invalidate i n).entries.lookup index =
    if index = i then none else c.entries.lookup index :=
  Table.lookup_erase ..

theorem floor_invalidate : (c.invalidate i n).floor index =
    if index = i then n else c.floor index := by
  show ((Table.set i n c.floors).lookup index).getD 0 = _
  rw [Table.lookup_set]
  split <;> rfl

/-! ### Readers -/

/-- What is known of the snapshot's index is at least as new as the snapshot: an entry of its own or
a later generation, or without an entry a later floor. -/
def Covers (c : ProjectionCache) (s : Snapshot) : Prop :=
  match c.entries.lookup s.index with
  | some cached => s.generation ≤ cached.generation
  | none => s.generation < c.floor s.index

theorem lookup_of_cached {p : Projection}
    (h : c.entries.lookup s.index = some ⟨s.generation, p⟩) : c.lookup s settings = (p, c) := by
  simp only [lookup, h, if_pos]

/-- **A reader that is not ahead of the cache does not write to it**, whatever its settings are. -/
theorem lookup_of_covers (h : c.Covers s) : (c.lookup s settings).2 = c := by
  unfold Covers at h
  unfold lookup
  cases hlookup : c.entries.lookup s.index with
  | some cached =>
    rw [hlookup] at h
    have hold : ¬ cached.generation < s.generation := Nat.not_lt.2 h
    dsimp only
    rw [if_neg hold]
    split <;> rfl
  | none =>
    rw [hlookup] at h
    have hold : ¬ c.floor s.index ≤ s.generation := Nat.not_le.2 h
    dsimp only
    rw [if_neg hold]

theorem project_of_covers {includes excludes : List String} (h : c.Covers s) :
    (c.project s settings includes excludes).2 = c :=
  lookup_of_covers h

theorem covers_of_cached {p : Projection}
    (h : c.entries.lookup s.index = some ⟨s.generation, p⟩) : c.Covers s := by
  simp only [Covers, h, Nat.le_refl]

end ProjectionCache
end SearchDsl
