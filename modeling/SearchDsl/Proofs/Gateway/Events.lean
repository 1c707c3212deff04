import SearchDsl.Gateway.Refresh

/-!
# What the events do

The effect of each event on the registry, the settings and the cache of the gateway. Generations
only grow, and an event is about a single index.
-/

namespace SearchDsl

/-- The index that an event is about. -/
def RefreshEvent.index : RefreshEvent → String
  | mappingChanged index _ | settingsChanged index _ | indexRemoved index => index

/-! ### Registry and settings -/

section Tables

variable {m : Registry} {t : SettingsTable} {i index : String}

theorem Registry.get?_publish (mapping : Mapping) : (m.publish i mapping).2.get? index =
    if index = i then some (m.publish i mapping).1 else m.get? index :=
  Table.lookup_set ..

theorem Registry.get?_remove : (m.remove i).get? index =
    if index = i then none else m.get? index := by
  unfold remove contains
  split
  · exact Table.lookup_erase ..
  · rename_i hnone
    split
    · rename_i hi
      rw [hi]
      simpa using hnone
    · rfl

/-- Only the removal of a known index is a change. -/
theorem Registry.generation_remove : (m.remove i).generation =
    if (m.get? i).isSome then m.generation + 1 else m.generation := by
  unfold remove contains
  split <;> rfl

theorem SettingsTable.get_set (s : Settings) :
    (t.set i s).get index = if index = i then s else t.get index := by
  show ((Table.set i s t.entries).lookup index).getD .standard = _
  rw [Table.lookup_set]
  split <;> rfl

theorem SettingsTable.get_erase (h : index ≠ i) : (t.erase i).get index = t.get index := by
  show ((Table.erase i t.entries).lookup index).getD .standard = _
  rw [Table.lookup_erase, if_neg h]
  rfl

end Tables

/-! ### Events -/

namespace Gateway

variable {g : Gateway} {i : String} {s : Snapshot} {settings : Settings}

/-- Settings that are not valid are ignored. -/
theorem apply_invalid (h : settings.isValid = false) :
    g.apply (.settingsChanged i settings) = g := by
  unfold Gateway.apply
  simp only [h, Bool.not_false, if_pos]

theorem apply_settings_mapped (h : settings.isValid = true)
    (hget : g.mappings.get? i = some s) : g.apply (.settingsChanged i settings) =
      { g with
        settings := g.settings.set i settings
        cache := (g.cache.refresh s settings).2 } := by
  unfold Gateway.apply
  simp only [h, hget, Bool.not_true, Bool.false_eq_true, if_false]

theorem apply_settings_unmapped (h : settings.isValid = true)
    (hget : g.mappings.get? i = none) : g.apply (.settingsChanged i settings) =
      { g with
        settings := g.settings.set i settings
        cache := g.cache.invalidate i g.mappings.generation } := by
  unfold Gateway.apply
  simp only [h, hget, Bool.not_true, Bool.false_eq_true, if_false]

/-- New settings leave the mappings alone. -/
theorem mappings_settingsChanged (g : Gateway) (i : String) (settings : Settings) :
    (g.apply (.settingsChanged i settings)).mappings = g.mappings := by
  show (if !settings.isValid then g else _).mappings = g.mappings
  split <;> rfl

theorem generation_apply (g : Gateway) (e : RefreshEvent) :
    g.mappings.generation ≤ (g.apply e).mappings.generation := by
  cases e with
  | mappingChanged i m => exact Nat.le_succ _
  | settingsChanged i settings => exact Nat.le_of_eq (by rw [mappings_settingsChanged])
  | indexRemoved i =>
    show _ ≤ (g.mappings.remove i).generation
    rw [Registry.generation_remove]
    split
    · exact Nat.le_succ _
    · exact Nat.le_refl _

end Gateway
end SearchDsl
