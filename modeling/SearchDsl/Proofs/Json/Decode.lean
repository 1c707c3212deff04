import SearchDsl.Json.Decode

/-!
# What the readers of JSON make of what was written

Each reader gives back the value that its writer wrote: numbers if they fit into 64 bits, lists,
optional values and tables if the readers of their parts do. The fields of a structure are found by
their names in the object they were written to (`Json.fields?_record`).
-/

namespace SearchDsl.Json

variable {α : Type} {value? : Json → Option α} {write : α → Json}

/-- A part that is read is handed on to what reads the others. -/
theorem bind_of_read {β : Type} {part : Option α} {rest : α → Option β} {a : α} {b : β}
    (hpart : part = some a) (hrest : rest a = some b) : part >>= rest = some b :=
  Option.bind_eq_some_iff.2 ⟨a, hpart, hrest⟩

/-! ### Parts -/

theorem unsigned?_nat {n : Nat} (h : Numeral.isUnsigned64 n = true) :
    (nat n).unsigned? = some n := by
  rw [nat, unsigned?, Numeral.toUnsigned64?, if_pos h, Int.toNat_natCast]

theorem signed?_int {i : Int} (h : Numeral.isSigned64 i = true) : (int i).signed? = some i := by
  rw [int, signed?, Numeral.toSigned64?, if_pos h]

theorem strings?_strings (texts : List String) : (strings texts).strings? = some texts := by
  show (texts.map string).mapM string? = some texts
  induction texts with
  | nil => rfl
  | cons text texts ih => rw [List.map_cons, List.mapM_cons, ih]; rfl

theorem named?_string (ofName? : String → Option α) (s : String) :
    (string s).named? ofName? = ofName? s := rfl

/-- What is written is not null, for a reader that refuses null. -/
theorem nullable?_of_read {j : Json} {a : α} (hnull : value? null = none) (h : value? j = some a) :
    j.nullable? value? = some (some a) := by
  have hne : j ≠ null := by
    rintro rfl
    rw [hnull] at h
    cases h
  cases j with
  | null => exact absurd rfl hne
  | _ => exact congrArg (Option.map some) h

/-! ### Objects -/

/-- Members in key order are written as they stand. -/
theorem record_eq_object {members : List (String × Json)} (h : Table.IsOrdered members) :
    record members = object members :=
  congrArg object h.ofList_eq

/-- The fields of a structure are found in an object by their names. -/
theorem fields?_object {members : List (String × Json)} (h : Table.IsOrdered members)
    (names : List String) :
    (object members).fields? names = some (names.map fun name => members.lookup name) := by
  have hunique : areUnique names members = true :=
    List.all_eq_true.2 fun name _ => decide_eq_true (h.length_filter_le name)
  rw [fields?, if_pos hunique]

/-- Of two members of one name the later one is found. -/
theorem fields?_record (members : List (String × Json)) (names : List String) :
    (record members).fields? names = some (names.map fun name => members.reverse.lookup name) := by
  rw [record, fields?_object (Table.isOrdered_ofList members)]
  exact congrArg some (List.map_congr_left fun name _ => Table.lookup_ofList members name)

/-- A table is read back, if its values are. -/
theorem table?_record {entries : List (String × α)} (h : Table.IsOrdered entries)
    (hread : ∀ e ∈ entries, value? (write e.2) = some e.2) :
    (record (entries.map fun e => (e.1, write e.2))).table? value? = some entries := by
  have hmembers : (entries.map fun e => (e.1, write e.2)).mapM
      (fun m : String × Json => (value? m.2).map fun v => (m.1, v)) = some entries := by
    clear h
    induction entries with
    | nil => rfl
    | cons e rest ih =>
      obtain ⟨hfirst, hrest⟩ := List.forall_mem_cons.1 hread
      rw [List.map_cons, List.mapM_cons, ih hrest, hfirst]
      rfl
  rw [record_eq_object (h.map write), table?, hmembers]
  exact congrArg some h.ofList_eq

end SearchDsl.Json
