import SearchDsl.Proofs.Filter.Shape
import SearchDsl.Proofs.Number.Written
import SearchDsl.Proofs.Token.Plain
import SearchDsl.Proofs.Value.Literal
import SearchDsl.Proofs.Value.Point

/-!
# Written values read back

A value that was read is a `Value.IsLiteral`: it holds no points, and its whole numbers fit into 64
bits. Under an operator it may become a point, a viewport or a polygon, and its text is then that of
a list of numbers.

* `Value.exists_written_of_scalar` and `exists_written_list` read the texts of scalars and lists;
* `Filter.isWritten_of_shape`: whatever an operator made of a literal is written as a literal
  of which the operator makes the same.
-/

namespace SearchDsl

open Lexeme (Lexes)

/-- The value can be written as a literal. -/
inductive Value.IsLiteral : Value → Prop
  | null : IsLiteral .null
  | bool (b : Bool) : IsLiteral (.bool b)
  | string (s : String) : IsLiteral (.string s)
  | whole {i : Int} : Numeral.isSigned64 i = true → IsLiteral (.number (.whole i))
  | double (d : Double) : IsLiteral (.number (.double d))
  | list {items : List Value} : (∀ v ∈ items, IsLiteral v) → IsLiteral (.list items)

namespace Value

variable {levels : Nat} {ts : List Token} {v : Value}

theorem isLiteral_of_writes {t : Token} (h : t.Writes v) (ht : t.IsPlain) : v.IsLiteral := by
  cases h with
  | string s => exact .string s
  | number n =>
    cases n with
    | whole i => exact .whole ht
    | double d => exact .double d
  | yes _ => exact .bool true
  | no _ => exact .bool false
  | null _ => exact .null

theorem Derives.isLiteral (h : Derives levels ts v) (hts : ∀ t ∈ ts, t.IsPlain) : v.IsLiteral := by
  induction levels generalizing ts v with
  | zero =>
    obtain ⟨t, rfl, ht⟩ := h
    exact isLiteral_of_writes ht (hts t (by simp))
  | succ levels ih =>
    rcases h with ⟨t, rfl, ht⟩ | ⟨us, items, rfl, rfl, hsep⟩
    · exact isLiteral_of_writes ht (hts t (by simp))
    · have hus : ∀ t ∈ us, t.IsPlain := fun t ht => hts t (by simp [ht])
      refine .list ?_
      clear hts
      induction hsep with
      | one hd => simpa using ih hd hus
      | more hd _ ihs =>
        intro v hv
        rcases List.mem_cons.1 hv with rfl | hv
        · exact ih hd fun t ht => hus t (by simp [ht])
        · exact ihs (fun t ht => hus t (by simp [ht])) v hv

/-! ### Texts of scalars and lists -/

theorem next_write (s : String) :
    Token.next (Text.Quoted.write s).toList = (.ok (.string s), []) := by
  have hread : Text.Quoted.read '"' (Text.Quoted.escape s.toList ++ ['"']) = some (s.toList, []) :=
    Text.Quoted.read_escape s.toList []
  rw [Text.Quoted.write, String.toList_ofList, Token.next, List.cons_append,
    List.dropWhile_cons_of_neg (by decide)]
  show Token.scanString '"' _ = _
  rw [Token.scanString, hread]
  simp

/-- **A scalar or null is written as one token.** -/
theorem exists_written_of_scalar (h : v.IsLiteral) (hv : v.isScalar = true ∨ v = .null)
    (levels : Nat) : ∃ ts, Lexes v.text.toList ts ∧ Derives levels ts v := by
  have single : ∀ {t : Token}, Token.next v.text.toList = (.ok t, []) →
      t.Writes v → ∃ ts, Lexes v.text.toList ts ∧ Derives levels ts v := by
    intro t hn ht
    refine ⟨[t], Lexeme.lexes_singleton hn ?_, .of_writes ht⟩
    rintro rfl
    cases ht
  cases h with
  | null => exact single (t := .word "null") rfl (.null rfl)
  | bool b =>
    cases b with
    | false => exact single (t := .word "false") rfl (.no rfl)
    | true => exact single (t := .word "true") rfl (.yes rfl)
  | string s => exact single (next_write s) (.string s)
  | @whole i hi =>
    refine single (t := .number (.whole i)) ?_ (.number _)
    rw [text, Numeral.text, String.toList_ofList]
    exact Numeral.next_wholeChars hi
  | double d =>
    refine single (t := .number (.double d)) ?_ (.number _)
    rw [text, Numeral.text, String.toList_ofList]
    exact Layout.json.next_chars d
  | list _ => simp [isScalar] at hv

/-- **A list is written if its items are**, with commas between them. -/
theorem exists_written_list {α : Type} {f : α → String} {g : α → Value} {as : List α}
    (hne : as ≠ []) (has : ∀ a ∈ as, ∃ ts, Lexes (f a).toList ts ∧ Derives levels ts (g a)) :
    ∃ ts, Lexes (bracketed (as.map f)).toList ts ∧ Derives (levels + 1) ts (.list (as.map g)) := by
  have inner : ∃ us, Lexes (", ".intercalate (as.map f)).toList us ∧
      Separated (Derives levels) us (as.map g) := by
    induction as with
    | nil => exact absurd rfl hne
    | cons a as ih =>
      obtain ⟨ts, hl, hd⟩ := has a (by simp)
      cases as with
      | nil => exact ⟨ts, by simpa using hl, .one hd⟩
      | cons b bs =>
        obtain ⟨us, hus, hsep⟩ := ih (by simp) fun c hc => has c (by simp [hc])
        refine ⟨ts ++ .comma :: us, ?_, .more hd hsep⟩
        have := hl.comma hus
        simpa [String.intercalate_cons_cons] using this
  obtain ⟨us, hus, hsep⟩ := inner
  refine ⟨_, ?_, .inr ⟨us, _, rfl, rfl, hsep⟩⟩
  simpa [bracketed] using hus.brackets

/-! ### Points -/

/-- The coordinate as a number, if it is finite. -/
def ofCoordinate : Coordinate → Value
  | .finite d => .number (.double d)
  | .infinite _ | .nan => .null

/-- The coordinates of a point as a list. -/
def ofPoint (p : GeoPoint) : Value := .list [ofCoordinate p.lat, ofCoordinate p.lon]

theorem toPoint_ofPoint {p : GeoPoint} (h : p.isValid = true) : (ofPoint p).toPoint = .ok p := by
  obtain ⟨lat, lon, rfl⟩ := GeoPoint.isFinite_of_isValid h
  have : GeoPoint.make lat lon = .ok ⟨lat, lon⟩ := GeoPoint.make_eq_ok_iff.2 ⟨rfl, h⟩
  simp [ofPoint, ofCoordinate, toPoint, toDouble?, Numeral.toDouble, this]

/-- Points that were read lie on the globe. -/
theorem isValid_of_toPoint {p : GeoPoint} (hv : v.IsLiteral) (h : v.toPoint = .ok p) :
    p.isValid = true := by
  unfold toPoint at h
  split at h
  · cases hv
  · split at h
    · rw [mapError_eq_ok, GeoPoint.make_eq_ok_iff] at h
      obtain ⟨rfl, h⟩ := h
      exact h
    · cases h
  · cases h

/-- **A point with finite coordinates is written as the list of them.** -/
theorem exists_written_point {p : GeoPoint} (h : p.IsFinite) (levels : Nat) :
    ∃ ts, Lexes p.text.toList ts ∧ Derives (levels + 1) ts (ofPoint p) := by
  obtain ⟨lat, lon, rfl⟩ := h
  have coordinate : ∀ d ∈ [lat, lon], ∃ ts, Lexes (Layout.coordinate.text d).toList ts ∧
      Derives levels ts (.number (.double d)) := by
    intro d _
    refine ⟨[.number (.double d)], Lexeme.lexes_singleton ?_ (by simp), .of_writes (.number _)⟩
    rw [Layout.text, String.toList_ofList]
    exact Layout.coordinate.next_chars d
  obtain ⟨ts, hl, hd⟩ := exists_written_list (by simp) coordinate
  refine ⟨ts, ?_, hd⟩
  simpa [bracketed, GeoPoint.text, Coordinate.text, String.intercalate_cons_cons] using hl

end Value

namespace Filter

open Value (ofPoint IsLiteral)

theorem toPoint_ofPoint {p : GeoPoint} (h : p.isValid = true) : toPoint (ofPoint p) = .ok p :=
  mapError_eq_ok.2 (Value.toPoint_ofPoint h)

theorem isValid_of_toPoint {v : Value} {p : GeoPoint} (hv : v.IsLiteral) (h : toPoint v = .ok p) :
    p.isValid = true :=
  Value.isValid_of_toPoint hv (mapError_eq_ok.1 h)

theorem isValid_of_mapM_toPoint {items : List Value} {points : List GeoPoint}
    (hv : ∀ v ∈ items, v.IsLiteral) (h : items.mapM toPoint = .ok points) :
    ∀ p ∈ points, p.isValid = true := by
  intro p hp
  obtain ⟨v, hmem, hvp⟩ := exists_mem_of_forall₂ (mapM_eq_ok_iff.1 h) p hp
  exact isValid_of_toPoint (hv v hmem) hvp

/-- The points of a list that was read are read again from their coordinates. -/
theorem mapM_toPoint {items : List Value} {points : List GeoPoint}
    (hv : ∀ v ∈ items, v.IsLiteral) (h : items.mapM toPoint = .ok points) :
    (points.map ofPoint).mapM toPoint = .ok points := by
  induction items generalizing points with
  | nil =>
    cases h
    rfl
  | cons v vs ih =>
    simp only [List.mapM_cons, bind_eq_ok, pure_eq_ok] at h
    obtain ⟨p, hp, ps, hps, rfl⟩ := h
    have hvalid := isValid_of_toPoint (hv v (by simp)) hp
    simp only [List.map_cons, List.mapM_cons, bind_eq_ok, pure_eq_ok]
    exact ⟨p, toPoint_ofPoint hvalid, ps, ih (fun u hu => hv u (by simp [hu])) hps, rfl⟩

/-- What an operator makes of a literal is written as a literal of which it makes the same. -/
def IsWritten (op : Operator) (w : Value) : Prop :=
  ∃ ts v, Lexes w.text.toList ts ∧ Value.Derives 2 ts v ∧ shape op v = .ok w

theorem isWritten_of_scalar {op : Operator} {v : Value} (h : shape op v = .ok v)
    (hl : v.IsLiteral) (hv : v.isScalar = true ∨ v = .null) : IsWritten op v := by
  obtain ⟨ts, hts, hd⟩ := Value.exists_written_of_scalar hl hv 2
  exact ⟨ts, v, hts, hd, h⟩

theorem isWritten_of_list {op : Operator} {items : List Value}
    (h : shape op (.list items) = .ok (.list items)) (hl : (Value.list items).IsLiteral)
    (hne : items ≠ []) (hv : ∀ v ∈ items, v.isScalar = true) : IsWritten op (.list items) := by
  cases hl with
  | list hall =>
    obtain ⟨ts, hts, hd⟩ := @Value.exists_written_list 1 _ Value.text id items hne
      fun v hmem => Value.exists_written_of_scalar (hall v hmem) (.inl (hv v hmem)) 1
    rw [List.map_id] at hd
    refine ⟨ts, .list items, ?_, hd, h⟩
    rwa [Value.text, Value.texts_eq_map]

theorem isWritten_point {v : Value} {p : GeoPoint} (hl : v.IsLiteral)
    (h : shapePoint v = .ok (.point p)) : IsWritten .near (.point p) := by
  have hvalid : p.isValid = true := by
    unfold shapePoint at h
    split at h
    · cases hl
    · simp only [map_eq_ok, Value.point.injEq] at h
      obtain ⟨q, hq, rfl⟩ := h
      exact isValid_of_toPoint hl hq
    · cases h
  obtain ⟨ts, hts, hd⟩ := Value.exists_written_point (GeoPoint.isFinite_of_isValid hvalid) 1
  refine ⟨ts, ofPoint p, hts, hd, ?_⟩
  show (toPoint (ofPoint p)).map Value.point = _
  rw [toPoint_ofPoint hvalid]
  rfl

theorem isWritten_viewport {v : Value} {ne sw : GeoPoint} (hl : v.IsLiteral)
    (h : shapeViewport v = .ok (.viewport ne sw)) : IsWritten .viewport (.viewport ne sw) := by
  have hparts : ne.isValid = true ∧ sw.isValid = true ∧
      makeViewport ne sw = .ok (.viewport ne sw) := by
    unfold shapeViewport at h
    split at h
    · cases hl
    · rename_i a b
      cases hl with
      | list hall =>
        simp only [bind_eq_ok] at h
        obtain ⟨p, hp, q, hq, h⟩ := h
        obtain ⟨hw, -⟩ := makeViewport_eq_ok h
        cases hw
        exact ⟨isValid_of_toPoint (hall a (by simp)) hp,
          isValid_of_toPoint (hall b (by simp)) hq, h⟩
    · cases h
    · cases h
  obtain ⟨hne, hsw, hmake⟩ := hparts
  have hfinite : ∀ p ∈ [ne, sw], p.IsFinite := List.forall_mem_cons.2
    ⟨GeoPoint.isFinite_of_isValid hne,
      List.forall_mem_singleton.2 (GeoPoint.isFinite_of_isValid hsw)⟩
  obtain ⟨ts, hts, hd⟩ := @Value.exists_written_list 1 _ _ _ [ne, sw] (by simp)
    fun p hp => Value.exists_written_point (hfinite p hp) 0
  refine ⟨ts, .list [ofPoint ne, ofPoint sw], hts, hd, ?_⟩
  show (do makeViewport (← toPoint (ofPoint ne)) (← toPoint (ofPoint sw))) = _
  rw [toPoint_ofPoint hne, toPoint_ofPoint hsw]
  exact hmake

theorem isWritten_polygon {v : Value} {points : List GeoPoint} (hl : v.IsLiteral)
    (h : shapePolygon v = .ok (.polygon points)) : IsWritten .polygon (.polygon points) := by
  have hparts : (points.map ofPoint).mapM toPoint = .ok points ∧
      (∀ p ∈ points, p.isValid = true) ∧ makePolygon points = .ok (.polygon points) := by
    unfold shapePolygon at h
    split at h
    · cases hl
    · cases hl with
      | list hall =>
        simp only [bind_eq_ok] at h
        obtain ⟨ps, hps, h⟩ := h
        obtain ⟨hw, -⟩ := makePolygon_eq_ok h
        cases hw
        exact ⟨mapM_toPoint hall hps, isValid_of_mapM_toPoint hall hps, h⟩
    · cases h
  obtain ⟨hread, hvalid, hmake⟩ := hparts
  have hne : points ≠ [] := by
    rintro rfl
    cases hmake
  obtain ⟨ts, hts, hd⟩ := Value.exists_written_list hne fun p hp =>
    Value.exists_written_point (GeoPoint.isFinite_of_isValid (hvalid p hp)) 0
  refine ⟨ts, .list (points.map ofPoint), hts, hd, ?_⟩
  show (do makePolygon (← (points.map ofPoint).mapM toPoint)) = _
  rw [hread]
  exact hmake

/-- **What an operator made of a literal reads back**, by way of a literal again. -/
theorem isWritten_of_shape {op : Operator} {v w : Value} (hl : v.IsLiteral)
    (h : shape op v = .ok w) : IsWritten op w := by
  have hshape := hasShape_of_shape h
  cases op with
  | equal | notEqual =>
    obtain ⟨rfl, -⟩ := shapeIf_eq_ok h
    exact isWritten_of_scalar h hl hshape
  | greaterThan | greaterOrEqual | lessThan | lessOrEqual =>
    obtain ⟨rfl, -⟩ := shapeIf_eq_ok h
    exact isWritten_of_scalar h hl (.inl (isScalar_of_isOrdered hshape))
  | like =>
    obtain ⟨rfl, -⟩ := shapeIf_eq_ok h
    obtain ⟨s, rfl⟩ := hshape
    exact isWritten_of_scalar h hl (.inl rfl)
  | range =>
    obtain ⟨rfl, a, b, rfl, ha, hb⟩ := shapeRange_eq_ok h
    refine isWritten_of_list h hl (by simp) ?_
    simpa using ⟨isScalar_of_isOrdered ha, isScalar_of_isOrdered hb⟩
  | isIn =>
    obtain ⟨rfl, items, rfl, hne, hitems⟩ := shapeList_eq_ok h
    exact isWritten_of_list h hl hne hitems
  | near =>
    obtain ⟨p, rfl⟩ := hshape
    exact isWritten_point hl h
  | viewport =>
    obtain ⟨ne, sw, rfl⟩ := hshape
    exact isWritten_viewport hl h
  | polygon =>
    obtain ⟨points, rfl⟩ := hshape
    exact isWritten_polygon hl h

end Filter
end SearchDsl
