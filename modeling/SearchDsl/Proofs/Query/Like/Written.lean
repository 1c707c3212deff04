import Mathlib.Data.List.Chain
import SearchDsl.Proofs.Expr.Canonical
import SearchDsl.Proofs.Query.Layout
import SearchDsl.Query.Pattern

/-!
# Patterns that can be written

A filter with `LIKE` can ask for every list of pattern elements but those in which a backslash
stands directly in front of any one character or of any sequence: in front of `_` and `%` a
backslash makes these literal, and a second backslash only stands for one more.

* `Pattern.readLike_writeLike`, `Pattern.isWritable_readLike`: the lists of elements that `LIKE`
  patterns have;
* `Query.asksFor_text`: a pattern of such elements in a quoted string, up to its wildcard query;
* `Query.exists_content_iff`: so filters with `LIKE` ask for these lists of elements, and no text
  asks for any other;
* `Query.not_asksFor_backslash`: a backslash in front of any sequence is one that none asks for.
-/

namespace SearchDsl

namespace Pattern

variable {es : List Element}

/-- The element is a character that stands for itself. -/
def Element.isLiteral : Element → Bool
  | literal _ => true
  | one | any => false

/-- No backslash stands directly in front of any one character or of any sequence. -/
def IsWritable (es : List Element) : Prop :=
  es.IsChain fun e next => e = .literal '\\' → next.isLiteral = true

instance : Decidable (IsWritable es) := inferInstanceAs (Decidable (es.IsChain _))

theorem isWritable_cons {e : Element} :
    IsWritable (e :: es) ↔
      (∀ next ∈ es.head?, e = .literal '\\' → next.isLiteral = true) ∧ IsWritable es :=
  List.isChain_cons

/-! ### Reading what was written -/

/-- An element in a `LIKE` pattern. -/
def Element.written : Element → List Char
  | literal c => if isLikeSpecial c then ['\\', c] else [c]
  | one => ['_']
  | any => ['%']

/-- A `LIKE` pattern for the elements. -/
def writeLike (es : List Element) : List Char := es.flatMap Element.written

theorem writeLike_cons (e : Element) (es : List Element) :
    writeLike (e :: es) = e.written ++ writeLike es := List.flatMap_cons

/-- In front of a literal nothing is escaped by chance: it is written as itself or with a backslash
of its own. -/
theorem isLikeSpecial_head {d : Char} {ds : List Char}
    (hlit : ∀ next ∈ es.head?, next.isLiteral = true) (h : writeLike es = d :: ds) :
    isLikeSpecial d = false := by
  cases es with
  | nil => cases h
  | cons e es =>
    cases e with
    | one | any => simp [Element.isLiteral] at hlit
    | literal c =>
      rw [writeLike_cons, Element.written] at h
      split at h
      · obtain ⟨rfl, -⟩ := List.cons.inj h
        rfl
      · rename_i hc
        obtain ⟨rfl, -⟩ := List.cons.inj h
        simpa using hc

theorem likeElement_of_not_special {c : Char} (h : isLikeSpecial c = false) :
    likeElement c = .literal c := by
  simp only [isLikeSpecial, Bool.or_eq_false_iff, decide_eq_false_iff_not] at h
  rw [likeElement, if_neg h.1.1.1, if_neg h.1.1.2]

/-- **The elements of a writable list are read from its pattern.** -/
theorem readLike_writeLike (h : IsWritable es) : readLike (writeLike es) = es := by
  induction es with
  | nil => rfl
  | cons e es ih =>
    obtain ⟨hnext, hes⟩ := isWritable_cons.1 h
    have ih := ih hes
    rw [writeLike_cons]
    cases e with
    | one => exact (readLike_cons (by decide) _).trans (congrArg _ ih)
    | any => exact (readLike_cons (by decide) _).trans (congrArg _ ih)
    | literal c =>
      rw [Element.written]
      split
      · rename_i hc
        simp [readLike, hc, ih]
      · rename_i hc
        rw [Bool.not_eq_true] at hc
        by_cases hb : c = '\\'
        · subst hb
          have hd : ∀ d ds, writeLike es = d :: ds → isLikeSpecial d = false :=
            fun d ds => isLikeSpecial_head fun next hn => hnext next hn rfl
          exact (readLike_backslash hd).trans (congrArg _ ih)
        · rw [List.singleton_append, readLike_cons hb, likeElement_of_not_special hc, ih]

/-- The element of a character that is not special is literal, whatever follows it. -/
theorem isLiteral_head {d : Char} (cs : List Char) (h : isLikeSpecial d = false) :
    ∀ next ∈ (readLike (d :: cs)).head?, next.isLiteral = true := by
  cases cs with
  | nil => simp [readLike, likeElement_of_not_special h, Element.isLiteral]
  | cons c cs =>
    rw [readLike]
    split <;> simp [likeElement_of_not_special h, Element.isLiteral]

/-- **No `LIKE` pattern has a backslash directly in front of a wildcard.** -/
theorem isWritable_readLike (like : List Char) : IsWritable (readLike like) := by
  fun_induction readLike like with
  | case1 => exact .nil
  | case2 c => exact .singleton _
  | case3 c d cs hc ih =>
    -- The character that loses its meaning is none of the backslashes.
    refine isWritable_cons.2 ⟨fun next _ he => ?_, ih⟩
    rw [Element.literal.injEq] at he
    subst he
    simp [isLikeSpecial] at hc
  | case4 c d cs hc ih =>
    refine isWritable_cons.2 ⟨fun next hn he => ?_, ih⟩
    have hd : c = '\\' → isLikeSpecial d = false := by simpa using hc
    refine isLiteral_head cs (hd ?_) next hn
    rw [likeElement] at he
    split at he
    · cases he
    · split at he
      · cases he
      · exact Element.literal.inj he

/-- Of two backslashes in front of `%` one stands for itself, the other makes the `%` literal. -/
example : readLike "\\\\%".toList = [.literal '\\', .literal '%'] := by decide

end Pattern

namespace Query

variable {g : Grammar} {s : Surroundings} {text : String} {es : List Pattern.Element}

/-! ### From texts to wildcard queries -/

/-- The text is read and compiled to a wildcard query alone, whose pattern has the elements. -/
def AsksFor (g : Grammar) (s : Surroundings) (text : String) (es : List Pattern.Element) : Prop :=
  ∃ e paths field pattern, Expr.read g text = .ok e ∧
    ofExpr s e =
      .ok { Clauses.empty with must := [within paths (primitive (.wildcard field pattern))] } ∧
    Pattern.readWildcard pattern.toList = es

/-- An entry by itself is put into its paths. -/
theorem gather_singleton (n : Nat) (c : Connective) (paths : List String) (q : Query) :
    gather n [⟨c, false, paths, q⟩] = [⟨c, false, within paths q⟩] := by
  induction n generalizing paths with
  | zero => rfl
  | succ n ih =>
    cases paths with
    | nil => rfl
    | cons path paths =>
      rw [gather]
      simp only [List.foldl_cons, List.foldl_nil, Slot.add, Slot.share, List.map_cons, List.map_nil,
        ih]
      rfl

/-- A filter by itself is the only clause of its expression. -/
theorem ofExpr_leaf {f : Filter} {p : Primitive} (h : ofFilter s f = .ok (p, false)) :
    ofExpr s ⟨[.leaf none false f]⟩ = .ok { Clauses.empty with
      must := [within (s.remaining f.field.nestedPaths) (primitive p)] } := by
  simp only [ofExpr, ofItems, ofItem, h, ok_bind, ofEntries]
  show Except.ok (placeAll (gather _ [⟨_, false, _, _⟩])) = _
  rw [gather_singleton]
  rfl

/-- A filter with `LIKE` and a quoted string is read. -/
theorem read_like {name : String} {field : Field} (hname : Token.IsFieldName name)
    (hword : Token.next name.toList = (.ok (.word name), []))
    (hfield : Reading.resolve g name = .ok field) (hlimit : 1 ≤ g.limit) {like : String}
    (hcheck : Filter.check field .like (.string like) = .ok ()) :
    Expr.read g (name ++ " LIKE " ++ Text.Quoted.write like) =
      .ok ⟨[.leaf none false ⟨field, .like, .string like⟩]⟩ := by
  have hmake : Filter.make field .like (.string like) = .ok ⟨field, .like, .string like⟩ :=
    Filter.make_eq_ok_iff.2 ⟨rfl, rfl, rfl, hcheck⟩
  have hderives : Filter.Derives (Reading.resolve g)
      [.word name, .word "LIKE", .string like] ⟨field, .like, .string like⟩ :=
    .intro hname hfield (Token.operates_name .like) (.of_writes (.string _)) hmake
  have hlexes : Lexeme.Lexes (name ++ " LIKE " ++ Text.Quoted.write like).toList
      [.word name, .word "LIKE", .string like] := by
    have hfirst := Lexeme.lexes_singleton hword (by simp)
    have hop := Lexeme.lexes_singleton (next_operator .like) (by simp)
    have hstring := Lexeme.lexes_singleton (Value.next_write like) (by simp)
    simpa [Operator.name] using hfirst.blank (hop.blank hstring)
  exact Expr.read_eq_ok_iff.2 ⟨_, _, hlexes, .intro (.leaf .absent hderives) .nil, hlimit⟩

/-- A field takes patterns if it holds text, or if nothing is known of it. -/
theorem check_like {field : Field} (h : ∀ t, field.type? = some t → t.isString = true)
    (like : String) : Filter.check field .like (.string like) = .ok () := by
  unfold Filter.check
  cases ht : field.type? with
  | none => rfl
  | some t =>
    have hstring := h t ht
    cases t <;> first | rfl | cases hstring

/-- **A pattern in a quoted string comes out as a wildcard query for its elements.** -/
theorem asksFor_text {name : String} {field : Field} (hname : Token.IsFieldName name)
    (hword : Token.next name.toList = (.ok (.word name), []))
    (hfield : Reading.resolve g name = .ok field)
    (htype : ∀ t, field.type? = some t → t.isString = true) (hlimit : 1 ≤ g.limit) (like : String) :
    AsksFor g s (name ++ " LIKE " ++ Text.Quoted.write like) (Pattern.readLike like.toList) := by
  refine ⟨_, _, field.name, Pattern.ofLike like,
    read_like hname hword hfield hlimit (check_like htype like), ofExpr_leaf rfl, ?_⟩
  rw [Pattern.ofLike, String.toList_ofList, Pattern.readWildcard_wildcardOfLike]

/-- The pattern of a wildcard query has been made from a `LIKE` pattern. -/
theorem exists_like_of_ofFilter {f : Filter} {field pattern : String} {denied : Bool}
    (h : ofFilter s f = .ok (.wildcard field pattern, denied)) :
    ∃ like, pattern = Pattern.ofLike like := by
  unfold ofFilter at h
  split at h
  case h_7 =>
    cases h
    exact ⟨_, rfl⟩
  -- Only ranges and comparisons look at their values once more.
  case h_5 => split at h <;> cases h
  case h_11 =>
    split at h
    · split at h <;> cases h
    · cases h
  all_goals cases h

/-- **No text asks for a backslash directly in front of a wildcard.** -/
theorem isWritable_of_asksFor (h : AsksFor g s text es) : Pattern.IsWritable es := by
  obtain ⟨e, paths, field, pattern, hread, hcompile, rfl⟩ := h
  obtain ⟨c, hc, hlays⟩ := exists_lays_ofExpr s (Expr.built_of_read hread).isMade
  obtain rfl := Except.ok.inj (hcompile.symm.trans hc)
  -- The wildcard query is a leaf, so it comes from a filter.
  have hmem : (⟨paths ++ [], .wildcard field pattern⟩ : Leaf) ∈
      (bool { Clauses.empty with
        must := [within paths (primitive (.wildcard field pattern))] }).leaves := by
    simp [leaves, leavesOf, leaves_within, Leaf.within, Clauses.empty]
  obtain ⟨f, -, hf⟩ := (leaves_of_lays hlays).exists_filter hmem
  obtain ⟨like, rfl⟩ := exists_like_of_ofFilter hf.query
  rw [Pattern.ofLike, String.toList_ofList, Pattern.readWildcard_wildcardOfLike]
  exact Pattern.isWritable_readLike like.toList

/-- **What `LIKE` can ask for.** On a field that takes patterns there is a filter with `LIKE` for a
list of elements just if no backslash stands directly in front of a wildcard; a list for which there
is none on such a field has no text of any other form either. -/
theorem exists_content_iff {name : String} {field : Field} (hname : Token.IsFieldName name)
    (hword : Token.next name.toList = (.ok (.word name), []))
    (hfield : Reading.resolve g name = .ok field)
    (htype : ∀ t, field.type? = some t → t.isString = true) (hlimit : 1 ≤ g.limit)
    (s : Surroundings) (es : List Pattern.Element) :
    ((∃ content : String, AsksFor g s (name ++ " LIKE \"" ++ content ++ "\"") es) ↔
      Pattern.IsWritable es) ∧
    ((∃ text, AsksFor g s text es) ↔ Pattern.IsWritable es) := by
  have hwritten : Pattern.IsWritable es →
      ∃ content : String, AsksFor g s (name ++ " LIKE \"" ++ content ++ "\"") es := by
    intro hes
    let like := String.ofList (Pattern.writeLike es)
    refine ⟨String.ofList (Text.Quoted.escape like.toList), ?_⟩
    have hlike := asksFor_text (s := s) hname hword hfield htype hlimit like
    have hread : Pattern.readLike like.toList = es := by
      rw [String.toList_ofList, Pattern.readLike_writeLike hes]
    rw [hread] at hlike
    have htext : name ++ " LIKE \"" ++ String.ofList (Text.Quoted.escape like.toList) ++ "\"" =
        name ++ " LIKE " ++ Text.Quoted.write like := by
      rw [← String.toList_inj]
      simp [Text.Quoted.write]
    rwa [htext]
  have hno : (∃ text, AsksFor g s text es) → Pattern.IsWritable es := by
    rintro ⟨text, h⟩
    exact isWritable_of_asksFor h
  have hsome (h : ∃ content : String, AsksFor g s (name ++ " LIKE \"" ++ content ++ "\"") es) :
      ∃ text, AsksFor g s text es := by
    obtain ⟨content, h⟩ := h
    exact ⟨_, h⟩
  exact ⟨⟨hno ∘ hsome, hwritten⟩, ⟨hno, hsome ∘ hwritten⟩⟩

/-- A field inside nested documents and the most that one fragment has room for. The literals are
backslashes, one of them at the end, a `%` and a quotation mark. -/
theorem exists_content_iff_kind :
    let mapping := Mapping.empty.field "units"
      ((FieldMapping.leaf .nested).property "kind" (.leaf .keyword))
    let g : Grammar := ⟨some (.ofMapping "listings" mapping 1), 1⟩
    let field := Field.typed "units.kind" [.nested, .keyword]
    let es : List Pattern.Element :=
      [.literal '\\', .literal '%', .any, .literal '"', .one, .literal '\\']
    Token.IsFieldName "units.kind" ∧
      Token.next "units.kind".toList = (.ok (.word "units.kind"), []) ∧
      Reading.resolve g "units.kind" = .ok field ∧
      (∀ t, field.type? = some t → t.isString = true) ∧ 1 ≤ g.limit ∧
      ∃ content : String,
        AsksFor g ⟨"10km", []⟩ ("units.kind" ++ " LIKE \"" ++ content ++ "\"") es := by
  intro mapping g field es
  have hname : Token.IsFieldName "units.kind" := ⟨by decide +kernel, by decide +kernel⟩
  have hword : Token.next "units.kind".toList = (.ok (.word "units.kind"), []) := by rfl
  have hfield : Reading.resolve g "units.kind" = .ok field := by rfl
  have htype : ∀ t, field.type? = some t → t.isString = true := by
    intro t ht
    cases ht
    rfl
  refine ⟨hname, hword, hfield, htype, Nat.le_refl 1, ?_⟩
  exact ((exists_content_iff hname hword hfield htype (Nat.le_refl 1) _ es).1).2 (by decide)

/-- **There is no way to ask for texts that begin with a backslash.** -/
theorem not_asksFor_backslash :
    ¬ ∀ es : List Pattern.Element, ∃ (g : Grammar) (s : Surroundings) (name content : String),
      AsksFor g s (name ++ " LIKE \"" ++ content ++ "\"") es := by
  intro h
  obtain ⟨g, s, name, content, hasks⟩ := h [.literal '\\', .any]
  have hwritable := isWritable_of_asksFor hasks
  revert hwritable
  decide

end Query
end SearchDsl
