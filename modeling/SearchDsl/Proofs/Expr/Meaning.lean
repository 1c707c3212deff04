import SearchDsl.Proofs.Query.Rest
import SearchDsl.Query.Meaning

/-!
# What expressions say

The meaning of an expression over documents, given without the query it becomes. Each item of a
list makes a `Condition` (`Item.Says`): the connective that counts for it, whether it is denied, and
what it asks of the documents at the end of a chain of nested paths.

* An item counts under its own connective; the first one borrows the second one's, and a lone item
  counts under AND (`Item.connectives`).
* A filter is denied if it is negated or denies by itself (`Filter.denies`), but not if both.
* A list of conditions holds (`Condition.AllHold`) if
  - all conditions under AND that are not denied hold *jointly*: one document can be chosen at the
    end of every chain of paths, each below the one before, so that all of them are fulfilled by
    the chosen documents (`Condition.Jointly`);
  - no denied condition under AND is fulfilled by any document at all; and
  - some condition under OR holds, if there is one and the first rule asked for nothing.
* A group asks the document itself for what its own list of items says.
-/

namespace SearchDsl

/-- The filter asks for a value to differ or to be missing. -/
def Filter.denies (f : Filter) : Bool :=
  (f.operator == .notEqual && !f.value.isNull) || (f.operator == .equal && f.value.isNull)

/-- The document satisfies the primitive query of the filter. -/
def Filter.AsksOf (f : Filter) (s : Query.Surroundings) (d : Document) : Prop :=
  ∃ p denied, Query.ofFilter s f = .ok (p, denied) ∧ d.satisfies p = true

/-- What an item asks: the connective it counts under, whether it is denied, and what it asks of the
documents at the end of a chain of nested paths, outermost first. -/
structure Condition where
  connective : Connective
  negated : Bool
  paths : List String
  asks : Document → Prop

namespace Condition

/-- Some document at the end of the paths is as asked. -/
def Found (c : Condition) (d : Document) : Prop := ∃ t ∈ d.along c.paths, c.asks t

/-- The condition by itself: there is such a document, or there is none if that is denied. -/
def Holds (c : Condition) (d : Document) : Prop := if c.negated then ¬ c.Found d else c.Found d

/-- The condition is asked for under AND. -/
def isRequired (c : Condition) : Bool := c.connective == .and && !c.negated

/-- A choice of one document for each chain of paths goes along the given chain. -/
def Follows (w : List String → Document) (paths : List String) : Prop :=
  ∀ before path after, paths = before ++ path :: after →
    w (before ++ [path]) ∈ (w before).under path

/-- One choice of a document for each chain of paths fulfils all of the conditions. -/
def Jointly (cs : List Condition) (d : Document) : Prop :=
  ∃ w : List String → Document, w [] = d ∧ ∀ c ∈ cs, Follows w c.paths ∧ c.asks (w c.paths)

/-- What a list of conditions says. -/
structure AllHold (cs : List Condition) (d : Document) : Prop where
  required : Jointly (cs.filter isRequired) d
  denied : ∀ c ∈ cs, c.connective = .and → c.negated = true → ¬ c.Found d
  optional : (∃ c ∈ cs, c.connective = .or) → (∀ c ∈ cs, c.isRequired = false) →
    ∃ c ∈ cs, c.connective = .or ∧ c.Holds d

end Condition

namespace Item

/-- The connectives that the items of a list count under. -/
def connectives : List Item → List Connective
  | [] => []
  | first :: rest =>
    ((first.join.or (rest.head?.bind join)).getD .and) :: rest.map fun i => i.join.getD .and

mutual

/-- What an item says under a connective. A filter asks the documents at the end of what is left of
its nested paths, a group the document itself. -/
inductive Says (s : Query.Surroundings) : Connective → Item → Condition → Prop
  | leaf {c : Connective} {join : Option Connective} {negated : Bool} {f : Filter}
      {paths : List String} :
      s.Rest f.field.nestedPaths paths →
      Says s c (.leaf join negated f) ⟨c, negated != f.denies, paths, f.AsksOf s⟩
  | group {c : Connective} {join : Option Connective} {negated : Bool} {items : List Item}
      {ks : List Condition} :
      AllSay s (connectives items) items ks →
      Says s c (.group join negated items) ⟨c, negated, [], Condition.AllHold ks⟩

/-- What items say under their connectives. -/
inductive AllSay (s : Query.Surroundings) :
    List Connective → List Item → List Condition → Prop
  | nil : AllSay s [] [] []
  | cons {c : Connective} {cs : List Connective} {i : Item} {is : List Item} {k : Condition}
      {ks : List Condition} :
      Says s c i k → AllSay s cs is ks → AllSay s (c :: cs) (i :: is) (k :: ks)

end

mutual

theorem Says.unique {s : Query.Surroundings} {c : Connective} {i : Item} {k k' : Condition} :
    Says s c i k → Says s c i k' → k = k'
  | .leaf h, .leaf h' => by rw [h.unique h']
  | .group h, .group h' => by rw [AllSay.unique h h']

/-- Items say one thing. -/
theorem AllSay.unique {s : Query.Surroundings} {cs : List Connective} {is : List Item}
    {ks ks' : List Condition} : AllSay s cs is ks → AllSay s cs is ks' → ks = ks'
  | .nil, .nil => rfl
  | .cons h hs, .cons h' hs' => by rw [Says.unique h h', AllSay.unique hs hs']

end

end Item

/-- The expression holds of the document. -/
def Expr.Holds (s : Query.Surroundings) (e : Expr) (d : Document) : Prop :=
  ∃ ks, Item.AllSay s (Item.connectives e.items) e.items ks ∧ Condition.AllHold ks d

/-- What an expression says of documents is what its items say. -/
theorem Item.AllSay.holds_iff {s : Query.Surroundings} {e : Expr} {ks : List Condition}
    (h : AllSay s (connectives e.items) e.items ks) {d : Document} :
    e.Holds s d ↔ Condition.AllHold ks d := by
  constructor
  · rintro ⟨ks', h', hd⟩
    rwa [h.unique h']
  · exact fun hd => ⟨ks, h, hd⟩

namespace Condition

/-! ### Joint conditions, path by path -/

/-- What is left of a condition below a path, if its chain starts with it. -/
def below (path : String) (c : Condition) : Option Condition :=
  match c.paths with
  | [] => none
  | p :: ps => if p = path then some { c with paths := ps } else none

theorem below_eq_some {path : String} {c b : Condition} :
    c.below path = some b ↔ ∃ ps, c.paths = path :: ps ∧ b = { c with paths := ps } := by
  unfold below
  cases hp : c.paths with
  | nil => simp
  | cons p ps =>
    by_cases h : p = path
    · simp [h, eq_comm]
    · simp [h]

theorem follows_nil (w : List String → Document) : Follows w [] := by
  intro before path after h
  cases before <;> cases h

/-- A choice goes along a chain if it goes one path down and then along the rest from there. -/
theorem follows_cons {w : List String → Document} {path : String} {paths : List String} :
    Follows w (path :: paths) ↔
      w [path] ∈ (w []).under path ∧ Follows (fun q => w (path :: q)) paths := by
  constructor
  · intro h
    refine ⟨h [] path paths rfl, ?_⟩
    rintro before p after rfl
    exact h (path :: before) p after rfl
  · rintro ⟨h₁, h₂⟩ before p after h
    cases before with
    | nil =>
      cases h
      exact h₁
    | cons q before =>
      cases h
      exact h₂ before p after rfl

/-- What the conditions find jointly they find below a path at which some of them start. -/
theorem Jointly.below {cs : List Condition} {d : Document} (h : Jointly cs d) {path : String}
    (hne : cs.filterMap (below path) ≠ []) :
    ∃ t ∈ d.under path, Jointly (cs.filterMap (below path)) t := by
  obtain ⟨w, rfl, hw⟩ := h
  have step : ∀ b ∈ cs.filterMap (Condition.below path),
      w [path] ∈ (w []).under path ∧ Follows (fun q => w (path :: q)) b.paths ∧
        b.asks (w (path :: b.paths)) := by
    intro b hb
    obtain ⟨c, hc, hcb⟩ := List.mem_filterMap.1 hb
    obtain ⟨ps, hp, rfl⟩ := below_eq_some.1 hcb
    obtain ⟨hf, ha⟩ := hw c hc
    rw [hp] at hf ha
    obtain ⟨h₁, h₂⟩ := follows_cons.1 hf
    exact ⟨h₁, h₂, ha⟩
  obtain ⟨b, hb⟩ := List.exists_mem_of_ne_nil _ hne
  exact ⟨w [path], (step b hb).1, fun q => w (path :: q), rfl, fun b hb => (step b hb).2⟩

/-- What the conditions find below each path is found jointly. -/
theorem jointly_of_below {cs : List Condition} {d : Document}
    (hnil : ∀ c ∈ cs, c.paths = [] → c.asks d)
    (hcons : ∀ path, cs.filterMap (below path) ≠ [] →
      ∃ t ∈ d.under path, Jointly (cs.filterMap (below path)) t) : Jointly cs d := by
  -- The choices below the paths are put together into one, by the first path of a chain.
  have pick : ∀ path, ∃ w : List String → Document, cs.filterMap (below path) ≠ [] →
      w [] ∈ d.under path ∧ ∀ b ∈ cs.filterMap (below path), Follows w b.paths ∧
        b.asks (w b.paths) := by
    intro path
    by_cases hne : cs.filterMap (below path) = []
    · exact ⟨fun _ => d, fun h => absurd hne h⟩
    · obtain ⟨t, ht, w, rfl, hw⟩ := hcons path hne
      exact ⟨w, fun _ => ⟨ht, hw⟩⟩
  obtain ⟨w, hw⟩ := Classical.axiomOfChoice pick
  let joined : List String → Document
    | [] => d
    | path :: q => w path q
  refine ⟨joined, rfl, fun c hc => ?_⟩
  cases hp : c.paths with
  | nil => exact ⟨follows_nil _, hnil c hc hp⟩
  | cons path paths =>
    have hb : { c with paths := paths } ∈ cs.filterMap (below path) :=
      List.mem_filterMap.2 ⟨c, hc, below_eq_some.2 ⟨paths, hp, rfl⟩⟩
    obtain ⟨ht, hall⟩ := hw path (List.ne_nil_of_mem hb)
    obtain ⟨hf, ha⟩ := hall _ hb
    exact ⟨follows_cons.2 ⟨ht, hf⟩, ha⟩

/-- Conditions hold jointly if those without paths hold of the document itself, and for each path
that some of them start with there is one document below it of which the rest of these holds
jointly. -/
theorem jointly_iff {cs : List Condition} {d : Document} :
    Jointly cs d ↔ (∀ c ∈ cs, c.paths = [] → c.asks d) ∧
      ∀ path, cs.filterMap (below path) ≠ [] →
        ∃ t ∈ d.under path, Jointly (cs.filterMap (below path)) t := by
  constructor
  · intro h
    refine ⟨fun c hc hp => ?_, fun path hne => h.below hne⟩
    obtain ⟨w, rfl, hw⟩ := h
    have h := (hw c hc).2
    rwa [hp] at h
  · rintro ⟨hnil, hcons⟩
    exact jointly_of_below hnil hcons

end Condition
end SearchDsl
