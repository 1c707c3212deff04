import SearchDsl.Schema.FieldType

/-!
# Fields

A field is a dotted path. A field that was looked up in a mapping also knows the type of each
segment of its path, and with it the nested documents it lies in.
-/

namespace SearchDsl

/-- The parts of a text between its dots; a text without a dot is one part. -/
def dotParts : List Char → List (List Char)
  | [] => [[]]
  | c :: cs =>
    match dotParts cs with
    | [] => [[c]]
    | part :: parts => if c = '.' then [] :: part :: parts else (c :: part) :: parts

/-- The segments of a dotted name. -/
def splitDots (name : String) : List String := (dotParts name.toList).map String.ofList

/-- The dotted name of a list of segments. -/
def joinDots (names : List String) : String := ".".intercalate names

/-- A dotted path, with the types of its segments if they are known. A `negated` field was written
with a leading NOT where that has no effect. -/
structure Field where
  names : List String
  types : Option (List FieldType)
  negated : Bool
  deriving DecidableEq, Repr, Inhabited

namespace Field

/-- The field of a dotted name, without types. -/
def ofName (name : String) : Field := ⟨splitDots name, none, false⟩

/-- The field of a dotted name with the given types, which are kept if there is one for each
segment. -/
def typed (name : String) (types : List FieldType) : Field :=
  let names := splitDots name
  ⟨names, if types.length = names.length then some types else none, false⟩

/-- The dotted name. -/
def name (f : Field) : String := joinDots f.names

/-- Every dotted name from the first segment on, the full name last. -/
def prefixes (f : Field) : List String :=
  (List.range f.names.length).map fun i => joinDots (f.names.take (i + 1))

/-- The type of the field itself. -/
def type? (f : Field) : Option FieldType := f.types.bind (·.getLast?)

/-- The types of the segments are known. -/
def isTyped (f : Field) : Bool := f.types.isSome

/-- The paths of the nested documents that the field lies in, outermost first. A nested field does
not lie in itself. -/
def nestedPaths (f : Field) : List String :=
  match f.types with
  | none => []
  | some types =>
    ((List.range types.length).zip types.dropLast).filterMap fun (i, t) =>
      if t.isNested then some (joinDots (f.names.take (i + 1))) else none

/-- The name of the relevance score, which is no field of any document. -/
def scoreName : String := "_score"

/-- The name of the field that tells documents apart. -/
def idName : String := "_id"

/-- The field is the relevance score. -/
def isScore (f : Field) : Bool := f.names == [scoreName]

/-- The fields have the same path, whatever is known about them. -/
def samePath (f g : Field) : Bool := f.names == g.names

/-- The path alone. -/
def untyped (f : Field) : Field := ⟨f.names, none, false⟩

end Field
end SearchDsl
