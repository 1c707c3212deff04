import SearchDsl.Operator
import SearchDsl.Schema.FieldType
import SearchDsl.Token
import SearchDsl.Value

/-!
# Errors

What can be wrong with a request or with the gateway's own set-up. Each error is a cause; `message`
words it, `kind` is the tag under which it is counted and reported, and `isClientError` tells the
errors that the caller must correct from those of the operator of the gateway.
-/

namespace SearchDsl

/-- What is wrong with a text in one of the three grammars. -/
inductive TextFault
  | unclosedString
  | badNumber (text : String)
  | loneBang
  | strayCharacter (c : Char)
  | emptyExpression
  | emptySort
  | emptyFacets
  | emptyGroup
  | emptyList
  | doubledNot
  | leadingConnective
  | deepList
  | badFieldName (name : String)
  | badDirection (found : Token)
  | expected (what : String) (found : Token)
  | other (message : String)
  deriving Repr

/-- What is wrong with the value of a filter or of a sort by distance. -/
inductive ValueFault
  | unexpected (expected shape : String)
  | boundCount (n : Nat)
  | boundsReversed (lower upper : Value)
  | cornerCount (n : Nat)
  | cornersReversed (northEast southWest : GeoPoint)
  | polygonSize (n : Nat)
  | notPoint (fault : Value.PointFault)
  | needsGeoField (field : String) (type : FieldType) (operator : Operator)
  | geoFieldOnly (field : String)
  | containerOnly (type : FieldType) (field : String)
  | likeNeedsString (field : String) (type : FieldType)
  | notAccepted (type : FieldType) (field : String) (value : Value)
  | noQuery (shape : String)
  | other (message : String)
  deriving Repr

/-- What is wrong with a request as a whole. -/
inductive RequestFault
  | emptyItems
  | leadingConnective
  | missingConnective (position : Nat)
  | notSortable (type : FieldType) (field : String)
  | sortFilterScope (field : String)
  | notCountable (type : FieldType) (field : String)
  | emptySort
  | badBoost (spec : String)
  | other (message : String)
  deriving Repr

/-- What is wrong with the gateway's set-up. -/
inductive ConfigFault
  | maxSizeZero
  | sizeAboveMax (size max : Nat)
  | emptyNearDistance
  | maxFragmentsZero
  | index (name : String) (fault : ConfigFault)
  | queueFull
  | queueClosed
  | refreshStopped
  | other (message : String)
  deriving Repr

/-- An error. A `badText` error keeps the characters found at its position. -/
inductive Error
  | badText (position : Nat) (fault : TextFault) (near : String)
  | unknownField (field index : String)
  | badValue (operator : String) (fault : ValueFault)
  | unknownIndex (index : String)
  | tooManyFragments (count max : Nat)
  | badRequest (fault : RequestFault)
  | badConfig (fault : ConfigFault)
  | badJson
  | badFile (message : String)
  deriving Repr

namespace TextFault

/-- The wording of the fault. -/
def message : TextFault → String
  | unclosedString => "unterminated quoted string"
  | badNumber text => "invalid number '" ++ text ++ "'"
  | loneBang => "expected '=' after '!'"
  | strayCharacter c => "unexpected character '" ++ c.toString ++ "'"
  | emptyExpression => "empty expression"
  | emptySort => "empty sort"
  | emptyFacets => "empty facet list"
  | emptyGroup => "empty group"
  | emptyList => "empty list"
  | doubledNot => "duplicated NOT"
  | leadingConnective => "The first item cannot have a logical operator prefix"
  | deepList => "lists nest at most two levels deep"
  | badFieldName name => "invalid field name '" ++ name ++ "'"
  | badDirection found => "unrecognized sort direction " ++ found.describe
  | expected what found => "expected " ++ what ++ ", found " ++ found.describe
  | other message => message

end TextFault

namespace ValueFault

/-- The wording of the fault. -/
def message : ValueFault → String
  | unexpected expected shape => "expected " ++ expected ++ ", got " ++ shape
  | boundCount n => "expected exactly 2 bounds, got " ++ toString n
  | boundsReversed lower upper =>
    "lower bound " ++ lower.text ++ " is greater than upper bound " ++ upper.text
  | cornerCount n => "expected 2 corner points, got " ++ toString n
  | cornersReversed ne sw =>
    "north-east corner " ++ ne.text ++ " lies south of south-west corner " ++ sw.text
  | polygonSize n => "a polygon needs at least 3 points, got " ++ toString n
  | notPoint fault => fault.message
  | needsGeoField field type operator =>
    "[" ++ field ++ "] is a " ++ type.name ++ " field, " ++ operator.name ++
      " needs a geo_point field"
  | geoFieldOnly field =>
    "geo_point field [" ++ field ++ "] only supports VIEWPORT, POLYGON, NEAR or null checks"
  | containerOnly type field => type.name ++ " field [" ++ field ++ "] only supports null checks"
  | likeNeedsString field type =>
    "LIKE needs a text or keyword field, [" ++ field ++ "] is " ++ type.name
  | notAccepted type field value =>
    type.name ++ " field [" ++ field ++ "] does not accept " ++ value.shape ++ " " ++ value.text
  | noQuery shape => "cannot compile a " ++ shape ++ " value"
  | other message => message

end ValueFault

namespace RequestFault

/-- The wording of the fault. -/
def message : RequestFault → String
  | emptyItems => "a fragment list cannot be empty"
  | leadingConnective => "The first item cannot have a logical operator prefix"
  | missingConnective position => "item " ++ toString position ++ " is missing a logical operator"
  | notSortable type field => type.name ++ " field [" ++ field ++ "] cannot be sorted by value"
  | sortFilterScope field =>
    "sortFilter needs a field below a nested path, [" ++ field ++ "] has none"
  | notCountable type field => type.name ++ " field [" ++ field ++ "] cannot be used as a facet"
  | emptySort => "empty sort"
  | badBoost spec => "invalid boost in field [" ++ spec ++ "]"
  | other message => message

end RequestFault

/-- The text in front of the wording of a fault in the set-up. -/
def ConfigFault.heading : String := "Configuration error: "

/-- The wording of the fault. -/
def ConfigFault.message : ConfigFault → String
  | maxSizeZero => "max_size must be positive"
  | sizeAboveMax size max =>
    "default_size " ++ toString size ++ " exceeds max_size " ++ toString max
  | emptyNearDistance => "near_distance cannot be empty"
  | maxFragmentsZero => "max_fragments must be positive"
  | index name fault => "index [" ++ name ++ "]: " ++ ConfigFault.heading ++ fault.message
  | queueFull => "refresh event not queued: no available capacity"
  | queueClosed => "refresh event not queued: channel closed"
  | refreshStopped => "refresh task stopped"
  | other message => message

namespace Error

/-- How many characters of the text an error shows. -/
def nearLength : Nat := 24

/-- The error of a fault at a position of a text. -/
def atPosition (source : List Char) (position : Nat) (fault : TextFault) : Error :=
  .badText position fault (String.ofList ((source.drop position).take nearLength))

/-- The wording of the error. -/
def message : Error → String
  | badText position fault near =>
    "Syntax error at position " ++ toString position ++ ": " ++ fault.message ++
      " (near '" ++ near ++ "')"
  | unknownField field index => "Field [" ++ field ++ "] not found for index [" ++ index ++ "]"
  | badValue operator fault => "Invalid value for operator " ++ operator ++ ": " ++ fault.message
  | unknownIndex index => "Index [" ++ index ++ "] not found"
  | tooManyFragments count max =>
    "Exceeded the number of fragments: " ++ toString count ++ " (max: " ++ toString max ++ ")"
  | badRequest fault => "Invalid request: " ++ fault.message
  | badConfig fault => ConfigFault.heading ++ fault.message
  | badJson => "Serialization error"
  | badFile message => "IO error: " ++ message

/-- The tag of the error. -/
def kind : Error → String
  | badText .. => "syntax_error"
  | unknownField .. => "invalid_field"
  | badValue .. => "invalid_value"
  | unknownIndex _ => "index_not_found"
  | tooManyFragments .. => "fragment_limit_exceeded"
  | badRequest _ => "invalid_request"
  | badConfig _ => "config_error"
  | badJson => "serialization_error"
  | badFile _ => "io_error"

/-- The caller has to correct the request. -/
def isClientError : Error → Bool
  | badConfig _ | badJson | badFile _ => false
  | _ => true

end Error
end SearchDsl
