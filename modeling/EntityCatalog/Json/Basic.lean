/-!
# JSON values

A JSON value keeps whole numbers apart from floating-point ones, since `1` and
`1.0` are different values.  Objects are lists of members.  `Json.normal` sorts
the members of every object by key and keeps the last of several with one key;
values that come out of it are compared by `Json.same`.
-/

namespace EntityCatalog

/-- A JSON value. -/
inductive Json where
  | null
  | bool (value : Bool)
  /-- A number written without fraction and exponent. -/
  | integer (value : Int)
  | float (value : Float)
  | string (value : String)
  | array (items : List Json)
  | object (members : List (String × Json))
  deriving Inhabited

namespace Json

mutual

/-- Whether two values are equal.  Numbers are compared as numbers, so the two
zeros of floating point are equal. -/
def same : Json → Json → Bool
  | .null, .null => true
  | .bool left, .bool right => left = right
  | .integer left, .integer right => left = right
  | .float left, .float right => left == right
  | .string left, .string right => left = right
  | .array left, .array right => sameItems left right
  | .object left, .object right => sameMembers left right
  | _, _ => false

/-- Whether two lists hold equal values. -/
def sameItems : List Json → List Json → Bool
  | [], [] => true
  | left :: lefts, right :: rights => same left right && sameItems lefts rights
  | _, _ => false

/-- Whether two lists hold equal members. -/
def sameMembers : List (String × Json) → List (String × Json) → Bool
  | [], [] => true
  | (leftKey, left) :: lefts, (rightKey, right) :: rights =>
    leftKey = rightKey && same left right && sameMembers lefts rights
  | _, _ => false

end

/-- Put a member into a list sorted by key, replacing one with its key. -/
def putSorted (key : String) (value : Json) :
    List (String × Json) → List (String × Json)
  | [] => [(key, value)]
  | (headKey, head) :: rest =>
    if key < headKey then (key, value) :: (headKey, head) :: rest
    else if key = headKey then (key, value) :: rest
    else (headKey, head) :: putSorted key value rest

mutual

/-- Sort the members of every object by key; of members with one key the last
remains. -/
def normal : Json → Json
  | .array items => .array (normalItems items)
  | .object members => .object (normalMembers [] members)
  | other => other

/-- Normalise every item. -/
def normalItems : List Json → List Json
  | [] => []
  | item :: rest => normal item :: normalItems rest

/-- Normalise members into the sorted ones found so far. -/
def normalMembers (found : List (String × Json)) :
    List (String × Json) → List (String × Json)
  | [] => found
  | (key, value) :: rest => normalMembers (putSorted key (normal value) found) rest

end

/-- A string, or `null`. -/
def ofString? : Option String → Json
  | some text => .string text
  | none => .null

/-- A list of strings. -/
def ofStrings (texts : List String) : Json :=
  .array (texts.map .string)

/-- The value of the first member with the given key. -/
def member? (value : Json) (key : String) : Option Json :=
  match value with
  | .object members =>
    (members.find? fun member => member.1 = key).map Prod.snd
  | _ => none

end Json

end EntityCatalog
