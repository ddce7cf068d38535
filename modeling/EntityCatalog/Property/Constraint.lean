import EntityCatalog.Json.Decode
import EntityCatalog.Text.LowerCase

/-!
# Constraints of relations

What a foreign key does when the row it points at goes away or changes, and
when that is checked.
-/

namespace EntityCatalog

/-- What happens to a row whose referenced row is deleted or changed. -/
inductive ReferentialAction where
  | cascade
  /-- Nothing, but the end of the statement checks. -/
  | noAction
  | setNull
  | setDefault
  | restrict
  /-- Another action, kept as it is written. -/
  | custom (action : String)
  deriving DecidableEq, Repr, Inhabited

namespace ReferentialAction

/-- The action a text means, whatever the case of its ASCII letters. -/
def ofText (text : String) : ReferentialAction :=
  match Text.asciiLowerCase text with
  | "cascade" => .cascade
  | "no action" => .noAction
  | "set null" => .setNull
  | "set default" => .setDefault
  | "restrict" => .restrict
  | _ => .custom text

/-- The text of an action. -/
def text : ReferentialAction → String
  | .cascade => "cascade"
  | .noAction => "no action"
  | .setNull => "set null"
  | .setDefault => "set default"
  | .restrict => "restrict"
  | .custom action => action

/-- Whether the action is none of the standard ones. -/
def isCustom : ReferentialAction → Bool
  | .custom _ => true
  | _ => false

/-- An action of a document. -/
def decode : Json.Decoder ReferentialAction := fun depth node =>
  (Json.decodeString depth node).map ofText

end ReferentialAction

/-- When a constraint is checked. -/
inductive CheckTime where
  | immediate
  | deferred
  deriving DecidableEq, Repr, Inhabited

namespace CheckTime

/-- The text of a check time. -/
def text : CheckTime → String
  | .immediate => "immediate"
  | .deferred => "deferred"

/-- The check time with a given text. -/
def ofText? : String → Option CheckTime
  | "immediate" => some .immediate
  | "deferred" => some .deferred
  | _ => none

@[simp]
theorem ofText?_text (time : CheckTime) : ofText? time.text = some time := by
  cases time <;> rfl

/-- A check time of a document. -/
def decode : Json.Decoder CheckTime :=
  Json.decodeVariant fun text => (ofText? text).map .unit

end CheckTime

end EntityCatalog
