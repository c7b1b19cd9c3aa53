import LanguageClient.Json.Record

/-!
# Shapes of values

A shape says which values a reader accepts where it does not keep what it read.

* `Shape` — the shapes.
* `Shape.fits` — whether a value has a shape.
-/

namespace LanguageClient

/-- A shape of values. -/
inductive Shape where
  /-- Any value. -/
  | any
  | boolean
  | string
  /-- An integer that fits a signed word of 32 bits. -/
  | integer
  /-- An array whose items have a shape. -/
  | list (item : Shape)
  /-- A value of one of some shapes. -/
  | either (choices : List Shape)
  /-- One of some texts. -/
  | oneOf (texts : List String)
  /-- A record. One that takes in the fields of others is written as an object only. -/
  | record (objectOnly : Bool) (fields : List (String × Bool × Shape))

namespace Shape

/-- The field of a shape's record, by its name and whether it has to be there. -/
def fieldOf (entry : String × Bool × Shape) : Json.Field :=
  ⟨entry.1, if entry.2.1 then .required else .optional⟩

mutual

/-- Whether a value has a shape. -/
def fits : Shape → Json → Bool
  | any, _ => true
  | boolean, value => value.asBool?.isSome
  | string, value => value.asString?.isSome
  | integer, value => value.asInt32?.isSome
  | list item, value => match value.asArray? with
      | some items => items.all fun value => fits item value
      | none => false
  | either choices, value => fitsAny choices value
  | oneOf texts, value => value.asString?.any fun text => texts.contains text
  | record objectOnly entries, value =>
      if objectOnly && value.asArray?.isSome then false
      else match Json.fields? (entries.map fieldOf) value with
        | some values => fitsFields entries values
        | none => false

/-- Whether a value has one of some shapes. -/
def fitsAny : List Shape → Json → Bool
  | [], _ => false
  | choice :: rest, value => fits choice value || fitsAny rest value

/-- Whether the fields of a record have their shapes; one that may be missing may be null. -/
def fitsFields : List (String × Bool × Shape) → List (Option Json) → Bool
  | (_, needed, shape) :: entries, value? :: values =>
      (match value? with
        | some value => (!needed && value.isNull) || fits shape value
        | none => !needed) && fitsFields entries values
  | _, _ => true

end

end Shape

end LanguageClient
