import LanguageClient.Json.Basic

/-!
# Records in the exchange format

A record is written as an object, members that are no field of it being ignored, or as an array
of its fields in order. A field that may be left out differs from one that may be null, and a
trailing field may be left out of an array only when it has a default.

* `Json.fields?` — what a value gives for each field of a record, in order.
* `Json.required?`, `Json.optional?`, `Json.defaulted?` — how one of them is read.
-/

namespace LanguageClient
namespace Json

/-- When a field may be missing. -/
inductive Presence where
  /-- Never. -/
  | required
  /-- In an object. -/
  | optional
  /-- In an object, and at the end of an array. -/
  | defaulted
  deriving DecidableEq, Repr

/-- A field of a record. -/
structure Field where
  /-- Its name in an object. -/
  name : String
  /-- When it may be missing. -/
  presence : Presence

/-- What an array gives for the fields of a record. -/
def positional? : List Field → List Json → Option (List (Option Json))
  | [], [] => some []
  | [], _ :: _ => none
  | field :: fields, [] =>
      if field.presence = .defaulted then (positional? fields []).map (none :: ·) else none
  | _ :: fields, item :: items => (positional? fields items).map (some item :: ·)

/-- What the members of an object give for the fields of a record. -/
def named? (members : List (String × Json)) : List Field → Option (List (Option Json))
  | [] => some []
  | field :: fields =>
      match lookup field.name members with
      | some value => (named? members fields).map (some value :: ·)
      | none =>
          if field.presence = .required then none else (named? members fields).map (none :: ·)

/-- What a value gives for the fields of a record, in order; none when it writes no record with
these fields. -/
def fields? (fields : List Field) : Json → Option (List (Option Json))
  | .obj members => named? members fields
  | .arr items => positional? fields items
  | _ => none

/-- Reads a field that has to be there. -/
def required? (read? : Json → Option α) : Option Json → Option α
  | some value => read? value
  | none => none

/-- Reads a field that may be missing or null. -/
def optional? (read? : Json → Option α) : Option Json → Option (Option α)
  | none => some none
  | some .null => some none
  | some value => (read? value).map some

/-- Reads a field that has a value of its own when it is missing, but not when it is null. -/
def defaulted? (missing : α) (read? : Json → Option α) : Option Json → Option α
  | none => some missing
  | some value => read? value

end Json
end LanguageClient
