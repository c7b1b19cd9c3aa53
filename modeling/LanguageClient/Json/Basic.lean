/-!
# Values of the exchange format

* `Number` — an integer, or a double given by its bits.
* `Json` — the values; an object is the list of its members.
* `Json.insertMember`, `Json.ofMembers` — objects with their names in increasing order, a later
  member of the same name replacing an earlier one.
* `Json.get?`, `Json.asString?` and the like — what a value holds.
* `Json.Sorted` — every object of the value lists its names in strictly increasing order.
-/

namespace LanguageClient

/-- A number: an integer that fits 64 bits (signed, or unsigned), or a double. -/
inductive Number where
  /-- An integer. -/
  | int (value : Int)
  /-- A double, by its bits. -/
  | float (bits : UInt64)
  deriving DecidableEq, Repr

/-- A value of the exchange format. -/
inductive Json where
  | null
  | bool (value : Bool)
  | num (value : Number)
  | str (text : String)
  | arr (items : List Json)
  | obj (members : List (String × Json))
  deriving BEq, Repr, Inhabited

namespace Json

/-- The integer `n` as a value. -/
def ofInt (n : Int) : Json := .num (.int n)

/-- The natural number `n` as a value. -/
def ofNat (n : Nat) : Json := .num (.int n)

/-- A text, or null. -/
def ofText? : Option String → Json
  | some s => .str s
  | none => .null

/-- Puts a member in its place by name, in front of the first greater one; a member of that name
is replaced. -/
def insertMember (name : String) (value : Json) : List (String × Json) → List (String × Json)
  | [] => [(name, value)]
  | (other, kept) :: rest =>
      if name < other then (name, value) :: (other, kept) :: rest
      else if name = other then (name, value) :: rest
      else (other, kept) :: insertMember name value rest

/-- The members in increasing order of their names, the last one of each name. -/
def sortMembers (members : List (String × Json)) : List (String × Json) :=
  members.foldl (fun sorted member => insertMember member.1 member.2 sorted) []

/-- The object with these members. -/
def ofMembers (members : List (String × Json)) : Json := .obj (sortMembers members)

/-- The first member of a name. -/
def lookup (name : String) : List (String × Json) → Option Json
  | [] => none
  | (other, value) :: rest => if name = other then some value else lookup name rest

/-- The member of a name, when the value is an object that has it. -/
def get? (name : String) : Json → Option Json
  | .obj members => lookup name members
  | _ => none

/-- Whether the value is null. -/
def isNull : Json → Bool
  | .null => true
  | _ => false

/-- The text of a string value. -/
def asString? : Json → Option String
  | .str s => some s
  | _ => none

/-- The truth value of a Boolean. -/
def asBool? : Json → Option Bool
  | .bool b => some b
  | _ => none

/-- The integer of an integer value. -/
def asInt? : Json → Option Int
  | .num (.int n) => some n
  | _ => none

/-- The integer of an integer value that lies between two bounds. -/
def asIntIn? (lower upper : Int) (value : Json) : Option Int :=
  match value.asInt? with
  | some n => if lower ≤ n ∧ n ≤ upper then some n else none
  | none => none

/-- The integer of a value that fits a signed word of 32 bits. -/
def asInt32? : Json → Option Int := asIntIn? (-0x80000000) 0x7FFFFFFF

/-- The integer of a value that fits a signed word of 64 bits. -/
def asInt64? : Json → Option Int := asIntIn? (-0x8000000000000000) 0x7FFFFFFFFFFFFFFF

/-- The items of an array. -/
def asArray? : Json → Option (List Json)
  | .arr items => some items
  | _ => none

/-- The texts of an array of strings. -/
def asStrings? : Json → Option (List String)
  | .arr items => items.mapM asString?
  | _ => none

/-- The names of a member list increase strictly. -/
def IncreasingNames (members : List (String × Json)) : Prop :=
  (members.map Prod.fst).Pairwise (· < ·)

mutual

/-- Every object inside the value lists its names in strictly increasing order. -/
def Sorted : Json → Prop
  | .arr items => SortedItems items
  | .obj members => IncreasingNames members ∧ SortedMembers members
  | _ => True

/-- `Sorted`, for every item of a list. -/
def SortedItems : List Json → Prop
  | [] => True
  | item :: rest => item.Sorted ∧ SortedItems rest

/-- `Sorted`, for the value of every member. -/
def SortedMembers : List (String × Json) → Prop
  | [] => True
  | member :: rest => member.2.Sorted ∧ SortedMembers rest

end

mutual

/-- How many arrays and objects enclose the innermost one; a scalar has depth zero. -/
def depth : Json → Nat
  | .arr items => depthItems items + 1
  | .obj members => depthMembers members + 1
  | _ => 0

/-- The greatest depth of a list of items. -/
def depthItems : List Json → Nat
  | [] => 0
  | item :: rest => max item.depth (depthItems rest)

/-- The greatest depth of the values of a member list. -/
def depthMembers : List (String × Json) → Nat
  | [] => 0
  | member :: rest => max member.2.depth (depthMembers rest)

end

end Json

end LanguageClient
