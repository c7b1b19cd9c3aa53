import LanguageClient.Json.Token

/-!
# Reading values

The tokens of a text drive a stack machine: `State` says what may come next inside which
containers, `State.step?` takes one token, and a text is a value when its tokens lead from
`State.value []` to `State.finished`.

* `Json.parse?` — the value of a text, with a limit on nesting.
* `Json.depthLimit` — the nesting that messages may have.

An object keeps its names in increasing order; of two members of one name the last one stands.
-/

namespace LanguageClient
namespace Json

/-- A container that is being read; what has been read is kept in reverse. -/
inductive Frame where
  /-- An array. -/
  | items (read : List Json)
  /-- An object between two members. -/
  | members (read : List (String × Json))
  /-- An object in which the value of a name is being read. -/
  | member (name : String) (read : List (String × Json))

/-- What is due next, and the open containers, innermost first. -/
inductive State where
  /-- A value. -/
  | value (stack : List Frame)
  /-- A first item or the end of an array. -/
  | firstItem (stack : List Frame)
  /-- A first name or the end of an object. -/
  | firstName (read : List (String × Json)) (stack : List Frame)
  /-- A name. -/
  | name (read : List (String × Json)) (stack : List Frame)
  /-- The colon after a name. -/
  | colon (name : String) (read : List (String × Json)) (stack : List Frame)
  /-- A comma or the end of the innermost container. -/
  | next (top : Frame) (stack : List Frame)
  /-- Nothing: the whole value has been read. -/
  | finished (value : Json)

namespace State

/-- Hands a complete value to the innermost container. -/
def give (v : Json) : List Frame → State
  | [] => .finished v
  | .items read :: stack => .next (.items (v :: read)) stack
  | .member n read :: stack => .next (.members ((n, v) :: read)) stack
  | .members read :: stack => .next (.members read) stack

/-- Reads a token where a value is due; at most `limit` containers may be open. -/
def beginValue? (limit : Nat) (stack : List Frame) : Token → Option State
  | .null => some (give .null stack)
  | .bool b => some (give (.bool b) stack)
  | .num n => some (give (.num n) stack)
  | .str s => some (give (.str s) stack)
  | .openArray => if stack.length < limit then some (.firstItem stack) else none
  | .openObject => if stack.length < limit then some (.firstName [] stack) else none
  | _ => none

/-- Takes one token; none when it may not come here. -/
def step? (limit : Nat) : State → Token → Option State
  | .value stack, token => beginValue? limit stack token
  | .firstItem stack, .closeArray => some (give (.arr []) stack)
  | .firstItem stack, token => beginValue? limit (.items [] :: stack) token
  | .firstName _ stack, .closeObject => some (give (.obj []) stack)
  | .firstName read stack, .str n => some (.colon n read stack)
  | .name read stack, .str n => some (.colon n read stack)
  | .colon n read stack, .colon => some (.value (.member n read :: stack))
  | .next (.items read) stack, .comma => some (.value (.items read :: stack))
  | .next (.items read) stack, .closeArray => some (give (.arr read.reverse) stack)
  | .next (.members read) stack, .comma => some (.name read stack)
  | .next (.members read) stack, .closeObject => some (give (ofMembers read.reverse) stack)
  | _, _ => none

/-- The value that has been read completely. -/
def result? : State → Option Json
  | .finished v => some v
  | _ => none

end State

/-- The nesting that a message may have. -/
def depthLimit : Nat := 127

/-- The value that some tokens write, nested at most `limit` deep. -/
def ofTokens? (limit : Nat) (tokens : List Token) : Option Json :=
  (tokens.foldlM (State.step? limit) (.value [])).bind State.result?

/-- The value of a text, nested at most `limit` deep; none when the text is not one value. -/
def parseWithin? (limit : Nat) (text : String) : Option Json :=
  (Token.ofText? text.toList).bind (ofTokens? limit)

/-- The value of a text; none when the text is not one value. -/
def parse? (text : String) : Option Json := parseWithin? depthLimit text

end Json
end LanguageClient
