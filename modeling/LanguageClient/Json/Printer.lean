import LanguageClient.Json.Token
import LanguageClient.Json.Basic

/-!
# Writing values

* `Json.tokens` — the tokens of a value in order.
* `Json.compact` — their texts without any blank.
* `Json.pretty` — one item or member a line, two blanks for each level; empty containers stay
  closed on one line.
-/

namespace LanguageClient
namespace Json

mutual

/-- The tokens that write a value. -/
def tokens : Json → List Token
  | .null => [.null]
  | .bool b => [.bool b]
  | .num n => [.num n]
  | .str s => [.str s]
  | .arr [] => [.openArray, .closeArray]
  | .arr (item :: rest) => .openArray :: (tokens item ++ itemTokens rest)
  | .obj [] => [.openObject, .closeObject]
  | .obj (member :: rest) =>
      .openObject :: .str member.1 :: .colon :: (tokens member.2 ++ memberTokens rest)

/-- The tokens of the items after the first one, and of the closing bracket. -/
def itemTokens : List Json → List Token
  | [] => [.closeArray]
  | item :: rest => .comma :: (tokens item ++ itemTokens rest)

/-- The tokens of the members after the first one, and of the closing brace. -/
def memberTokens : List (String × Json) → List Token
  | [] => [.closeObject]
  | member :: rest => .comma :: .str member.1 :: .colon :: (tokens member.2 ++ memberTokens rest)

end

/-- The text of a value without blanks. -/
def compact (value : Json) : String := String.ofList (value.tokens.flatMap Token.text)

/-- A new line at a level of nesting. -/
def newLine (level : Nat) : List Char := '\n' :: List.replicate (2 * level) ' '

mutual

/-- The characters of a value inside `level` containers, one item or member a line. -/
def prettyAt (level : Nat) : Json → List Char
  | .arr [] => ['[', ']']
  | .arr (item :: rest) =>
      '[' :: (newLine (level + 1) ++ prettyAt (level + 1) item ++ prettyItems level rest)
  | .obj [] => ['\x7b', '\x7d']
  | .obj (member :: rest) =>
      '\x7b' :: (newLine (level + 1) ++ Token.quoted member.1 ++ [':', ' '] ++
        prettyAt (level + 1) member.2 ++ prettyMembers level rest)
  | .null => Token.null.text
  | .bool b => (Token.bool b).text
  | .num n => n.text
  | .str s => Token.quoted s

/-- The items after the first one, and the closing bracket. -/
def prettyItems (level : Nat) : List Json → List Char
  | [] => newLine level ++ [']']
  | item :: rest =>
      ',' :: (newLine (level + 1) ++ prettyAt (level + 1) item ++ prettyItems level rest)

/-- The members after the first one, and the closing brace. -/
def prettyMembers (level : Nat) : List (String × Json) → List Char
  | [] => newLine level ++ ['\x7d']
  | member :: rest =>
      ',' :: (newLine (level + 1) ++ Token.quoted member.1 ++ [':', ' '] ++
        prettyAt (level + 1) member.2 ++ prettyMembers level rest)

end

/-- The text of a value with one item or member a line. -/
def pretty (value : Json) : String := String.ofList (value.prettyAt 0)

end Json
end LanguageClient
