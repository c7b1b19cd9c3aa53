/-!
# Schemes

A uri begins with a scheme: a letter, then letters, digits, `+`, `-` and `.`, up to a colon. How the
rest is read depends on its kind.

* `Uri.Kind` — file uris, the other special ones, and all others.
* `Uri.splitScheme?` — scheme and rest of a uri.
-/

namespace LanguageClient
namespace Uri

/-- The kinds of schemes that are read differently. -/
inductive Kind where
  /-- `file`. -/
  | file
  /-- The other schemes whose uris always have a host and a path. -/
  | special
  /-- Any other scheme. -/
  | other
  deriving DecidableEq, Repr

/-- In special uris the backslash separates segments, too. -/
def Kind.isSpecial : Kind → Bool
  | .other => false
  | _ => true

/-- The kind of a scheme in lower case. -/
def kindOf (scheme : String) : Kind :=
  if scheme = "file" then .file
  else if scheme ∈ ["http", "https", "ws", "wss", "ftp"] then .special
  else .other

/-- A character of a scheme. -/
def isSchemeChar (c : Char) : Bool := c.isAlphanum || c = '+' || c = '-' || c = '.'

/-- The scheme of a uri in lower case, and what follows its colon. -/
def splitScheme? (uri : List Char) : Option (String × List Char) :=
  match uri with
  | [] => none
  | c :: _ =>
      if !c.isAlpha then none
      else match uri.dropWhile isSchemeChar with
        | ':' :: rest => some (String.ofList ((uri.takeWhile isSchemeChar).map Char.toLower), rest)
        | _ => none

end Uri
end LanguageClient
