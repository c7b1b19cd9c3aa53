import LanguageClient.Uri.Host
import LanguageClient.Uri.Path

/-!
# The path of a uri

* `Uri.path?` — the normalised path of an absolute uri; none when the text is no absolute uri.

Controls and spaces around the text are ignored, tabs and line breaks everywhere. Query and fragment
end the path. A uri whose scheme is not special and that has no slash after its scheme has an
opaque path, in which only controls and characters outside ASCII are encoded.
-/

namespace LanguageClient
namespace Uri

/-- A text without the controls and spaces around it and without any tab or line break. -/
def cleaned (text : String) : List Char :=
  let blank := fun c : Char => c.toNat ≤ 0x20
  let inner := ((text.toList.dropWhile blank).reverse.dropWhile blank).reverse
  inner.filter fun c => c ∉ ['\t', '\n', '\r']

/-- Where query or fragment begin. -/
def endsPath (c : Char) : Bool := c = '?' || c = '#'

/-- A separator of a kind of uri. -/
def isSeparator (kind : Kind) (c : Char) : Bool := c = '/' || (kind.isSpecial && c = '\\')

/-- The path after a host: it begins with a slash, unless it is empty in a uri that is not
special. -/
def pathAfterHost (kind : Kind) (rest : List Char) : List Char :=
  let text := rest.takeWhile fun c => !endsPath c
  match text with
  | [] => if kind.isSpecial then ['/'] else []
  | c :: tail =>
      if kind.isSpecial then buildPath kind ['/'] (if isSeparator kind c then tail else text)
      else if c = '/' then buildPath kind [] text
      else buildPath kind ['/'] text

/-- The characters of a host: up to a colon outside brackets. -/
def splitHost : Bool → List Char → List Char × List Char
  | _, [] => ([], [])
  | bracketed, c :: rest =>
      if c = ':' && !bracketed then ([], c :: rest)
      else
        let found := splitHost (if c = '[' then true else if c = ']' then false else bracketed) rest
        (c :: found.1, found.2)

/-- The user in front of the last `@` of an authority, if there is one, and the address after
it. -/
def splitUser (authority : List Char) : Option (List Char) × List Char :=
  let address := (authority.reverse.takeWhile (· ≠ '@')).reverse
  if address.length < authority.length then
    (some (authority.take (authority.length - address.length - 1)), address)
  else (none, authority)

/-- Whether a uri without a host may have this user: none, or one without name and password, which
has to be followed by nothing when it has not even a colon. -/
def allowsNoHost (user : Option (List Char)) (rest : List Char) : Bool :=
  match user with
  | none => true
  | some [] => rest.isEmpty
  | some user => user = [':']

/-- The path after two slashes, when user, host and port are valid. -/
def afterAuthority? (kind : Kind) (text : List Char) : Option (List Char) :=
  let ends := fun c => endsPath c || isSeparator kind c
  let authority := text.takeWhile fun c => !ends c
  let rest := text.dropWhile fun c => !ends c
  let (user, address) := splitUser authority
  let (host, port) := splitHost false address
  -- A backslash ends the port in every kind of uri.
  let (port, extra) := match port with
    | ':' :: digits => (digits.takeWhile (· ≠ '\\'), digits.dropWhile (· ≠ '\\'))
    | digits => (digits, [])
  if host.isEmpty then
    if !kind.isSpecial && address.isEmpty && allowsNoHost user rest then
      some (pathAfterHost kind rest)
    else none
  else if isValidHost kind host && isValidPort port then some (pathAfterHost kind (extra ++ rest))
  else none

/-- The path of a file uri after its scheme. -/
def filePath? (text : List Char) : Option (List Char) :=
  let separator := isSeparator .file
  let path := fun rest : List Char => rest.takeWhile fun c => !endsPath c
  match text with
  | a :: b :: rest =>
      if separator a && separator b then
        let ends := fun c => endsPath c || separator c
        let host := rest.takeWhile fun c => !ends c
        let after := rest.dropWhile fun c => !ends c
        if host.isEmpty || isDriveLetter host then some (buildPath .file ['/'] (path rest))
        else if !isValidHost .file host then none
        else if host.map Char.toLower = "localhost".toList then
          some (buildPath .file ['/'] (path after))
        else some (pathAfterHost .file after)
      else if separator a then some (buildPath .file [] (path text))
      else some (buildPath .file ['/'] (path text))
  | _ =>
      if text.head?.any separator then some (buildPath .file [] (path text))
      else some (buildPath .file ['/'] (path text))

/-- The path of a uri of another scheme after its scheme. -/
def otherPath? : List Char → Option (List Char)
  | '/' :: '/' :: rest => afterAuthority? .other rest
  | '/' :: rest => some (buildPath .other ['/'] (rest.takeWhile fun c => !endsPath c))
  | text => some (encodeWith isControl (text.takeWhile fun c => !endsPath c))

/-- The normalised path of an absolute uri; none when the text is no absolute uri. -/
def path? (text : String) : Option String :=
  match splitScheme? (cleaned text) with
  | none => none
  | some (scheme, rest) =>
      let found := match kindOf scheme with
        | .file => filePath? rest
        | .special => afterAuthority? .special (rest.dropWhile (isSeparator .special))
        | .other => otherPath? rest
      found.map String.ofList

end Uri
end LanguageClient
