import LanguageClient.Uri.Percent
import LanguageClient.Uri.Scheme

/-!
# Paths

A path is built segment by segment. A segment `..`, also with its dots as escapes, takes the last
segment away, but neither the first slash nor the segment of a drive letter; a segment `.` adds
nothing.

* `Uri.segments` — the segments of a text, each with whether a separator follows it.
* `Uri.addSegment` — a path extended by a segment.
* `Uri.buildPath` — the path of a text.
-/

namespace LanguageClient
namespace Uri

/-- Whether a text ends with a slash. -/
def endsWithSlash (path : List Char) : Bool := path.getLast? = some '/'

/-- A letter and a colon or bar: the name of a drive. -/
def isDriveLetter : List Char → Bool
  | [letter, mark] => letter.isAlpha && (mark = ':' || mark = '|')
  | _ => false

/-- Whether a text that follows a slash begins with the name of a drive and a separator, or is
one. -/
def beginsWithDrive : List Char → Bool
  | [letter, mark] => isDriveLetter [letter, mark]
  | letter :: mark :: separator :: _ =>
      isDriveLetter [letter, mark] && ['/', '\\', '?', '#'].contains separator
  | _ => false

/-- A path up to and including its last slash. -/
def upToLastSlash (path : List Char) : List Char :=
  (path.reverse.dropWhile (· ≠ '/')).reverse

/-- What follows the last slash of a path. -/
def lastSegment (path : List Char) : List Char :=
  (path.reverse.takeWhile (· ≠ '/')).reverse

/-- Whether the slash at the end of a path may be taken away: another one precedes it, and between
them stands no drive. -/
def mayDropSlash (path : List Char) : Bool :=
  let before := path.dropLast
  let root := upToLastSlash before
  !root.isEmpty && !beginsWithDrive (path.drop root.length)

/-- A path without its last segment; in file uris a drive is kept. -/
def dropSegment (kind : Kind) (path : List Char) : List Char :=
  let last := lastSegment path
  if kind = .file && isDriveLetter last && last.getLast? = some ':' then path
  else upToLastSlash path

/-- Whether a segment means the one above. -/
def isDoubleDot (segment : List Char) : Bool :=
  ["..", ".%2e", "%2e.", "%2e%2e"].contains (String.ofList (segment.map Char.toLower))

/-- Whether a segment means the one itself. -/
def isSingleDot (segment : List Char) : Bool :=
  [".", "%2e"].contains (String.ofList (segment.map Char.toLower))

/-- A path extended by a segment; `slash` tells whether a separator follows it. -/
def addSegment (kind : Kind) (path segment : List Char) (slash : Bool) : List Char :=
  let close := if slash then ['/'] else []
  if isDoubleDot segment then
    let path := if endsWithSlash path && mayDropSlash path then path.dropLast else path
    let path := dropSegment kind path
    if slash && !endsWithSlash path then path ++ ['/'] else path
  else if isSingleDot segment then
    if endsWithSlash path then path else path ++ ['/']
  else if kind = .file && path.length = 1 && isDriveLetter segment then
    path ++ segment.take 1 ++ ':' :: close
  else path ++ encodeWith isEncodedInPath segment ++ close

/-- The segments of a text, each with whether a separator follows it. In special uris the
backslash separates, too. -/
def segments (kind : Kind) : List Char → List (List Char × Bool)
  | [] => [([], false)]
  | c :: rest =>
      if c = '/' || (kind.isSpecial && c = '\\') then ([], true) :: segments kind rest
      else match segments kind rest with
        | [] => [([c], false)]
        | (segment, slash) :: others => (c :: segment, slash) :: others

/-- The path that `start` and the segments of a text build. In file uris all slashes at its front
count as one. -/
def buildPath (kind : Kind) (start text : List Char) : List Char :=
  let path := (segments kind text).foldl (fun path s => addSegment kind path s.1 s.2) start
  if kind = .file then '/' :: path.dropWhile (· = '/') else path

end Uri
end LanguageClient
