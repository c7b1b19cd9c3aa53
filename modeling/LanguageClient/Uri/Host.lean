import LanguageClient.Uri.Percent
import LanguageClient.Uri.Scheme

/-!
# Hosts

Only whether a host is valid matters, and whether it is empty.

* `Uri.isValidHost` — a name, an address of four numbers, or a bracketed address.
* `Uri.isValidPort` — decimal digits of a number below 65536.

The rules for internationalised domain names are left out: a domain beyond ASCII is taken as it
stands, and a label that begins with `xn--` is not decoded.  So a few hosts are valid here that those
rules refuse, such as the one of `http://xn--a/x`.
-/

namespace LanguageClient
namespace Uri

/-! ### Numeric addresses -/

/-- The number that a part of an address writes: hexadecimal after `0x`, octal after `0`, else
decimal; none when it is no number. -/
def addressNumber? (part : List Char) : Option Nat :=
  let (base, digits) := match part with
    | '0' :: 'x' :: rest => (16, rest)
    | '0' :: 'X' :: rest => (16, rest)
    | '0' :: c :: rest => (8, c :: rest)
    | digits => (10, digits)
  if part.isEmpty then none
  else digits.foldl (fun n? c => match n?, hexDigitValue? c with
    | some n, some d => if d < base then some (n * base + d) else none
    | _, _ => none) (some 0)

/-- The parts of a text between separators. -/
def splitOnChar (separator : Char) : List Char → List (List Char)
  | [] => [[]]
  | c :: rest =>
      match splitOnChar separator rest with
      | [] => [[c]]
      | part :: parts => if c = separator then [] :: part :: parts else (c :: part) :: parts

/-- The parts of a name, without an empty last one. -/
def nameParts (name : List Char) : List (List Char) :=
  let parts := splitOnChar '.' name
  if parts.getLast? = some [] then parts.dropLast else parts

/-- Whether a name ends in a number, which makes it an address. -/
def endsInNumber (name : List Char) : Bool :=
  match (nameParts name).getLast? with
  | none => false
  | some part => (!part.isEmpty && part.all Char.isDigit) || (addressNumber? part).isSome

/-- Whether a name is a valid address: at most four numbers, each but the last below 256, the last
one filling the bytes that are left. -/
def isValidAddress (name : List Char) : Bool :=
  match (nameParts name).mapM addressNumber? with
  | none => false
  | some numbers =>
      numbers.length ≤ 4 && numbers.dropLast.all (· < 256) &&
        numbers.getLastD 0 < Nat.pow 256 (5 - numbers.length)

/-! ### Bracketed addresses -/

/-- One to four hexadecimal digits. -/
def isAddressGroup (part : List Char) : Bool :=
  !part.isEmpty && part.length ≤ 4 && part.all fun c => (hexDigitValue? c).isSome

/-- A decimal number below 256 without leading zeros. -/
def isAddressByte (part : List Char) : Bool :=
  !part.isEmpty && part.all Char.isDigit && (part.length = 1 || part.head? ≠ some '0') &&
    part.length ≤ 3 && (addressNumber? part).any (· < 256)

/-- How many groups of 16 bits some parts of a bracketed address fill; four bytes at the end fill
two. None when a part is malformed. -/
def groupCount? : List (List Char) → Option Nat
  | [] => some 0
  | [last] =>
      if isAddressGroup last then some 1
      else
        let bytes := splitOnChar '.' last
        if bytes.length = 4 && bytes.all isAddressByte then some 2 else none
  | part :: parts => if isAddressGroup part then (groupCount? parts).map (· + 1) else none

/-- The texts before and after the first pair of colons. -/
def splitDoubleColon? : List Char → Option (List Char × List Char)
  | ':' :: ':' :: rest => some ([], rest)
  | c :: rest => (splitDoubleColon? rest).map fun found => (c :: found.1, found.2)
  | [] => none

/-- The groups of one side of an address. -/
def sideCount? (side : List Char) : Option Nat :=
  if side.isEmpty then some 0 else groupCount? (splitOnChar ':' side)

/-- Whether a bracketed address is valid: eight groups, or fewer around one pair of colons. -/
def isValidBracketed (address : List Char) : Bool :=
  match splitDoubleColon? address with
  | none => groupCount? (splitOnChar ':' address) = some 8
  | some (before, after) =>
      match sideCount? before, sideCount? after with
      | some m, some n =>
          m + n ≤ 7 && (before.isEmpty || (splitOnChar ':' before).all isAddressGroup)
      | _, _ => false

/-! ### Hosts -/

/-- What a host without brackets may not hold in a uri that is not special. -/
def isForbiddenInHost (c : Char) : Bool :=
  ['\x00', '\t', '\n', '\r', ' ', '#', '/', ':', '<', '>', '?', '@', '[', '\\', ']', '^',
    '|'].contains c

/-- What a domain may not hold besides. -/
def isForbiddenInDomain (c : Char) : Bool :=
  c.toNat ≤ 0x20 || c.toNat = 0x7F || isForbiddenInHost c || c = '%'

/-- Whether the text of a domain, its escapes resolved, is valid.  Only the case of ASCII letters is
folded; what internationalised domain names demand beyond that, of the label `xn--a` say, is not
checked. -/
def isValidDomain (host : List Char) : Bool :=
  match Text.ofBytes? (decode host) with
  | none => false
  | some text =>
      let name := text.toList.map Char.toLower
      !name.isEmpty && !name.any isForbiddenInDomain &&
        (!endsInNumber name || isValidAddress name)

/-- Whether a host is valid. -/
def isValidHost (kind : Kind) (host : List Char) : Bool :=
  match host with
  | '[' :: rest => rest.getLast? = some ']' && isValidBracketed rest.dropLast
  | _ => if kind.isSpecial then isValidDomain host else !host.any isForbiddenInHost

/-- Whether a port is valid; it may be empty. -/
def isValidPort (port : List Char) : Bool :=
  port.all Char.isDigit && port.foldl (fun n c => 10 * n + (c.toNat - '0'.toNat)) 0 < 65536

end Uri
end LanguageClient
