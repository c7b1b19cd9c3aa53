/-!
# Text as bytes

* `bytes` — the UTF-8 form of a text.
* `ofBytes?` — the text of a list of bytes, when they are well-formed UTF-8.
* **`ofBytes?_bytes`**, **`bytes_of_ofBytes?`** — the two are inverse to each other.
* `Utf8Fault`, `firstFault` — where bytes stop to be text, and how many of them belong to no
  character.
-/

namespace LanguageClient
namespace Text

/-- The UTF-8 form of a text. -/
def bytes (s : String) : List UInt8 := s.toUTF8.data.toList

/-- The text that a list of bytes writes in UTF-8; none when they are not well-formed. -/
def ofBytes? (bs : List UInt8) : Option String := String.fromUTF8? ⟨bs.toArray⟩

/-- Every text reads back from its bytes. -/
@[simp] theorem ofBytes?_bytes (s : String) : ofBytes? (bytes s) = some s := by
  have h : (⟨(bytes s).toArray⟩ : ByteArray) = s.toByteArray := by simp [bytes]
  unfold ofBytes? String.fromUTF8?
  rw [h, dif_pos s.isValidUTF8]
  rfl

/-- Only the bytes of a text read as that text. -/
theorem bytes_of_ofBytes? {bs : List UInt8} {s : String} (h : ofBytes? bs = some s) :
    bs = bytes s := by
  unfold ofBytes? String.fromUTF8? at h
  split at h
  · cases h
    rfl
  · cases h

/-! ### Where bytes stop to be text -/

/-- The place at which bytes stop to be text. -/
structure Utf8Fault where
  /-- How many bytes before it are text. -/
  index : Nat
  /-- How many bytes there can begin no character; none when the bytes end inside one. -/
  size? : Option Nat
  deriving DecidableEq, Repr

/-- A byte that continues a character. -/
def isContinuation (b : UInt8) : Bool := 0x80 ≤ b && b ≤ 0xBF

/-- The range of the second byte of a character, and how many bytes follow that, by its first byte;
none when no character of several bytes begins so. -/
def secondByte? (b : UInt8) : Option (UInt8 × UInt8 × Nat) :=
  if 0xC2 ≤ b && b ≤ 0xDF then some (0x80, 0xBF, 0)
  else if b = 0xE0 then some (0xA0, 0xBF, 1)
  else if b = 0xED then some (0x80, 0x9F, 1)
  else if 0xE1 ≤ b && b ≤ 0xEF then some (0x80, 0xBF, 1)
  else if b = 0xF0 then some (0x90, 0xBF, 2)
  else if 0xF1 ≤ b && b ≤ 0xF3 then some (0x80, 0xBF, 2)
  else if b = 0xF4 then some (0x80, 0x8F, 2)
  else none

/-- The size of the character at the front of some bytes, or the number of bytes that begin
none. -/
def characterSize : List UInt8 → Except (Option Nat) Nat
  | [] => .error none
  | b :: rest =>
      if b < 0x80 then .ok 1
      else match secondByte? b with
        | none => .error (some 1)
        | some (low, high, more) =>
            match rest with
            | [] => .error none
            | c :: rest =>
                if c < low || high < c then .error (some 1)
                else
                  let found := ((rest.take more).takeWhile isContinuation).length
                  if found = more then .ok (more + 2)
                  else if found = rest.length then .error none
                  else .error (some (found + 2))

/-- The first place at which bytes stop to be text, looking at most at `fuel` characters. -/
def faultFrom : Nat → Nat → List UInt8 → Utf8Fault
  | 0, index, _ => ⟨index, none⟩
  | fuel + 1, index, bs =>
      match characterSize bs with
      | .ok size => faultFrom fuel (index + size) (bs.drop size)
      | .error size? => ⟨index, size?⟩

/-- The first place at which bytes stop to be text. -/
def firstFault (bs : List UInt8) : Utf8Fault := faultFrom (bs.length + 1) 0 bs

end Text
end LanguageClient
