import LanguageClient.Json.Printer
import LanguageClient.Proofs.Json.Numbers

/-!
# The text of a value reads back as its tokens

The printer puts the texts of its tokens side by side.  Read again, each text ends where the next
one begins: brackets, separators and names by themselves, a string at its closing quote, and a
number because no digit, point or exponent can follow it in the text of a value.

* `Token.readString?_escape` — strings read back.
* `Token.Reads` — a text and its tokens, whatever the fuel.
* **`Json.reads_tokens`** — the text of a value is read as the tokens that were written.
-/

namespace LanguageClient

/-! ### Strings -/

namespace Token

/-- A control character reads back from its four hexadecimal digits. -/
theorem hexQuad?_control (n : Nat) (h : n < 0x20) (cs : List Char) :
    hexQuad? ('0' :: '0' :: hexDigit (n / 16) :: hexDigit (n % 16) :: cs) = some (n, cs) := by
  have hdigits : ∀ n, n < 0x20 → hexValue? (hexDigit (n / 16)) = some (n / 16) ∧
      hexValue? (hexDigit (n % 16)) = some (n % 16) := by decide
  obtain ⟨hhigh, hlow⟩ := hdigits n h
  have hzero : hexValue? '0' = some 0 := by decide
  rw [hexQuad?, hzero, hhigh, hlow]
  simp only [Option.some.injEq, Prod.mk.injEq, and_true]
  omega

theorem readCodePoint?_control {c : Char} (h : c.toNat < 0x20) (cs : List Char) :
    readCodePoint? ('0' :: '0' :: hexDigit (c.toNat / 16) :: hexDigit (c.toNat % 16) :: cs) =
      some (c, cs) := by
  rw [readCodePoint?, hexQuad?_control c.toNat h]
  dsimp only
  rw [if_neg (by omega), if_neg (by omega), Char.ofNat_toNat]

/-- An escape that reads as a character puts that character in front of the string. -/
theorem readString?_of_escape {d : Char} {cs rest : List Char}
    (h : readEscape? cs = some (d, rest)) :
    readString? ('\\' :: cs) = (readString? rest).map fun found => (d :: found.1, found.2) := by
  rw [readString?, if_neg (by decide), if_pos rfl]
  split
  · rename_i d' rest' hescape
    rw [h, Option.some.injEq, Prod.mk.injEq] at hescape
    obtain ⟨rfl, rfl⟩ := hescape
    cases readString? rest <;> rfl
  · rename_i hescape
    rw [h] at hescape
    cases hescape

/-- A written character reads back. -/
theorem readString?_escape (c : Char) (cs : List Char) :
    readString? (escape c ++ cs) = (readString? cs).map fun found => (c :: found.1, found.2) := by
  -- The cases are those of `escape`: seven short escapes, control characters, and the others.
  unfold escape
  split
  · rename_i hc
    exact readString?_of_escape (by rw [hc]; rfl)
  split
  · rename_i hc
    exact readString?_of_escape (by rw [hc]; rfl)
  split
  · rename_i hc
    exact readString?_of_escape (by rw [hc]; rfl)
  split
  · rename_i hc
    exact readString?_of_escape (by rw [hc]; rfl)
  split
  · rename_i hc
    exact readString?_of_escape (by rw [hc]; rfl)
  split
  · rename_i hc
    exact readString?_of_escape (by rw [hc]; rfl)
  split
  · rename_i hc
    exact readString?_of_escape (by rw [hc]; rfl)
  split
  · rename_i hcontrol
    exact readString?_of_escape (readCodePoint?_control hcontrol cs)
  · rename_i hquote hslash _ _ _ _ _ hcontrol
    rw [List.singleton_append, readString?, if_neg hquote, if_neg hslash, if_neg hcontrol]
    cases readString? cs <;> rfl

/-- **A string reads back.** -/
theorem readString?_quoted (chars cs : List Char) :
    readString? (chars.flatMap escape ++ '"' :: cs) = some (chars, cs) := by
  induction chars with
  | nil => simp [readString?]
  | cons c chars ih => rw [List.flatMap_cons, List.append_assoc, readString?_escape, ih]; rfl

/-! ### Tokens -/

/-- A token whose text reads back. -/
def IsPlain : Token → Prop
  | num n => n.ReadsBack
  | _ => True

/-- A text that begins with a digit or a minus sign is read as a number. -/
theorem next?_of_number {c : Char} (hc : c.isDigit ∨ c = '-') (rest : List Char) :
    next? (c :: rest) = (Number.read? (c :: rest)).map fun found => (num found.1, found.2) := by
  have hne : ∀ d : Char, d.isDigit = false → d ≠ '-' → c ≠ d := by
    rintro d hdigit hminus rfl
    rcases hc with hc | hc
    · rw [hdigit] at hc
      cases hc
    · exact hminus hc
  rw [next?, if_neg (hne _ (by decide) (by decide)), if_neg (hne _ (by decide) (by decide)),
    if_neg (hne _ (by decide) (by decide)), if_neg (hne _ (by decide) (by decide)),
    if_neg (hne _ (by decide) (by decide)), if_neg (hne _ (by decide) (by decide)),
    if_neg (hne _ (by decide) (by decide)), if_neg (hne _ (by decide) (by decide)),
    if_neg (hne _ (by decide) (by decide)), if_neg (hne _ (by decide) (by decide))]

/-- **The text of a token is read as that token.** -/
theorem next?_text {t : Token} (ht : t.IsPlain) {cs : List Char}
    (hcs : ∀ n, t = num n → Number.Parts cs) : next? (t.text ++ cs) = some (t, cs) := by
  cases t with
  | num n =>
      have hread := Number.read?_of_readsBack ht (hcs _ rfl)
      obtain ⟨c, rest, htext, hc⟩ := Number.head_of_readsBack ht
      rw [text]
      rw [htext, List.cons_append] at hread ⊢
      rw [next?_of_number hc, hread]
      rfl
  | str s =>
      have hread := readString?_quoted s.toList cs
      have htext : (str s).text ++ cs = '"' :: (s.toList.flatMap escape ++ '"' :: cs) := by
        simp [text, quoted]
      rw [htext]
      simp [next?, hread]
  | bool b => cases b <;> simp [text, next?, afterWord?]
  | _ => simp [text, next?, afterWord?]

/-- No written token begins with a blank. -/
theorem head_text {t : Token} (ht : t.IsPlain) :
    ∃ c rest, t.text = c :: rest ∧ isGap c = false := by
  cases t with
  | num n =>
      obtain ⟨c, rest, htext, hc⟩ := Number.head_of_readsBack ht
      refine ⟨c, rest, htext, ?_⟩
      cases hgap : isGap c with
      | false => rfl
      | true =>
          have hblank : c = ' ' ∨ c = '\n' ∨ c = '\r' ∨ c = '\t' := by
            simpa [isGap, or_assoc] using hgap
          rcases hblank with rfl | rfl | rfl | rfl <;> revert hc <;> decide
  | bool b => cases b <;> exact ⟨_, _, rfl, by decide⟩
  | str s => exact ⟨'"', _, rfl, by decide⟩
  | _ => exact ⟨_, _, rfl, by decide⟩

/-! ### Texts of several tokens -/

/-- A text is read as some tokens, with any fuel that suffices for its length. -/
def Reads (cs : List Char) (tokens : List Token) : Prop :=
  ∀ fuel, cs.length ≤ fuel → scan? fuel cs = some tokens

theorem reads_nil : Reads [] [] := by
  intro fuel _
  cases fuel <;> rfl

/-- A token is read off the front of a text. -/
theorem reads_cons {t : Token} (ht : t.IsPlain) {cs : List Char} {tokens : List Token}
    (hcs : ∀ n, t = num n → Number.Parts cs) (h : Reads cs tokens) :
    Reads (t.text ++ cs) (t :: tokens) := by
  -- The front is no blank, so the token is read where the text begins.
  obtain ⟨c, rest, htext, hgap⟩ := head_text ht
  have hnext := next?_text ht hcs
  intro fuel hfuel
  rw [htext, List.cons_append] at hnext hfuel ⊢
  rw [List.length_cons, List.length_append] at hfuel
  cases fuel with
  | zero => omega
  | succ fuel =>
      have hfront : (c :: (rest ++ cs)).dropWhile isGap = c :: (rest ++ cs) := by
        simp [hgap]
      rw [scan?, hfront]
      dsimp only
      rw [hnext]
      simp only [h fuel (by omega), Option.map_some]

theorem ofText?_of_reads {cs : List Char} {tokens : List Token} (h : Reads cs tokens) :
    ofText? cs = some tokens := h cs.length (Nat.le_refl _)

end Token

/-! ### Values -/

namespace Json

mutual

/-- The numbers inside a value. -/
def numbers : Json → List Number
  | .num n => [n]
  | .arr items => itemNumbers items
  | .obj members => memberNumbers members
  | _ => []

/-- The numbers inside the items of a list. -/
def itemNumbers : List Json → List Number
  | [] => []
  | item :: rest => item.numbers ++ itemNumbers rest

/-- The numbers inside the values of a member list. -/
def memberNumbers : List (String × Json) → List Number
  | [] => []
  | member :: rest => member.2.numbers ++ memberNumbers rest

end

/-- Every number of a list is an integer that fits a word. -/
def AreIntegers (numbers : List Number) : Prop :=
  ∀ n ∈ numbers, ∃ k : Int, n = .int k ∧ Number.FitsWord k

/-- Every number of a list reads back from its text. -/
def AreReadBack (numbers : List Number) : Prop := ∀ n ∈ numbers, n.ReadsBack

open Token (Reads reads_cons)
open Number (Parts)

theorem areReadBack_of_integers {numbers : List Number} (h : AreIntegers numbers) :
    AreReadBack numbers := by
  intro n hn
  obtain ⟨k, rfl, hk⟩ := h n hn
  exact Number.readsBack_int hk

theorem areReadBack_append {ns ms : List Number} (h : AreReadBack (ns ++ ms)) :
    AreReadBack ns ∧ AreReadBack ms :=
  ⟨fun n hn => h n (List.mem_append_left _ hn), fun n hn => h n (List.mem_append_right _ hn)⟩

/-- A separator or a bracket ends a number. -/
theorem parts_cons {c : Char} (hdigit : c.isDigit = false)
    (hother : c ≠ '.' ∧ c ≠ 'e' ∧ c ≠ 'E') (cs : List Char) : Parts (c :: cs) := by
  intro d rest heq
  cases heq
  exact ⟨hdigit, hother⟩

theorem parts_itemTokens (items : List Json) (cs : List Char) :
    Parts ((itemTokens items).flatMap Token.text ++ cs) := by
  cases items <;> exact parts_cons (by decide) (by decide) _

theorem parts_memberTokens (members : List (String × Json)) (cs : List Char) :
    Parts ((memberTokens members).flatMap Token.text ++ cs) := by
  cases members <;> exact parts_cons (by decide) (by decide) _

/-- A token that is no number is read off the front of any text. -/
theorem reads_mark {t : Token} (ht : ∀ n, t ≠ .num n) {cs : List Char} {tokens : List Token}
    (h : Reads cs tokens) : Reads (t.text ++ cs) (t :: tokens) := by
  refine reads_cons ?_ (fun n heq => absurd heq (ht n)) h
  cases t with
  | num n => exact absurd rfl (ht n)
  | _ => trivial

mutual

/-- **The text of a value is read as its tokens**, in front of any text that ends a number. -/
theorem reads_tokens : ∀ (value : Json), AreReadBack value.numbers → ∀ {cs : List Char}
    {tokens : List Token}, Parts cs → Reads cs tokens →
      Reads (value.tokens.flatMap Token.text ++ cs) (value.tokens ++ tokens)
  | .null, _, cs, tokens, _, h => by simpa [Json.tokens] using reads_mark (t := .null) (by simp) h
  | .bool b, _, cs, tokens, _, h => by
      simpa [Json.tokens] using reads_mark (t := .bool b) (by simp) h
  | .num n, hn, cs, tokens, hcs, h => by
      have hplain : (Token.num n).IsPlain := hn n (by simp [numbers])
      simpa [Json.tokens] using reads_cons hplain (fun _ _ => hcs) h
  | .str s, _, cs, tokens, _, h => by
      simpa [Json.tokens] using reads_mark (t := .str s) (by simp) h
  | .arr [], _, cs, tokens, _, h => by
      have hclose := reads_mark (t := .closeArray) (by simp) h
      simpa [Json.tokens] using reads_mark (t := .openArray) (by simp) hclose
  | .arr (item :: rest), hn, cs, tokens, _, h => by
      obtain ⟨hitem, hrest⟩ := areReadBack_append (by simpa [numbers, itemNumbers] using hn)
      have hread := reads_tokens item hitem (parts_itemTokens rest cs)
        (reads_itemTokens rest hrest h)
      simpa [Json.tokens] using reads_mark (t := .openArray) (by simp) hread
  | .obj [], _, cs, tokens, _, h => by
      have hclose := reads_mark (t := .closeObject) (by simp) h
      simpa [Json.tokens] using reads_mark (t := .openObject) (by simp) hclose
  | .obj (member :: rest), hn, cs, tokens, _, h => by
      obtain ⟨hmember, hrest⟩ := areReadBack_append (by simpa [numbers, memberNumbers] using hn)
      have hread := reads_tokens member.2 hmember (parts_memberTokens rest cs)
        (reads_memberTokens rest hrest h)
      have hcolon := reads_mark (t := .colon) (by simp) hread
      have hname := reads_mark (t := .str member.1) (by simp) hcolon
      simpa [Json.tokens] using reads_mark (t := .openObject) (by simp) hname

theorem reads_itemTokens : ∀ (items : List Json), AreReadBack (itemNumbers items) →
    ∀ {cs : List Char} {tokens : List Token}, Reads cs tokens →
      Reads ((itemTokens items).flatMap Token.text ++ cs) (itemTokens items ++ tokens)
  | [], _, cs, tokens, h => by
      simpa [itemTokens] using reads_mark (t := .closeArray) (by simp) h
  | item :: rest, hn, cs, tokens, h => by
      obtain ⟨hitem, hrest⟩ := areReadBack_append (by simpa [itemNumbers] using hn)
      have hread := reads_tokens item hitem (parts_itemTokens rest cs)
        (reads_itemTokens rest hrest h)
      simpa [itemTokens] using reads_mark (t := .comma) (by simp) hread

theorem reads_memberTokens : ∀ (members : List (String × Json)),
    AreReadBack (memberNumbers members) → ∀ {cs : List Char} {tokens : List Token},
      Reads cs tokens →
      Reads ((memberTokens members).flatMap Token.text ++ cs) (memberTokens members ++ tokens)
  | [], _, cs, tokens, h => by
      simpa [memberTokens] using reads_mark (t := .closeObject) (by simp) h
  | member :: rest, hn, cs, tokens, h => by
      obtain ⟨hmember, hrest⟩ := areReadBack_append (by simpa [memberNumbers] using hn)
      have hread := reads_tokens member.2 hmember (parts_memberTokens rest cs)
        (reads_memberTokens rest hrest h)
      have hcolon := reads_mark (t := .colon) (by simp) hread
      have hname := reads_mark (t := .str member.1) (by simp) hcolon
      simpa [memberTokens] using reads_mark (t := .comma) (by simp) hname

end

end Json
end LanguageClient
