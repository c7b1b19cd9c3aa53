import LanguageClient.Json.NumberText

/-!
# The text of a number reads back

A number is read as far as its text goes: what follows it in the text of a value is no digit, no
point and no exponent.  So a number whose text alone reads back also does so in front of whatever
stands behind it.  Every integer of a word does; a double may come back as one of its neighbours, as
the reader works with rounded powers of ten.

* `Number.FitsWord` — the integers that are read back as integers.
* `Number.Parts` — a text that ends the number in front of it.
* `Number.read?_intText` — an integer of a word reads back.
* `Number.ReadsBack`, **`Number.read?_of_readsBack`** — a number that reads back alone does so
  anywhere.
-/

namespace LanguageClient

/-! ### Integers -/

namespace Number

/-- The integer fits a signed or an unsigned word of 64 bits. -/
def FitsWord (n : Int) : Prop := -0x8000000000000000 ≤ n ∧ n ≤ 0xFFFFFFFFFFFFFFFF

/-- A text that does not go on with a number that stands in front of it. -/
def Parts (cs : List Char) : Prop :=
  ∀ c rest, cs = c :: rest → c.isDigit = false ∧ c ≠ '.' ∧ c ≠ 'e' ∧ c ≠ 'E'

theorem le_ofDigitChars (ds : List Char) (n : Nat) : n ≤ Nat.ofDigitChars 10 ds n := by
  induction ds generalizing n with
  | nil => simp
  | cons d ds ih =>
      rw [Nat.ofDigitChars_cons]
      have hle := ih (10 * n + (d.toNat - '0'.toNat))
      omega

/-- Digits are gathered as long as the number they write fits a word. -/
theorem gather_digits {ds cs : List Char} (hds : ∀ d ∈ ds, d.isDigit)
    (hcs : ∀ c rest, cs = c :: rest → c.isDigit = false) (gathered count : Nat)
    (hfits : Nat.ofDigitChars 10 ds gathered ≤ maxWord) :
    gather gathered count (ds ++ cs) =
      (Nat.ofDigitChars 10 ds gathered, count + ds.length, cs) := by
  induction ds generalizing gathered count with
  | nil =>
      cases cs with
      | nil => rfl
      | cons c rest => simp [gather, hcs c rest rfl]
  | cons d ds ih =>
      rw [List.forall_mem_cons] at hds
      rw [Nat.ofDigitChars_cons] at hfits ⊢
      -- What has been gathered never exceeds the whole number, so no digit is left out.
      have hword : 10 * gathered + digitValue d ≤ maxWord :=
        Nat.le_trans (le_ofDigitChars ds _) hfits
      rw [List.cons_append, gather, if_pos ⟨hds.1, hword⟩]
      rw [show digitValue d = d.toNat - '0'.toNat from rfl, ih hds.2 _ _ hfits]
      simp only [List.length_cons, Prod.mk.injEq, and_true, true_and]
      omega

theorem isDigit_of_mem_natText {n : Nat} {c : Char} (h : c ∈ natText n) : c.isDigit :=
  Nat.isDigit_of_mem_toDigits (by decide) (by decide) h

/-- No positive number begins with the digit zero. -/
theorem head?_natText {n : Nat} (h : 0 < n) : (natText n).head? ≠ some '0' := by
  induction n using Nat.strongRecOn with
  | ind n ih =>
      unfold natText at ih ⊢
      rw [Nat.toDigits_eq_if (by decide)]
      split
      · rename_i hsmall
        have hdigit : ∀ d, d < 10 → 0 < d → some (Nat.digitChar d) ≠ some '0' := by decide
        exact hdigit n hsmall h
      · have hpos : 0 < n / 10 := by omega
        have hfirst := ih (n / 10) (by omega) hpos
        cases htext : Nat.toDigits 10 (n / 10) with
        | nil => exact absurd htext Nat.toDigits_ne_nil
        | cons c rest => simpa [htext] using hfirst

theorem readRest?_of_parts {cs : List Char} (h : Parts cs) (negative : Bool) (n : Nat) :
    readRest? negative n cs = some (ofWhole negative n, cs) := by
  cases cs with
  | nil => rfl
  | cons c rest =>
      obtain ⟨-, hpoint, hlower, hupper⟩ := h c rest rfl
      unfold readRest?
      split <;> simp_all

theorem readMagnitude?_natText {n : Nat} (hn : n ≤ maxWord) {cs : List Char} (h : Parts cs)
    (negative : Bool) :
    readMagnitude? negative (natText n ++ cs) = some (ofWhole negative n, cs) := by
  have hdigits : ∀ c rest, cs = c :: rest → c.isDigit = false := fun c rest hc => (h c rest hc).1
  have hrest := readRest?_of_parts h negative n
  by_cases hzero : n = 0
  · subst hzero
    have htext : natText 0 ++ cs = '0' :: cs := by simp [natText]
    rw [htext]
    cases cs with
    | nil => exact hrest
    | cons c rest => simpa [readMagnitude?, hdigits c rest rfl] using hrest
  · -- The first digit is not zero, so all of them are gathered.
    have hgather := @gather_digits (natText n) cs
      (fun d hd => isDigit_of_mem_natText hd) hdigits 0 0 (by simpa [natText] using hn)
    have hfirst := head?_natText (Nat.pos_of_ne_zero hzero)
    have hvalue : Nat.ofDigitChars 10 (natText n) 0 = n := Nat.ofDigitChars_ten_toDigits
    have hall : ∀ d ∈ natText n, d.isDigit := fun d hd => isDigit_of_mem_natText hd
    cases htext : natText n with
    | nil => exact absurd htext Nat.toDigits_ne_nil
    | cons d ds =>
        rw [htext] at hgather hfirst hvalue hall
        have hd : d.isDigit := hall d (by simp)
        have hne : d ≠ '0' := by simpa using hfirst
        rw [hvalue] at hgather
        have hextra : (cs.takeWhile Char.isDigit).isEmpty := by
          cases cs with
          | nil => rfl
          | cons c rest => simp [hdigits c rest rfl]
        rw [List.cons_append] at hgather ⊢
        unfold readMagnitude?
        split
        · rename_i heq
          cases heq
        · rename_i heq
          cases heq
          exact absurd rfl hne
        · rename_i heq
          cases heq
          rw [if_pos hd, hgather]
          simp only [hextra, if_true]
          exact hrest

/-- **An integer reads back.** -/
theorem read?_intText {n : Int} (hn : FitsWord n) {cs : List Char} (h : Parts cs) :
    read? (intText n ++ cs) = some (.int n, cs) := by
  obtain ⟨hlower, hupper⟩ := hn
  cases n with
  | ofNat n =>
      have hword : n ≤ maxWord := by
        have hcast : (Int.ofNat n) = (n : Int) := rfl
        rw [hcast] at hupper
        unfold maxWord
        omega
      have hmagnitude := readMagnitude?_natText hword h false
      -- A natural number begins with a digit, so no sign is read.
      have hread : read? (natText n ++ cs) = readMagnitude? false (natText n ++ cs) := by
        cases htext : natText n with
        | nil => exact absurd htext Nat.toDigits_ne_nil
        | cons d ds =>
            have hd : d.isDigit := isDigit_of_mem_natText (n := n) (by rw [htext]; simp)
            have hne : d ≠ '-' := by
              rintro rfl
              revert hd
              decide
            rw [List.cons_append]
            unfold read?
            split
            · rename_i heq
              cases heq
              exact absurd rfl hne
            · rfl
      rw [intText, hread, hmagnitude]
      rfl
  | negSucc n =>
      have hsmall : n + 1 ≤ 0x8000000000000000 := by
        have hcast : Int.negSucc n = -((n : Int) + 1) := rfl
        rw [hcast] at hlower
        omega
      have hmagnitude := readMagnitude?_natText (n := n + 1) (by unfold maxWord; omega) h true
      rw [intText, List.cons_append, read?, hmagnitude]
      have hwhole : ofWhole true (n + 1) = .int (-((n + 1 : Nat) : Int)) := by
        rw [ofWhole, if_pos rfl, if_neg (by omega)]
      rw [hwhole]
      rfl

end Number

/-! ### Numbers whose text reads back -/

namespace Number

/-- The text of the number alone is read as the number. -/
def ReadsBack (n : Number) : Prop := read? n.text = some (n, [])

theorem parts_nil : Parts [] := by
  intro c rest h
  cases h

theorem readsBack_int {n : Int} (h : FitsWord n) : ReadsBack (.int n) := by
  have hread := read?_intText h parts_nil
  rwa [List.append_nil] at hread

variable {negative : Bool} {n : Number} {rest : List Char}

/-- The digits of a text end where a text begins that parts numbers. -/
theorem digits_append (h : Parts rest) (cs : List Char) :
    (cs ++ rest).takeWhile Char.isDigit = cs.takeWhile Char.isDigit ∧
      (cs ++ rest).dropWhile Char.isDigit = cs.dropWhile Char.isDigit ++ rest := by
  induction cs with
  | nil =>
      cases rest with
      | nil => exact ⟨rfl, rfl⟩
      | cons c rest => simp [(h c rest rfl).1]
  | cons c cs ih => by_cases hc : c.isDigit <;> simp [hc, ih]

theorem gather_append (h : Parts rest) (cs : List Char) (gathered count : Nat) :
    gather gathered count (cs ++ rest) =
      ((gather gathered count cs).1, (gather gathered count cs).2.1,
        (gather gathered count cs).2.2 ++ rest) := by
  induction cs generalizing gathered count with
  | nil =>
      cases rest with
      | nil => rfl
      | cons c rest => simp [gather, (h c rest rfl).1]
  | cons c cs ih =>
      rw [List.cons_append]
      unfold gather
      split
      · exact ih _ _
      · rfl

/-- What stands behind the sign of an exponent. -/
def readPower? (negative : Bool) (gathered : Nat) (exponent : Int) (down : Bool) (cs : List Char) :
    Option (Number × List Char) :=
  if (cs.takeWhile Char.isDigit).isEmpty then none
  else match exponentOf? (cs.takeWhile Char.isDigit) with
    | some k => (ofParts? negative gathered (if down then exponent - k else exponent + k)).map
        (·, cs.dropWhile Char.isDigit)
    | none => if gathered ≠ 0 ∧ !down then none
        else some (ofDouble negative 0, cs.dropWhile Char.isDigit)

/-- An exponent is its sign, if it has one, and what stands behind it. -/
theorem readExponent?_unsigned {c : Char} (hplus : c ≠ '+') (hminus : c ≠ '-') (gathered : Nat)
    (exponent : Int) (cs : List Char) :
    readExponent? negative gathered exponent (c :: cs) =
      readPower? negative gathered exponent false (c :: cs) := by
  unfold readExponent?
  split
  rename_i heq
  split at heq
  · rename_i hhead
    cases hhead
    exact absurd rfl hplus
  · rename_i hhead
    cases hhead
    exact absurd rfl hminus
  · cases heq
    rfl

theorem readPower?_append (h : Parts rest) {gathered : Nat} {exponent : Int} {down : Bool}
    {cs : List Char} (hread : readPower? negative gathered exponent down cs = some (n, [])) :
    readPower? negative gathered exponent down (cs ++ rest) = some (n, rest) := by
  obtain ⟨htake, hdrop⟩ := digits_append h cs
  unfold readPower? at hread ⊢
  rw [htake, hdrop]
  split at hread
  · cases hread
  · rename_i hsome
    rw [if_neg hsome]
    split at hread
    · obtain ⟨found, hfound, heq⟩ := Option.map_eq_some_iff.mp hread
      obtain ⟨rfl, hnone⟩ := Prod.mk.inj heq
      rw [hnone, hfound]
      rfl
    · split at hread
      · cases hread
      · rename_i hsmall
        obtain ⟨rfl, hnone⟩ := Prod.mk.inj (Option.some.inj hread)
        rw [if_neg hsmall, hnone]
        rfl

theorem readExponent?_append (h : Parts rest) {gathered : Nat} {exponent : Int} {cs : List Char}
    (hread : readExponent? negative gathered exponent cs = some (n, [])) :
    readExponent? negative gathered exponent (cs ++ rest) = some (n, rest) := by
  cases cs with
  | nil => cases hread
  | cons c cs =>
      by_cases hplus : c = '+'
      · subst hplus
        have hpower : readPower? negative gathered exponent false cs = some (n, []) := hread
        exact readPower?_append h hpower
      · by_cases hminus : c = '-'
        · subst hminus
          have hpower : readPower? negative gathered exponent true cs = some (n, []) := hread
          exact readPower?_append h hpower
        · rw [readExponent?_unsigned hplus hminus] at hread
          rw [List.cons_append, readExponent?_unsigned hplus hminus]
          exact readPower?_append h hread

theorem finishDouble?_append (h : Parts rest) {gathered : Nat} {exponent : Int} {cs : List Char}
    (hread : finishDouble? negative gathered exponent cs = some (n, [])) :
    finishDouble? negative gathered exponent (cs ++ rest) = some (n, rest) := by
  unfold finishDouble? at hread
  split at hread
  · exact readExponent?_append h hread
  · exact readExponent?_append h hread
  · -- The text of the number is at its end, and no exponent follows it.
    obtain ⟨found, hfound, heq⟩ := Option.map_eq_some_iff.mp hread
    obtain ⟨rfl, rfl⟩ := Prod.mk.inj heq
    have hdefault : finishDouble? negative gathered exponent rest =
        (ofParts? negative gathered exponent).map (·, rest) := by
      unfold finishDouble?
      split
      · exact absurd rfl (h 'e' _ rfl).2.2.1
      · exact absurd rfl (h 'E' _ rfl).2.2.2
      · rfl
    rw [List.nil_append, hdefault, hfound]
    rfl

theorem readFraction?_append (h : Parts rest) {gathered : Nat} {exponent : Int} {cs : List Char}
    (hread : readFraction? negative gathered exponent cs = some (n, [])) :
    readFraction? negative gathered exponent (cs ++ rest) = some (n, rest) := by
  unfold readFraction? at hread ⊢
  rw [gather_append h]
  generalize gather gathered 0 cs = taken at hread ⊢
  obtain ⟨all, count, left⟩ := taken
  obtain ⟨htake, hdrop⟩ := digits_append h left
  dsimp only at hread ⊢
  rw [htake, hdrop]
  split at hread
  · cases hread
  · rename_i hdigits
    rw [if_neg hdigits]
    exact finishDouble?_append h hread

theorem readRest?_append (h : Parts rest) {gathered : Nat} {cs : List Char}
    (hread : readRest? negative gathered cs = some (n, [])) :
    readRest? negative gathered (cs ++ rest) = some (n, rest) := by
  unfold readRest? at hread
  split at hread
  · exact readFraction?_append h hread
  · exact readExponent?_append h hread
  · exact readExponent?_append h hread
  · obtain ⟨rfl, rfl⟩ := Prod.mk.inj (Option.some.inj hread)
    exact readRest?_of_parts h negative gathered

/-- What stands behind the whole digits that were gathered; `extra` counts those that no longer
fit. -/
def readBehind? (negative : Bool) (gathered extra : Nat) : List Char → Option (Number × List Char)
  | '.' :: rest => readFraction? negative gathered extra rest
  | rest => finishDouble? negative gathered extra rest

theorem readBehind?_append (h : Parts rest) {gathered extra : Nat} {cs : List Char}
    (hread : readBehind? negative gathered extra cs = some (n, [])) :
    readBehind? negative gathered extra (cs ++ rest) = some (n, rest) := by
  have hdefault : ∀ cs : List Char, (∀ left, cs ≠ '.' :: left) →
      readBehind? negative gathered extra cs = finishDouble? negative gathered extra cs := by
    intro cs hpoint
    unfold readBehind?
    split
    · exact absurd rfl (hpoint _)
    · rfl
  by_cases hpoint : ∃ left, cs = '.' :: left
  · obtain ⟨left, rfl⟩ := hpoint
    exact readFraction?_append h hread
  · have hcs : ∀ left, cs ≠ '.' :: left := fun left heq => hpoint ⟨left, heq⟩
    rw [hdefault cs hcs] at hread
    rw [hdefault]
    · exact finishDouble?_append h hread
    · intro left heq
      cases cs with
      | nil => exact (h '.' left heq).2.1 rfl
      | cons c cs =>
          rw [List.cons_append, List.cons.injEq] at heq
          exact hcs cs (by rw [heq.1])

/-- A number that does not begin with a zero: its digits are gathered, and then comes the rest. -/
theorem readMagnitude?_cons {c : Char} (hzero : c ≠ '0') (cs : List Char) :
    readMagnitude? negative (c :: cs) =
      if c.isDigit then
        let (gathered, _, left) := gather 0 0 (c :: cs)
        if (left.takeWhile Char.isDigit).isEmpty then readRest? negative gathered left
        else readBehind? negative gathered (left.takeWhile Char.isDigit).length
          (left.dropWhile Char.isDigit)
      else none := by
  rw [readMagnitude?]
  · rfl
  · exact hzero

theorem readMagnitude?_append (h : Parts rest) {cs : List Char}
    (hread : readMagnitude? negative cs = some (n, [])) :
    readMagnitude? negative (cs ++ rest) = some (n, rest) := by
  cases cs with
  | nil => cases hread
  | cons c cs =>
      by_cases hzero : c = '0'
      · subst hzero
        cases cs with
        | nil =>
            have hend : readRest? negative 0 ([] ++ rest) = some (n, rest) :=
              readRest?_append h hread
            -- A lone zero ends where the rest begins, which is with no digit.
            cases rest with
            | nil => exact hend
            | cons d rest => simpa [readMagnitude?, (h d rest rfl).1] using hend
        | cons d cs =>
            by_cases hd : d.isDigit
            · simp [readMagnitude?, hd] at hread
            · simp only [readMagnitude?, hd, List.cons_append] at hread ⊢
              exact readRest?_append h hread
      · rw [readMagnitude?_cons hzero] at hread
        rw [List.cons_append, readMagnitude?_cons hzero, ← List.cons_append, gather_append h]
        split at hread
        · rename_i hc
          rw [if_pos hc]
          generalize gather 0 0 (c :: cs) = taken at hread ⊢
          obtain ⟨gathered, count, left⟩ := taken
          obtain ⟨htake, hdrop⟩ := digits_append h left
          dsimp only at hread ⊢
          rw [htake, hdrop]
          split at hread
          · rename_i hempty
            rw [if_pos hempty]
            exact readRest?_append h hread
          · rename_i hextra
            rw [if_neg hextra]
            exact readBehind?_append h hread
        · cases hread

/-- Without a minus sign in front, a number is its magnitude. -/
theorem read?_unsigned {c : Char} (hminus : c ≠ '-') (cs : List Char) :
    read? (c :: cs) = readMagnitude? false (c :: cs) := by
  unfold read?
  split
  · rename_i heq
    cases heq
    exact absurd rfl hminus
  · rfl

/-- **A number whose text reads back alone** does so in front of any text that parts numbers. -/
theorem read?_of_readsBack (hn : n.ReadsBack) (h : Parts rest) :
    read? (n.text ++ rest) = some (n, rest) := by
  unfold ReadsBack at hn
  generalize n.text = cs at hn ⊢
  cases cs with
  | nil => cases hn
  | cons c cs =>
      by_cases hminus : c = '-'
      · subst hminus
        have hmagnitude : readMagnitude? true cs = some (n, []) := hn
        exact readMagnitude?_append h hmagnitude
      · rw [read?_unsigned hminus] at hn
        rw [List.cons_append, read?_unsigned hminus]
        exact readMagnitude?_append h hn

/-- The text of a number that reads back begins with a digit or a minus sign. -/
theorem head_of_readsBack (hn : n.ReadsBack) :
    ∃ c rest, n.text = c :: rest ∧ (c.isDigit ∨ c = '-') := by
  unfold ReadsBack at hn
  generalize n.text = cs at hn ⊢
  cases cs with
  | nil => cases hn
  | cons c cs =>
      refine ⟨c, cs, rfl, ?_⟩
      by_cases hminus : c = '-'
      · exact .inr hminus
      · rw [read?_unsigned hminus] at hn
        by_cases hzero : c = '0'
        · exact .inl (by rw [hzero]; decide)
        · rw [readMagnitude?_cons hzero] at hn
          split at hn
          · exact .inl ‹_›
          · cases hn

end Number

end LanguageClient
