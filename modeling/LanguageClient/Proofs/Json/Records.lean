import LanguageClient.Json.Record
import Mathlib.Data.Option.Basic

/-!
# What a value gives for a field

A record is read off a value field by field, and what a value gives for one field does not depend on
the others: an object gives the member of its name, an array the item at its place.  So a record is
read when the value is an object, or an array that has no more items than the record has fields, and
every field is read from what is given for it.

* `Json.field?`, `Json.MayWrite` — what a value gives for a field, and which values give anything.
* **`Json.fields?_eq_some_iff`** — what a value gives for all fields of a record.
* `Json.optional?_eq_some_none_iff`, `Json.optional?_eq_some_some_iff` — a field that may be null.
* `Json.TellsText`, `Json.optional?_asString?_iff` — a text that may be missing or null.
* **`Json.readThree_iff`** — a record is read field by field.
-/

namespace LanguageClient
namespace Json

variable {value : Json} {fields : List Field} {values : List (Option Json)}

/-! ### One field -/

/-- What a value gives for the field of a name and a place: an object its member of that name, an
array its item at that place, and any other value nothing. -/
def field? (name : String) (place : Nat) : Json → Option Json
  | obj members => lookup name members
  | arr items => items[place]?
  | _ => none

/-- The value may write a record of so many fields: it is an object, or an array of at most so many
items. -/
def MayWrite (size : Nat) : Json → Prop
  | obj _ => True
  | arr items => items.length ≤ size
  | _ => False

/-! ### All fields -/

/-- What a value gives for the fields of a record whose first one is at a place. -/
def giveFrom (value : Json) (place : Nat) (fields : List Field) : List (Option Json) :=
  (fields.zipIdx place).map fun entry => value.field? entry.1.name entry.2

/-- The value gives something for every field that has to be there. -/
def GivesRequired (value : Json) (place : Nat) (fields : List Field) : Prop :=
  ∀ entry ∈ fields.zipIdx place, entry.1.presence = .required →
    (value.field? entry.1.name entry.2).isSome

theorem givesRequired_nil (value : Json) (place : Nat) : value.GivesRequired place [] := by
  simp [GivesRequired]

theorem givesRequired_cons {field : Field} {place : Nat} :
    value.GivesRequired place (field :: fields) ↔
      (field.presence = .required → (value.field? field.name place).isSome) ∧
        value.GivesRequired (place + 1) fields := by
  simp [GivesRequired, List.zipIdx_cons]

theorem named?_eq_some_iff (members : List (String × Json)) (place : Nat) :
    named? members fields = some values ↔
      (obj members).GivesRequired place fields ∧ values = (obj members).giveFrom place fields := by
  induction fields generalizing place values with
  | nil => simp [named?, givesRequired_nil, giveFrom, eq_comm]
  | cons field fields ih =>
      have hgives : (obj members).giveFrom place (field :: fields) =
          lookup field.name members :: (obj members).giveFrom (place + 1) fields := rfl
      rw [named?, givesRequired_cons, hgives, field?]
      cases lookup field.name members with
      | some found =>
          simp only [Option.map_eq_some_iff, ih (place + 1)]
          grind
      | none =>
          by_cases hrequired : field.presence = .required
          · simp [hrequired]
          · simp only [hrequired, if_false, Option.map_eq_some_iff, ih (place + 1)]
            grind

theorem positional?_eq_some_iff (hplain : ∀ field ∈ fields, field.presence ≠ .optional)
    (items : List Json) (place : Nat) :
    positional? fields (items.drop place) = some values ↔
      items.length ≤ place + fields.length ∧ (arr items).GivesRequired place fields ∧
        values = (arr items).giveFrom place fields := by
  -- Along the fields: each takes one item, so those that are left are the items from its place on.
  induction fields generalizing place values with
  | nil =>
      cases hrest : items.drop place with
      | nil =>
          have hle : items.length ≤ place := List.drop_eq_nil_iff.mp hrest
          simp [positional?, givesRequired_nil, giveFrom, hle, eq_comm]
      | cons item rest =>
          have hlt : ¬ items.length ≤ place := by
            rw [← List.drop_eq_nil_iff, hrest]
            exact List.cons_ne_nil _ _
          simp [positional?, hlt]
  | cons field fields ih =>
      rw [List.forall_mem_cons] at hplain
      have hgives : (arr items).giveFrom place (field :: fields) =
          items[place]? :: (arr items).giveFrom (place + 1) fields := rfl
      have hlength : place + (field :: fields).length = place + 1 + fields.length := by
        rw [List.length_cons]
        omega
      rw [givesRequired_cons, hgives, hlength, field?]
      cases hrest : items.drop place with
      | nil =>
          have hle : items.length ≤ place := List.drop_eq_nil_iff.mp hrest
          have hnone : items[place]? = none := List.getElem?_eq_none hle
          have hdrop : items.drop (place + 1) = [] := List.drop_eq_nil_iff.mpr (by omega)
          rw [positional?, hnone]
          cases hpresence : field.presence with
          | required => simp
          | optional => exact absurd hpresence hplain.1
          | defaulted =>
              rw [if_pos rfl, ← hdrop, Option.map_eq_some_iff]
              simp only [ih hplain.2 (place + 1)]
              grind
      | cons item rest =>
          have hlt : place < items.length := by
            by_contra hge
            rw [List.drop_eq_nil_iff.mpr (by omega)] at hrest
            cases hrest
          rw [List.drop_eq_getElem_cons hlt] at hrest
          obtain ⟨rfl, rfl⟩ := List.cons_eq_cons.mp hrest
          rw [positional?, List.getElem?_eq_getElem hlt, Option.map_eq_some_iff]
          simp only [ih hplain.2 (place + 1)]
          grind

/-- **What a value gives for the fields of a record**, none of which has to be in an array but may be
missing in an object: nothing unless the value may write such a record and gives every field that has
to be there, and else for each field what it gives for that one alone. -/
theorem fields?_eq_some_iff (hplain : ∀ field ∈ fields, field.presence ≠ .optional) :
    fields? fields value = some values ↔
      value.MayWrite fields.length ∧ value.GivesRequired 0 fields ∧
        values = value.giveFrom 0 fields := by
  cases value with
  | obj members => simpa [fields?, MayWrite] using named?_eq_some_iff members 0
  | arr items => simpa [fields?, MayWrite] using positional?_eq_some_iff hplain items 0
  | _ => simp [fields?, MayWrite]

/-! ### Reading -/

theorem required?_eq_bind {α : Type} (read? : Json → Option α) (value? : Option Json) :
    required? read? value? = value?.bind read? := by
  cases value? <;> rfl

section

variable {α : Type} {read? : Json → Option α} {value? : Option Json}

/-- A field that may be missing or null is missing or null. -/
theorem optional?_eq_some_none_iff :
    optional? read? value? = some none ↔ value? = none ∨ value? = some null := by
  rcases value? with _ | value
  · simp [optional?]
  · cases value <;> simp [optional?]

/-- A field that may be missing or null is there and read. -/
theorem optional?_eq_some_some_iff {x : α} :
    optional? read? value? = some (some x) ↔
      ∃ value, value? = some value ∧ value ≠ null ∧ read? value = some x := by
  rcases value? with _ | value
  · simp [optional?]
  · cases value <;> simp [optional?]

/-- A field that may be missing or null is an obstacle only when it is there and cannot be read. -/
theorem isSome_optional?_iff :
    (optional? read? value?).isSome ↔
      ∀ value, value? = some value → value = null ∨ (read? value).isSome := by
  rcases value? with _ | value
  · simp [optional?]
  · cases value <;> simp [optional?]

end

/-! ### Texts -/

/-- What is given for a text that may be missing or null. -/
inductive TellsText : Option Json → Option String → Prop
  | missing : TellsText none none
  | null : TellsText (some null) none
  | text (s : String) : TellsText (some (str s)) (some s)

theorem asString?_eq_some_iff {s : String} : value.asString? = some s ↔ value = str s := by
  cases value <;> simp [asString?]

theorem optional?_asString?_iff {given : Option Json} {text? : Option String} :
    optional? asString? given = some text? ↔ TellsText given text? := by
  constructor
  · intro h
    cases text? with
    | none =>
        rcases optional?_eq_some_none_iff.mp h with rfl | rfl
        · exact .missing
        · exact .null
    | some s =>
        obtain ⟨value, rfl, -, hs⟩ := optional?_eq_some_some_iff.mp h
        rw [asString?_eq_some_iff.mp hs]
        exact .text s
  · rintro (_ | _ | s) <;> rfl

/-! ### Records of three fields -/

section

variable {α β γ δ : Type} {first second third : Field} {a : α} {b : β} {c : γ}

/-- **A record of three fields is read field by field**: a field that has to be there is not read
where it is missing. -/
theorem readThree_iff (build : α → β → γ → δ) (readFirst? : Option Json → Option α)
    (readSecond? : Option Json → Option β) (readThird? : Option Json → Option γ)
    (hbuild : ∀ {a a' : α} {b b' : β} {c c' : γ},
      build a b c = build a' b' c' → a = a' ∧ b = b' ∧ c = c')
    (hplain : ∀ field ∈ [first, second, third], field.presence ≠ .optional)
    (hfirst : first.presence = .required → readFirst? none = none)
    (hsecond : second.presence = .required → readSecond? none = none)
    (hthird : third.presence = .required → readThird? none = none) :
    (match fields? [first, second, third] value with
      | some [a, b, c] => do
          let a ← readFirst? a
          let b ← readSecond? b
          let c ← readThird? c
          some (build a b c)
      | _ => none) = some (build a b c) ↔
      value.MayWrite 3 ∧ readFirst? (value.field? first.name 0) = some a ∧
        readSecond? (value.field? second.name 1) = some b ∧
        readThird? (value.field? third.name 2) = some c := by
  constructor
  · intro h
    split at h
    · rename_i hfields
      obtain ⟨hmay, -, hvalues⟩ := (fields?_eq_some_iff hplain).mp hfields
      cases hvalues
      simp only [bind, Option.bind_eq_some_iff, Option.some.injEq] at h
      obtain ⟨a', ha, b', hb, c', hc, hsame⟩ := h
      obtain ⟨rfl, rfl, rfl⟩ := hbuild hsame
      exact ⟨hmay, ha, hb, hc⟩
    · cases h
  · rintro ⟨hmay, ha, hb, hc⟩
    -- A field that is required and was read has to be there.
    have hpresent : ∀ {ε : Type} {read? : Option Json → Option ε} {given : Option Json} {e : ε}
        {field : Field}, (field.presence = .required → read? none = none) →
          read? given = some e → field.presence = .required → given.isSome := by
      intro ε read? given e field hnone hread hrequired
      cases given with
      | some _ => rfl
      | none =>
          rw [hnone hrequired] at hread
          cases hread
    have hrequired : value.GivesRequired 0 [first, second, third] :=
      givesRequired_cons.mpr ⟨hpresent hfirst ha, givesRequired_cons.mpr
        ⟨hpresent hsecond hb, givesRequired_cons.mpr
          ⟨hpresent hthird hc, givesRequired_nil value 3⟩⟩⟩
    rw [(fields?_eq_some_iff hplain).mpr ⟨hmay, hrequired, rfl⟩]
    simp [giveFrom, List.zipIdx_cons, ha, hb, hc]

end

end Json

end LanguageClient
