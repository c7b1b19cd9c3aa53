import LanguageClient.Proofs.Connection.Mail
import LanguageClient.Proofs.Frame.RoundTrip

/-!
# The members of a written message

A message is written as an object that has the members of the message and its mark, each once and
nothing else.  It is read back as it was written when what its caller put into it is.

* `Json.get?_ofMembers` — an object built of members has exactly these.
* `Json.HasExactly` — the members of a value, and no others.
* `Outgoing.members`, **`Outgoing.hasExactly_marked`** — what a written message holds.
* `Outgoing.IsLegible`, **`Outgoing.legible_call`**, **`Outgoing.legible_answerFor`** — which messages
  are read back.
-/

namespace LanguageClient

/-! ### Objects built of members -/

namespace Json

variable {members : List (String × Json)}

theorem lookup_eq_none {name : String} (h : name ∉ members.map Prod.fst) :
    lookup name members = none := by
  induction members with
  | nil => rfl
  | cons member rest ih =>
      rw [List.map_cons, List.mem_cons, not_or] at h
      rw [lookup, if_neg h.1, ih h.2]

theorem lookup_foldl (h : (members.map Prod.fst).Nodup) (name : String)
    (sorted : List (String × Json)) :
    lookup name (members.foldl (fun sorted member => insertMember member.1 member.2 sorted) sorted) =
      (lookup name members).or (lookup name sorted) := by
  induction members generalizing sorted with
  | nil => rfl
  | cons member rest ih =>
      rw [List.map_cons, List.nodup_cons] at h
      rw [List.foldl_cons, ih h.2, lookup_insertMember, lookup]
      by_cases hname : name = member.1
      · -- No later member has the name of this one.
        have hnone : lookup name rest = none := lookup_eq_none (hname ▸ h.1)
        rw [hnone, if_pos hname, if_pos hname]
        rfl
      · rw [if_neg hname, if_neg hname]

/-- An object built of members of different names has exactly these. -/
theorem get?_ofMembers (h : (members.map Prod.fst).Nodup) (name : String) :
    (ofMembers members).get? name = lookup name members := by
  have hfold := lookup_foldl h name []
  rwa [lookup, Option.or_none] at hfold

theorem increasingNames_foldl {sorted : List (String × Json)} (h : IncreasingNames sorted) :
    IncreasingNames
      (members.foldl (fun sorted member => insertMember member.1 member.2 sorted) sorted) := by
  induction members generalizing sorted with
  | nil => exact h
  | cons member rest ih => exact ih (increasingNames_insertMember h)

theorem mem_of_mem_foldl {member : String × Json} {sorted : List (String × Json)}
    (h : member ∈ members.foldl (fun sorted member => insertMember member.1 member.2 sorted) sorted) :
    member ∈ members ∨ member ∈ sorted := by
  induction members generalizing sorted with
  | nil => exact .inr h
  | cons first rest ih =>
      rcases ih h with hrest | hinserted
      · exact .inl (List.mem_cons_of_mem _ hrest)
      · rcases mem_of_mem_insertMember hinserted with rfl | hsorted
        · exact .inl List.mem_cons_self
        · exact .inr hsorted

/-- The value is an object with exactly these members. -/
def HasExactly (value : Json) (members : List (String × Json)) : Prop :=
  ∀ name, value.get? name = lookup name members

end Json

/-! ### Legible objects -/

namespace Frame

theorem legible_ofMembers {limit : Nat} {members : List (String × Json)}
    (h : ∀ member ∈ members, IsLegible limit member.2) :
    IsLegible (limit + 1) (.ofMembers members) := by
  have hsorted : ∀ member ∈ Json.sortMembers members, IsLegible limit member.2 := by
    intro member hmember
    rcases Json.mem_of_mem_foldl hmember with hmember | hnone
    · exact h member hmember
    · cases hnone
  refine ⟨⟨Json.increasingNames_foldl List.Pairwise.nil, ?_⟩, ?_, ?_⟩
  · exact Json.sortedMembers_iff.mpr fun member hmember => (hsorted member hmember).sorted
  · exact Json.areReadBack_memberNumbers_iff.mpr
      fun member hmember => (hsorted member hmember).numbers
  · exact Nat.succ_le_succ
      (Json.depthMembers_le_iff.mpr fun member hmember => (hsorted member hmember).depth)

/-- What is legible inside many brackets is so inside few. -/
theorem IsLegible.weaken {limit other : Nat} {value : Json} (h : IsLegible limit value)
    (hle : limit ≤ other) : IsLegible other value :=
  ⟨h.sorted, h.numbers, Nat.le_trans h.depth hle⟩

theorem legible_str (limit : Nat) (text : String) : IsLegible limit (.str text) :=
  ⟨trivial, by simp [Json.AreReadBack, Json.numbers], Nat.zero_le _⟩

theorem legible_null (limit : Nat) : IsLegible limit .null :=
  ⟨trivial, by simp [Json.AreReadBack, Json.numbers], Nat.zero_le _⟩

theorem legible_ofInt (limit : Nat) {n : Int} (h : Number.FitsWord n) :
    IsLegible limit (.ofInt n) := by
  refine ⟨trivial, ?_, Nat.zero_le _⟩
  intro m hm
  rw [Json.ofInt, Json.numbers, List.mem_singleton] at hm
  rw [hm]
  exact Number.readsBack_int h

theorem legible_nulls (limit items : Nat) :
    IsLegible (limit + 1) (.arr (List.replicate items .null)) := by
  induction items with
  | zero =>
      refine ⟨trivial, ?_, ?_⟩
      · simp [Json.AreReadBack, Json.numbers, Json.itemNumbers]
      · simp [Json.depth, Json.depthItems]
  | succ items ih =>
      obtain ⟨hsorted, hnumbers, hdepth⟩ := ih
      rw [List.replicate_succ]
      refine ⟨⟨trivial, hsorted⟩, ?_, ?_⟩
      · simpa [Json.numbers, Json.itemNumbers] using hnumbers
      · simpa [Json.depth, Json.depthItems] using hdepth

end Frame

/-! ### Messages -/

namespace Outgoing

/-- The members of a message in their own order. -/
def members : Outgoing → List (String × Json)
  | notification message => message.members
  | request id method params => Request.members ⟨.number id, method, params⟩
  | answer response => response.membersWith ResponseError.toJson

theorem toJson_eq (message : Outgoing) : message.toJson = .ofMembers message.members := by
  cases message <;> rfl

theorem names_members (message : Outgoing) :
    (message.members.map Prod.fst).Nodup ∧ "jsonrpc" ∉ message.members.map Prod.fst := by
  cases message with
  | notification message =>
      simp only [members, Notification.members, paramsMember]
      split <;> simp
  | request id method params =>
      simp only [members, Request.members, paramsMember]
      split <;> simp
  | answer response =>
      obtain ⟨id, result, error⟩ := response
      cases result <;> cases error <;> simp [members, Response.membersWith]

/-- **A written message has exactly its members and its mark.** -/
theorem hasExactly_marked (message : Outgoing) :
    (Frame.marked message.toJson).HasExactly (("jsonrpc", .str "2.0") :: message.members) := by
  intro name
  have hlookup := Json.get?_ofMembers message.names_members.1 name
  rw [toJson_eq]
  change Json.lookup name (Json.insertMember "jsonrpc" (.str "2.0") _) = _
  rw [Json.lookup_insertMember, Json.lookup]
  split
  · rfl
  · exact hlookup

/-- What a caller has put into a message is legible inside a message, and its number fits a word. -/
def IsLegible : Outgoing → Prop
  | notification message => Frame.IsLegible (Json.depthLimit - 1) message.params
  | request id _ params => Number.FitsWord id ∧ Frame.IsLegible (Json.depthLimit - 1) params
  | answer _ => True

/-- A message is as legible as its members. -/
theorem legible_toJson {message : Outgoing}
    (h : ∀ member ∈ message.members, Frame.IsLegible (Json.depthLimit - 1) member.2) :
    Frame.IsLegible Json.depthLimit message.toJson := by
  rw [toJson_eq]
  exact Frame.legible_ofMembers h

theorem legible_paramsMember {limit : Nat} {params : Json} (h : Frame.IsLegible limit params) :
    ∀ member ∈ paramsMember params, Frame.IsLegible limit member.2 := by
  intro member hmember
  unfold paramsMember at hmember
  split at hmember
  · cases hmember
  · rw [List.mem_singleton.mp hmember]
    exact h

/-- A legible call is legible as it is written. -/
theorem legible_call {message : Outgoing} (hcall : message.isCall) (h : message.IsLegible) :
    Frame.IsLegible Json.depthLimit message.toJson := by
  refine legible_toJson fun member hmember => ?_
  cases message with
  | notification message =>
      rcases List.mem_cons.mp hmember with rfl | hparams
      · exact Frame.legible_str _ _
      · exact legible_paramsMember h member hparams
  | request id method params =>
      rcases List.mem_append.mp hmember with hown | hparams
      · rcases List.mem_pair.mp hown with rfl | rfl
        · exact Frame.legible_ofInt _ h.1
        · exact Frame.legible_str _ _
      · exact legible_paramsMember h.2 member hparams
  | answer response => cases hcall

theorem legible_methodNotFound (method : String) :
    Frame.IsLegible 1 (ResponseError.methodNotFound method).toJson := by
  have hcode : Number.FitsWord ResponseError.methodNotFoundCode := ⟨by decide, by decide⟩
  refine Frame.legible_ofMembers fun member hmember => ?_
  rcases List.mem_pair.mp hmember with rfl | rfl
  · exact Frame.legible_ofInt _ hcode
  · exact Frame.legible_str _ _

/-- The answer to a request is legible, whatever the request asks for. -/
theorem legible_answerFor {request : Request}
    (hid : ∀ n, request.id = .number n → Number.FitsWord n) :
    Frame.IsLegible Json.depthLimit (answer (answerFor request)).toJson := by
  have hnumber : Frame.IsLegible (Json.depthLimit - 1) request.id.toJson := by
    cases heq : request.id with
    | number n => exact Frame.legible_ofInt _ (hid n heq)
    | text s => exact Frame.legible_str _ _
  refine legible_toJson fun member hmember => ?_
  unfold answerFor at hmember
  split at hmember
  · rcases List.mem_pair.mp hmember with rfl | rfl
    · exact hnumber
    · exact Frame.legible_nulls (Json.depthLimit - 2) _
  · split at hmember
    · rcases List.mem_pair.mp hmember with rfl | rfl
      · exact hnumber
      · exact Frame.legible_null _
    · rcases List.mem_pair.mp hmember with rfl | rfl
      · exact hnumber
      · exact (legible_methodNotFound request.method).weaken (by decide)

end Outgoing
end LanguageClient
