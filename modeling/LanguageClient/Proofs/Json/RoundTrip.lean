import LanguageClient.Json.Parser
import LanguageClient.Proofs.Json.Lexing
import Mathlib.Order.Basic
import Mathlib.Data.String.Basic

/-!
# A printed value reads back

The tokens of a value lead the stack machine from the place where a value is due to the place where
that value has been given to the container around it.  Names in increasing order stay in their
places, so the object that is built is the one that was written.

* `Json.ofMembers_of_increasing` — an object with its names in order is built as it stands.
* `Json.run_tokens` — what the tokens of a value do to the machine, inside any containers.
* **`Json.parse?_compact`** — a value whose numbers read back, with its names in order and not nested
  too deep, is read from its printed text.
-/

namespace LanguageClient
namespace Json

/-! ### Objects -/

theorem insertMember_of_greatest {name : String} (value : Json) {members : List (String × Json)}
    (h : ∀ member ∈ members, member.1 < name) :
    insertMember name value members = members ++ [(name, value)] := by
  induction members with
  | nil => rfl
  | cons member rest ih =>
      rw [List.forall_mem_cons] at h
      obtain ⟨other, kept⟩ := member
      rw [insertMember, if_neg (lt_asymm h.1), if_neg (ne_of_gt h.1), ih h.2]
      rfl

/-- Members that come in order are put one behind the other. -/
theorem foldl_insertMember {members sorted : List (String × Json)}
    (h : IncreasingNames (sorted ++ members)) :
    members.foldl (fun sorted member => insertMember member.1 member.2 sorted) sorted =
      sorted ++ members := by
  induction members generalizing sorted with
  | nil => simp
  | cons member rest ih =>
      have hbefore : ∀ other ∈ sorted, other.1 < member.1 := by
        intro other hother
        unfold IncreasingNames at h
        rw [List.map_append, List.map_cons, List.pairwise_append] at h
        exact h.2.2 other.1 (List.mem_map_of_mem hother) member.1 (by simp)
      rw [List.foldl_cons, insertMember_of_greatest member.2 hbefore, ih (by simpa using h)]
      simp

theorem ofMembers_of_increasing {members : List (String × Json)} (h : IncreasingNames members) :
    ofMembers members = .obj members := by
  have hfold := @foldl_insertMember members [] (by simpa using h)
  rw [ofMembers, sortMembers, hfold, List.nil_append]

/-! ### The stack machine -/

/-- The machine takes some tokens. -/
def run? (limit : Nat) (state : State) (tokens : List Token) : Option State :=
  tokens.foldlM (State.step? limit) state

theorem run?_cons {limit : Nat} {state next : State} {t : Token}
    (h : state.step? limit t = some next) (tokens : List Token) :
    run? limit state (t :: tokens) = run? limit next tokens := by
  simp [run?, h]

/-- No value begins with a closing bracket. -/
theorem exists_head_tokens (value : Json) :
    ∃ (t : Token) (rest : List Token), value.tokens = t :: rest ∧ t ≠ .closeArray := by
  cases value with
  | arr items => cases items <;> exact ⟨_, _, rfl, by simp⟩
  | obj members => cases members <;> exact ⟨_, _, rfl, by simp⟩
  | _ => exact ⟨_, _, rfl, by simp⟩

/-- The first item of an array is read like any value inside it. -/
theorem run?_firstItem (limit : Nat) (item : Json) (stack : List Frame) (tokens : List Token) :
    run? limit (.firstItem stack) (item.tokens ++ tokens) =
      run? limit (.value (.items [] :: stack)) (item.tokens ++ tokens) := by
  obtain ⟨t, rest, htokens, hclose⟩ := exists_head_tokens item
  have hstep : State.step? limit (.firstItem stack) t =
      State.step? limit (.value (.items [] :: stack)) t := by
    cases t with
    | closeArray => exact absurd rfl hclose
    | _ => rfl
  rw [htokens, List.cons_append]
  simp only [run?, List.foldlM_cons, hstep]

theorem step?_openArray {limit : Nat} {stack : List Frame} (h : stack.length < limit) :
    State.step? limit (.value stack) .openArray = some (.firstItem stack) := if_pos h

theorem step?_openObject {limit : Nat} {stack : List Frame} (h : stack.length < limit) :
    State.step? limit (.value stack) .openObject = some (.firstName [] stack) := if_pos h

mutual

/-- **The tokens of a value give it to the container around it**, however many containers are
open, as long as the limit allows for its own. -/
theorem run_tokens : ∀ (value : Json) (limit : Nat) (stack : List Frame), value.Sorted →
    stack.length + value.depth ≤ limit → ∀ tokens : List Token,
      run? limit (.value stack) (value.tokens ++ tokens) =
        run? limit (State.give value stack) tokens
  | .null, _, _, _, _, tokens => run?_cons rfl tokens
  | .bool _, _, _, _, _, tokens => run?_cons rfl tokens
  | .num _, _, _, _, _, tokens => run?_cons rfl tokens
  | .str _, _, _, _, _, tokens => run?_cons rfl tokens
  | .arr [], limit, stack, _, hdepth, tokens => by
      have hopen : stack.length < limit := by
        rw [depth] at hdepth
        omega
      rw [Json.tokens, List.cons_append, run?_cons (step?_openArray hopen)]
      exact run?_cons rfl tokens
  | .arr (item :: rest), limit, stack, hsorted, hdepth, tokens => by
      rw [depth, depthItems] at hdepth
      have hopen : stack.length < limit := by omega
      -- The first item is read behind the bracket, every other one behind a comma.
      have hitem := run_tokens item limit (.items [] :: stack) hsorted.1
        (by rw [List.length_cons]; omega) (itemTokens rest ++ tokens)
      have hrest := run_itemTokens rest limit stack [item] hsorted.2 (by omega) tokens
      rw [Json.tokens, List.cons_append, run?_cons (step?_openArray hopen), List.append_assoc,
        run?_firstItem, hitem]
      exact hrest
  | .obj [], limit, stack, _, hdepth, tokens => by
      have hopen : stack.length < limit := by
        rw [depth] at hdepth
        omega
      rw [Json.tokens, List.cons_append, run?_cons (step?_openObject hopen)]
      exact run?_cons rfl tokens
  | .obj (member :: rest), limit, stack, hsorted, hdepth, tokens => by
      obtain ⟨hnames, hmembers⟩ := hsorted
      rw [depth, depthMembers] at hdepth
      have hopen : stack.length < limit := by omega
      have hvalue := run_tokens member.2 limit (.member member.1 [] :: stack) hmembers.1
        (by rw [List.length_cons]; omega) (memberTokens rest ++ tokens)
      have hrest := run_memberTokens rest limit stack [member] hmembers.2 (by omega) tokens
      rw [Json.tokens, List.cons_append, run?_cons (step?_openObject hopen), List.cons_append,
        run?_cons rfl,
        List.cons_append, run?_cons rfl, List.append_assoc, hvalue]
      -- The members were put in order one by one; they already were.
      have hbuilt : ofMembers ([member].reverse ++ rest) = .obj (member :: rest) :=
        ofMembers_of_increasing hnames
      rw [hbuilt] at hrest
      exact hrest

theorem run_itemTokens : ∀ (items : List Json) (limit : Nat) (stack : List Frame)
    (read : List Json), SortedItems items → stack.length + (depthItems items + 1) ≤ limit →
      ∀ tokens : List Token, run? limit (.next (.items read) stack) (itemTokens items ++ tokens) =
        run? limit (State.give (.arr (read.reverse ++ items)) stack) tokens
  | [], limit, stack, read, _, _, tokens => by
      rw [List.append_nil]
      exact run?_cons rfl tokens
  | item :: rest, limit, stack, read, hsorted, hdepth, tokens => by
      rw [depthItems] at hdepth
      have hitem := run_tokens item limit (.items read :: stack) hsorted.1
        (by rw [List.length_cons]; omega) (itemTokens rest ++ tokens)
      have hrest := run_itemTokens rest limit stack (item :: read) hsorted.2 (by omega) tokens
      rw [itemTokens, List.cons_append, run?_cons rfl, List.append_assoc, hitem]
      rw [List.reverse_cons, List.append_assoc, List.singleton_append] at hrest
      exact hrest

theorem run_memberTokens : ∀ (members : List (String × Json)) (limit : Nat)
    (stack : List Frame) (read : List (String × Json)), SortedMembers members →
      stack.length + (depthMembers members + 1) ≤ limit →
      ∀ tokens : List Token,
        run? limit (.next (.members read) stack) (memberTokens members ++ tokens) =
          run? limit (State.give (ofMembers (read.reverse ++ members)) stack) tokens
  | [], limit, stack, read, _, _, tokens => by
      rw [List.append_nil]
      exact run?_cons rfl tokens
  | member :: rest, limit, stack, read, hsorted, hdepth, tokens => by
      rw [depthMembers] at hdepth
      have hvalue := run_tokens member.2 limit (.member member.1 read :: stack) hsorted.1
        (by rw [List.length_cons]; omega) (memberTokens rest ++ tokens)
      have hrest := run_memberTokens rest limit stack (member :: read) hsorted.2 (by omega) tokens
      rw [memberTokens, List.cons_append, run?_cons rfl, List.cons_append, run?_cons rfl,
        List.cons_append, run?_cons rfl, List.append_assoc, hvalue]
      rw [List.reverse_cons, List.append_assoc, List.singleton_append] at hrest
      exact hrest

end

theorem ofTokens?_tokens {value : Json} {limit : Nat} (hsorted : value.Sorted)
    (hdepth : value.depth ≤ limit) : ofTokens? limit value.tokens = some value := by
  have hrun := run_tokens value limit [] hsorted (by simpa using hdepth) []
  rw [List.append_nil] at hrun
  have hfold : value.tokens.foldlM (State.step? limit) (.value []) = some (.finished value) := hrun
  rw [ofTokens?, hfold]
  rfl

/-- A printed value whose numbers read back is read as its tokens are. -/
theorem parse?_tokens {value : Json} (hnumbers : AreReadBack value.numbers) :
    parse? value.compact = ofTokens? depthLimit value.tokens := by
  have hreads := reads_tokens value hnumbers Number.parts_nil Token.reads_nil
  rw [List.append_nil, List.append_nil] at hreads
  rw [parse?, parseWithin?, compact, String.toList_ofList, Token.ofText?_of_reads hreads]
  rfl

/-- **A printed value reads back**, when each of its numbers does, the names of its objects increase,
and it is not nested deeper than a message may be. -/
theorem parse?_compact {value : Json} (hsorted : value.Sorted)
    (hnumbers : AreReadBack value.numbers) (hdepth : value.depth ≤ depthLimit) :
    parse? value.compact = some value := by
  rw [parse?_tokens hnumbers]
  exact ofTokens?_tokens hsorted hdepth

end Json
end LanguageClient
