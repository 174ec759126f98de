import Comfort.Json.Decode
import Comfort.Proofs.Json.Written

/-!
Parts of values are decoded from what they are written as.

A list comes back if each of its items does, and an absent value comes back as an absent one.
-/

namespace Comfort
namespace Json

/-- What is read only under a condition, and then used. -/
theorem bind_ite {α β : Type} (p : Prop) [Decidable p] (a : α) (f : α → Option β) :
    (if p then some a else none) >>= f = if p then f a else none := by
  split <;> rfl

theorem nat?_nat (n : Nat) : nat? (nat n) = if n < natLimit then some n else none :=
  rfl

/-- Decoding a list of what was written gives the list back where every item of it comes back. -/
theorem mapM_map {α : Type} {encode : α → Json} {decode : Json → Option α} {p : α → Prop}
    [DecidablePred p] {items : List α}
    (h : ∀ a ∈ items, decode (encode a) = if p a then some a else none) :
    (items.map encode).mapM decode = if ∀ a ∈ items, p a then some items else none := by
  induction items with
  | nil => rfl
  | cons a rest ih =>
    rw [List.map_cons, List.mapM_cons, h a List.mem_cons_self,
      ih fun b hb => h b (List.mem_cons_of_mem _ hb)]
    by_cases ha : p a
    · by_cases hrest : ∀ b ∈ rest, p b
      · rw [if_pos ha, if_pos hrest, if_pos (List.forall_mem_cons.2 ⟨ha, hrest⟩)]
        rfl
      · rw [if_pos ha, if_neg hrest, if_neg fun h => hrest (List.forall_mem_cons.1 h).2]
        rfl
    · have hall : ¬ ∀ b ∈ a :: rest, p b := fun hall => ha (hall a List.mem_cons_self)
      rw [if_neg ha, if_neg hall]
      rfl

theorem mapM_map_some {α : Type} {encode : α → Json} {decode : Json → Option α} {items : List α}
    (h : ∀ a ∈ items, decode (encode a) = some a) :
    (items.map encode).mapM decode = some items := by
  have hall := mapM_map (p := fun _ => True) fun a ha => (h a ha).trans (if_pos trivial).symm
  rw [hall, if_pos fun _ _ => trivial]

theorem strings?_strings (ss : List String) : strings? (.strings ss) = some ss :=
  mapM_map_some fun _ _ => rfl

theorem optional?_ofOption {α : Type} (text : α → String) (o : Option α) :
    optional? string? (some (.ofOption (fun a => .str (text a)) o)) = some (o.map text) := by
  cases o <;> rfl

/-! ## Numbers that are read back -/

theorem wholeNumbers_nat {n : Nat} (h : n < natLimit) : (nat n).WholeNumbers := by
  have hlimit : natLimit = wholeLimit := rfl
  constructor
  · omega
  · exact Int.ofNat_lt.2 (hlimit ▸ h)

theorem wholeNumbers_ofOption (o : Option String) : (ofOption str o).WholeNumbers := by
  cases o <;> trivial

theorem wholeNumbers_map {α : Type} {encode : α → Json} {items : List α}
    (h : ∀ a ∈ items, (encode a).WholeNumbers) : (arr (items.map encode)).WholeNumbers := by
  refine wholeNumbersItems_iff.2 fun j hj => ?_
  obtain ⟨a, ha, rfl⟩ := List.mem_map.1 hj
  exact h a ha

theorem wholeNumbers_strings (ss : List String) : (strings ss).WholeNumbers :=
  wholeNumbers_map fun _ _ => trivial

end Json
end Comfort
