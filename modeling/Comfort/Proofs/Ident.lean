import Comfort.Ident.Derive
import Comfort.Proofs.Line.Annotate

/-!
Derived ids.

A derived id is written with six hexadecimal digits, so it can be read as an id, and one that is
given to a line was not taken before.  There are only so many ids of six digits: different ones are
no more than `capacity`, as `length_le_capacity` shows.
-/

namespace Comfort
namespace Ident

theorem length_bigEndian (count n : Nat) : (Sha1.bigEndian count n).length = count := by
  induction count with
  | zero => rfl
  | succ count ih => rw [Sha1.bigEndian, List.length_cons, ih]

theorem length_digest (message : List UInt8) : (Sha1.digest message).length = 20 := by
  simp only [Sha1.digest, List.length_flatMap, length_bigEndian, List.map_cons, List.map_nil]
  rfl

theorem length_hexPairs (bytes : List UInt8) : (bytes.flatMap hexPair).length = 2 * bytes.length := by
  induction bytes with
  | nil => rfl
  | cons b bytes ih =>
    rw [List.flatMap_cons, List.length_append, ih, List.length_cons]
    show 2 + 2 * bytes.length = 2 * (bytes.length + 1)
    omega

/-- An id of six digits. -/
def IsHex (id : String) : Prop :=
  id.toList.length = 6 ∧ ∀ c ∈ id.toList, c ∈ "0123456789abcdef".toList

theorem mem_digits_of_mem_hexPair {b : UInt8} {c : Char} (h : c ∈ hexPair b) :
    c ∈ "0123456789abcdef".toList := by
  have hdigit : ∀ n < 16, Nat.digitChar n ∈ "0123456789abcdef".toList := by decide
  have hb : b.toNat < 256 := b.toNat_lt
  simp only [hexPair, List.mem_cons, List.not_mem_nil, or_false] at h
  rcases h with rfl | rfl
  · exact hdigit _ (by omega)
  · exact hdigit _ (by omega)

theorem length_derive (seed : String) : (derive seed).toList.length = length := by
  simp only [derive, String.toList_ofList, List.length_take, length_hexPairs, length_digest]
  rfl

theorem isHex_derive (seed : String) : IsHex (derive seed) := by
  refine ⟨length_derive seed, fun c hc => ?_⟩
  simp only [derive, String.toList_ofList] at hc
  obtain ⟨b, -, hb⟩ := List.mem_flatMap.1 (List.mem_of_mem_take hc)
  exact mem_digits_of_mem_hexPair hb

theorem IsHex.isId {id : String} (h : IsHex id) : Text.IsId id.toList := by
  obtain ⟨hlength, hdigits⟩ := h
  have hchars : "0123456789abcdef".toList.all LineForm.isIdChar = true := by decide
  refine ⟨fun hnil => ?_, fun c hc => List.all_eq_true.1 hchars c (hdigits c hc)⟩
  rw [hnil] at hlength
  cases hlength

theorem firstFree?_eq_some {taken : List String} {seed id : String} {fuel attempt : Nat}
    (h : firstFree? taken seed fuel attempt = some id) :
    id ∉ taken ∧ ∃ s, id = derive s := by
  induction fuel generalizing attempt with
  | zero => cases h
  | succ fuel ih =>
    rw [firstFree?] at h
    split at h
    · exact ih h
    · next hfree =>
      cases h
      exact ⟨by simpa using hfree, _, rfl⟩

/-- A new id is a derived one that was not taken. -/
theorem fresh?_eq_some {taken : List String} {seed id : String}
    (h : fresh? taken seed = some id) : id ∉ taken ∧ ∃ s, id = derive s := by
  unfold fresh? at h
  dsimp only at h
  split at h
  · exact firstFree?_eq_some h
  · next hfree =>
    cases h
    exact ⟨by simpa using hfree, _, rfl⟩

/-! ## How many ids there are -/

/-- The texts of `n` characters that are among `cs`. -/
def textsOver (cs : List Char) : Nat → List (List Char)
  | 0 => [[]]
  | n + 1 => cs.flatMap fun c => (textsOver cs n).map (c :: ·)

theorem length_textsOver (cs : List Char) (n : Nat) :
    (textsOver cs n).length = Nat.pow cs.length n := by
  induction n with
  | zero => rfl
  | succ n ih =>
    rw [textsOver, List.length_flatMap]
    simp only [List.length_map, ih]
    rw [List.map_const', List.sum_replicate_nat]
    exact Nat.mul_comm cs.length (Nat.pow cs.length n)

theorem mem_textsOver {cs text : List Char} (h : ∀ c ∈ text, c ∈ cs) :
    text ∈ textsOver cs text.length := by
  induction text with
  | nil => exact List.mem_singleton.2 rfl
  | cons c text ih =>
    obtain ⟨hc, htext⟩ := List.forall_mem_cons.1 h
    exact List.mem_flatMap.2 ⟨c, hc, List.mem_map_of_mem (ih htext)⟩

/-- The number of ids of six digits. -/
def capacity : Nat := Nat.pow 16 6

/-- A list without repetitions holds no more ids of six digits than there are. -/
theorem length_le_capacity {ids : List String} (hnodup : ids.Nodup) (h : ∀ id ∈ ids, IsHex id) :
    ids.length ≤ capacity := by
  have htexts : (ids.map String.toList).Nodup :=
    List.pairwise_map.2 (hnodup.imp fun hne heq => hne (String.toList_injective heq))
  have hsubset : ids.map String.toList ⊆ textsOver "0123456789abcdef".toList 6 := by
    intro text htext
    obtain ⟨id, hid, rfl⟩ := List.mem_map.1 htext
    obtain ⟨hlength, hdigits⟩ := h id hid
    rw [← hlength]
    exact mem_textsOver hdigits
  have hdigits : "0123456789abcdef".toList.length = 16 := rfl
  calc ids.length = (ids.map String.toList).length := (List.length_map ..).symm
    _ ≤ (textsOver "0123456789abcdef".toList 6).length := htexts.length_le_of_subset hsubset
    _ = capacity := by rw [length_textsOver, hdigits, capacity]

/-! ## When there is no new id -/

/-- Every attempt to derive an id for the seed meets one that is taken. -/
def Exhausted (taken : List String) (seed : String) : Prop :=
  derive seed ∈ taken ∧
    ∀ attempt, 1 ≤ attempt → attempt < attemptLimit → derive (attemptSeed seed attempt) ∈ taken

theorem firstFree?_eq_none {taken : List String} {seed : String} {fuel attempt : Nat} :
    firstFree? taken seed fuel attempt = none ↔
      ∀ k, attempt ≤ k → k < attempt + fuel → derive (attemptSeed seed k) ∈ taken := by
  induction fuel generalizing attempt with
  | zero =>
    refine ⟨fun _ k hlow hhigh => ?_, fun _ => rfl⟩
    omega
  | succ fuel ih =>
    rw [firstFree?]
    by_cases htaken : derive (attemptSeed seed attempt) ∈ taken
    · rw [if_pos (List.contains_iff_mem.2 htaken), ih]
      constructor
      · intro h k hlow hhigh
        by_cases hk : k = attempt
        · rw [hk]
          exact htaken
        · exact h k (by omega) (by omega)
      · intro h k hlow hhigh
        exact h k (by omega) (by omega)
    · rw [if_neg (fun h => htaken (List.contains_iff_mem.1 h))]
      refine ⟨nofun, fun h => ?_⟩
      exact absurd (h attempt (Nat.le_refl _) (by omega)) htaken

/-- There is no new id only when all attempts fail. -/
theorem fresh?_eq_none {taken : List String} {seed : String} :
    fresh? taken seed = none ↔ Exhausted taken seed := by
  have hlimit : 1 ≤ attemptLimit := by
    show 1 ≤ Nat.pow 2 31
    exact Nat.one_le_two_pow
  unfold fresh? Exhausted
  dsimp only
  by_cases htaken : derive seed ∈ taken
  · rw [if_pos (List.contains_iff_mem.2 htaken), firstFree?_eq_none]
    refine ⟨fun h => ⟨htaken, fun k hlow hhigh => h k hlow (by omega)⟩, ?_⟩
    intro h k hlow hhigh
    exact h.2 k hlow (by omega)
  · rw [if_neg (fun h => htaken (List.contains_iff_mem.1 h))]
    exact ⟨nofun, fun h => absurd h.1 htaken⟩

theorem isId_of_fresh? {taken : List String} {seed id : String}
    (h : fresh? taken seed = some id) : Text.IsId id.toList := by
  obtain ⟨-, s, rfl⟩ := fresh?_eq_some h
  exact (isHex_derive s).isId

end Ident
end Comfort
