/-!
Entries kept in the order of their keys.

JSON objects, schema properties and the tables of a store are lists of entries whose keys ascend.
Setting a key replaces what it had, so of two entries for one key the later one counts.  Strings are
compared by code points, which is also the order of their UTF-8 bytes.

The main statements say what is found after an entry is set or erased, and that both keep the keys
ascending.
-/

namespace Comfort
namespace Keyed

variable {α : Type}

def find? (key : String) : List (String × α) → Option α
  | [] => none
  | (k, a) :: rest => if k = key then some a else find? key rest

def erase (key : String) (entries : List (String × α)) : List (String × α) :=
  entries.filter fun e => e.1 != key

/-- Put an entry in front of the first one with a greater key. -/
def place (key : String) (a : α) : List (String × α) → List (String × α)
  | [] => [(key, a)]
  | (k, b) :: rest => if key < k then (key, a) :: (k, b) :: rest else (k, b) :: place key a rest

/-- Give every entry of `key` the value `a`. -/
def replace (key : String) (a : α) (entries : List (String × α)) : List (String × α) :=
  entries.map fun e => if e.1 = key then (key, a) else e

def set (key : String) (a : α) (entries : List (String × α)) : List (String × α) :=
  if (find? key entries).isSome then replace key a entries else place key a entries

def ofEntries (entries : List (String × α)) : List (String × α) :=
  entries.foldl (fun acc e => set e.1 e.2 acc) []

/-- No key occurs twice, and the keys ascend. -/
def Ascending (entries : List (String × α)) : Prop :=
  entries.Pairwise fun a b => a.1 < b.1

/-! ## What is found -/

@[simp] theorem find?_nil (key : String) : find? key ([] : List (String × α)) = none := rfl

theorem find?_eq_none {key : String} {entries : List (String × α)} :
    find? key entries = none ↔ ∀ e ∈ entries, e.1 ≠ key := by
  induction entries with
  | nil => simp
  | cons e rest ih =>
    obtain ⟨k, b⟩ := e
    by_cases hk : k = key <;> simp [find?, hk, ih]

theorem find?_place (key key' : String) (a : α) (entries : List (String × α))
    (h : find? key entries = none) :
    find? key' (place key a entries) = if key = key' then some a else find? key' entries := by
  induction entries with
  | nil => simp [place, find?]
  | cons e rest ih =>
    obtain ⟨k, b⟩ := e
    have hk : k ≠ key := by intro hk; simp [find?, hk] at h
    have hr : find? key rest = none := by simpa [find?, hk] using h
    by_cases hlt : key < k
    · simp [place, hlt, find?]
    · by_cases he : k = key'
      · subst he
        have : ¬ key = k := fun h' => hk h'.symm
        simp [place, hlt, find?, this]
      · simp [place, hlt, find?, he, ih hr]

theorem find?_replace (key key' : String) (a : α) (entries : List (String × α)) :
    find? key' (replace key a entries)
      = if key = key' then (find? key entries).map fun _ => a else find? key' entries := by
  induction entries with
  | nil => simp [replace]
  | cons e rest ih =>
    obtain ⟨k, b⟩ := e
    simp only [replace] at ih
    by_cases hk : k = key
    · subst hk
      by_cases he : k = key'
      · simp [replace, find?, he]
      · simp [replace, find?, he, ih]
    · by_cases he : k = key'
      · subst he
        have : ¬ key = k := fun h' => hk h'.symm
        simp [replace, find?, hk, this]
      · simp [replace, find?, hk, he, ih]

theorem find?_set (key key' : String) (a : α) (entries : List (String × α)) :
    find? key' (set key a entries) = if key = key' then some a else find? key' entries := by
  unfold set
  split
  · next h =>
    obtain ⟨b, hb⟩ := Option.isSome_iff_exists.1 h
    simp [find?_replace, hb]
  · next h => exact find?_place _ _ _ _ (by simpa using h)

theorem find?_erase (key key' : String) (entries : List (String × α)) :
    find? key' (erase key entries) = if key = key' then none else find? key' entries := by
  induction entries with
  | nil => simp [erase]
  | cons e rest ih =>
    obtain ⟨k, b⟩ := e
    simp only [erase] at ih
    by_cases hk : k = key
    · subst hk
      by_cases he : k = key' <;> simp_all [erase, find?]
    · by_cases he : k = key'
      · subst he
        have : ¬ key = k := fun h' => hk h'.symm
        simp [erase, hk, find?, this]
      · simp [erase, hk, find?, he, ih]

/-! ## Order -/

theorem mem_place {key : String} {a : α} {entries : List (String × α)} {e : String × α}
    (h : e ∈ place key a entries) : e = (key, a) ∨ e ∈ entries := by
  induction entries with
  | nil => simpa [place] using h
  | cons f rest ih =>
    obtain ⟨k, b⟩ := f
    simp only [place] at h
    split at h
    · simpa using h
    · rcases List.mem_cons.1 h with h | h
      · simp [h]
      · rcases ih h with h | h <;> simp [h]

theorem ascending_place {key : String} {a : α} {entries : List (String × α)}
    (h : Ascending entries) (hn : find? key entries = none) : Ascending (place key a entries) := by
  induction entries with
  | nil => simp [place, Ascending]
  | cons e rest ih =>
    obtain ⟨k, b⟩ := e
    have hk : k ≠ key := by intro hk; simp [find?, hk] at hn
    have hr : find? key rest = none := by simpa [find?, hk] using hn
    obtain ⟨hb, hrest⟩ := List.pairwise_cons.1 h
    simp only [place]
    split
    · next hlt =>
      refine List.pairwise_cons.2 ⟨?_, h⟩
      intro x hx
      rcases List.mem_cons.1 hx with rfl | hx
      · exact hlt
      · exact String.lt_trans hlt (hb x hx)
    · next hlt =>
      have hgt : k < key := Std.lt_of_le_of_ne (String.not_lt.1 hlt) hk
      refine List.pairwise_cons.2 ⟨?_, ih hrest hr⟩
      intro x hx
      rcases mem_place hx with rfl | hx
      · exact hgt
      · exact hb x hx

theorem ascending_replace {key : String} {a : α} {entries : List (String × α)}
    (h : Ascending entries) : Ascending (replace key a entries) := by
  refine List.pairwise_map.2 (h.imp ?_)
  intro x y hxy
  by_cases hx : x.1 = key <;> by_cases hy : y.1 = key <;> simp_all

theorem ascending_set {key : String} {a : α} {entries : List (String × α)}
    (h : Ascending entries) : Ascending (set key a entries) := by
  unfold set
  split
  · exact ascending_replace h
  · next hn => exact ascending_place h (by simpa using hn)

theorem ascending_erase {key : String} {entries : List (String × α)} (h : Ascending entries) :
    Ascending (erase key entries) :=
  h.filter _

end Keyed
end Comfort
