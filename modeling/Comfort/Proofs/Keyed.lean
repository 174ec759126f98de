import Comfort.Table

/-!
Ascending entries are determined by what is found in them.

Two ascending lists in which every key finds the same are equal.  What is set counts alone when it is
set or erased again, whether the keys ascend or not; that setting brings back what was erased holds
of ascending lists.
-/

namespace Comfort
namespace Keyed

variable {α : Type}

theorem find?_head {key : String} {a : α} {rest : List (String × α)} :
    find? key ((key, a) :: rest) = some a := by
  rw [find?, if_pos rfl]

theorem find?_cons_of_ne {key k : String} {a : α} {rest : List (String × α)} (h : k ≠ key) :
    find? key ((k, a) :: rest) = find? key rest := by
  rw [find?, if_neg h]

theorem mem_of_find? {key : String} {a : α} {entries : List (String × α)}
    (h : find? key entries = some a) : (key, a) ∈ entries := by
  induction entries with
  | nil => cases h
  | cons e rest ih =>
    obtain ⟨k, b⟩ := e
    by_cases hk : k = key
    · subst hk
      rw [find?_head] at h
      cases h
      exact List.mem_cons_self
    · rw [find?_cons_of_ne hk] at h
      exact List.mem_cons_of_mem _ (ih h)

theorem find?_of_mem {key : String} {a : α} {entries : List (String × α)}
    (h : Ascending entries) (hm : (key, a) ∈ entries) : find? key entries = some a := by
  induction entries with
  | nil => cases hm
  | cons e rest ih =>
    obtain ⟨k, b⟩ := e
    obtain ⟨hb, hrest⟩ := List.pairwise_cons.1 h
    rcases List.mem_cons.1 hm with he | hm
    · cases he
      exact find?_head
    · have hlt : k < key := hb _ hm
      rw [find?_cons_of_ne (Std.ne_of_lt hlt)]
      exact ih hrest hm

/-- A key that comes before all the others is found at the head only. -/
theorem find?_tail {key : String} {a : α} {rest : List (String × α)}
    (h : Ascending ((key, a) :: rest)) : find? key rest = none := by
  rw [find?_eq_none]
  intro e he
  have hlt : key < e.1 := (List.pairwise_cons.1 h).1 e he
  exact fun hk => Std.ne_of_lt hlt hk.symm

theorem head_le_of_find? {key k : String} {a b : α} {rest : List (String × α)}
    (h : Ascending ((k, b) :: rest)) (hf : find? key ((k, b) :: rest) = some a) : k ≤ key := by
  rcases List.mem_cons.1 (mem_of_find? hf) with he | hm
  · cases he
    exact Std.le_refl _
  · exact Std.le_of_lt ((List.pairwise_cons.1 h).1 _ hm)

/-- Ascending lists are equal where every key finds the same in both. -/
theorem eq_of_find?_eq {a b : List (String × α)} (ha : Ascending a) (hb : Ascending b)
    (h : ∀ key, find? key a = find? key b) : a = b := by
  induction a generalizing b with
  | nil =>
    cases b with
    | nil => rfl
    | cons e rest =>
      have he := h e.1
      rw [find?_head] at he
      cases he
  | cons e a ih =>
    obtain ⟨k, x⟩ := e
    cases b with
    | nil =>
      have he := h k
      rw [find?_head] at he
      cases he
    | cons f b =>
      obtain ⟨l, y⟩ := f
      have hk := h k
      have hl := h l
      rw [find?_head] at hk hl
      have hkl : k = l := Std.le_antisymm (head_le_of_find? ha hl) (head_le_of_find? hb hk.symm)
      subst hkl
      rw [find?_head] at hk
      cases hk
      have hrest : ∀ key, find? key a = find? key b := by
        intro key
        by_cases he : k = key
        · subst he
          rw [find?_tail ha, find?_tail hb]
        · have := h key
          rwa [find?_cons_of_ne he, find?_cons_of_ne he] at this
      rw [ih (List.pairwise_cons.1 ha).2 (List.pairwise_cons.1 hb).2 hrest]

/-! ## Setting and erasing -/

theorem erase_of_find?_eq_none {key : String} {entries : List (String × α)}
    (h : find? key entries = none) : erase key entries = entries := by
  refine List.filter_eq_self.2 fun e he => ?_
  simpa using find?_eq_none.1 h e he

theorem replace_of_find?_eq_none {key : String} {entries : List (String × α)}
    (h : find? key entries = none) (a : α) : replace key a entries = entries := by
  refine List.map_congr_left (fun e he => ?_) |>.trans (List.map_id entries)
  exact if_neg (find?_eq_none.1 h e he)

theorem replace_place {key : String} {entries : List (String × α)} (h : find? key entries = none)
    (a b : α) : replace key b (place key a entries) = place key b entries := by
  induction entries with
  | nil => simp [place, replace]
  | cons e rest ih =>
    obtain ⟨k, c⟩ := e
    have hk : k ≠ key := find?_eq_none.1 h (k, c) List.mem_cons_self
    have hrest : find? key rest = none := by rwa [find?_cons_of_ne hk] at h
    simp only [place]
    split
    · have hsame := replace_of_find?_eq_none h b
      rw [replace] at hsame ⊢
      rw [List.map_cons, hsame, if_pos rfl]
    · have hback := ih hrest
      rw [replace] at hback ⊢
      rw [List.map_cons, hback, if_neg hk]

/-- Setting what is found already changes nothing. -/
theorem set_of_find? {key : String} {a : α} {entries : List (String × α)} (h : Ascending entries)
    (hf : find? key entries = some a) : set key a entries = entries := by
  refine eq_of_find?_eq (ascending_set h) h fun k => ?_
  rw [find?_set]
  split
  · next hk => rw [← hk, hf]
  · rfl

theorem set_set {key : String} {a b : α} {entries : List (String × α)} :
    set key b (set key a entries) = set key b entries := by
  have hfound : (find? key (set key a entries)).isSome = true := by
    rw [find?_set, if_pos rfl]
    rfl
  rw [set, if_pos hfound, set, set]
  by_cases h : (find? key entries).isSome = true
  · rw [if_pos h, if_pos h, replace, replace, List.map_map]
    refine List.map_congr_left fun e _ => ?_
    by_cases he : e.1 = key <;> simp [he]
  · rw [if_neg h, if_neg h, replace_place (by simpa using h)]

theorem set_erase {key : String} {a : α} {entries : List (String × α)} (h : Ascending entries) :
    set key a (erase key entries) = set key a entries := by
  refine eq_of_find?_eq (ascending_set (ascending_erase h)) (ascending_set h) fun k => ?_
  simp only [find?_set, find?_erase]
  split <;> rfl

theorem erase_place {key : String} {a : α} {entries : List (String × α)} :
    erase key (place key a entries) = erase key entries := by
  induction entries with
  | nil => simp [place, erase]
  | cons e rest ih =>
    simp only [erase] at ih ⊢
    simp only [place]
    split
    · exact List.filter_cons_of_neg (by simp)
    · rw [List.filter_cons, List.filter_cons, ih]

theorem erase_replace {key : String} {a : α} {entries : List (String × α)} :
    erase key (replace key a entries) = erase key entries := by
  induction entries with
  | nil => rfl
  | cons e rest ih =>
    simp only [erase, replace] at ih ⊢
    rw [List.map_cons, List.filter_cons, List.filter_cons, ih]
    by_cases he : e.1 = key <;> simp [he]

theorem erase_set {key : String} {a : α} {entries : List (String × α)} :
    erase key (set key a entries) = erase key entries := by
  rw [set]
  split
  · exact erase_replace
  · exact erase_place

theorem erase_erase (key : String) (entries : List (String × α)) :
    erase key (erase key entries) = erase key entries := by
  simp [erase]

theorem set_ne_nil {key : String} {a : α} {entries : List (String × α)} :
    set key a entries ≠ [] := by
  intro hnil
  have h := find?_set key key a entries
  rw [hnil, if_pos rfl] at h
  cases h

theorem mem_set {key : String} {a : α} {entries : List (String × α)} {e : String × α}
    (h : e ∈ set key a entries) : e = (key, a) ∨ e ∈ entries := by
  unfold set at h
  split at h
  · obtain ⟨f, hf, rfl⟩ := List.mem_map.1 h
    split
    · exact .inl rfl
    · exact .inr hf
  · exact mem_place h

theorem ascending_foldl_set {entries : List (String × α)} {acc : List (String × α)}
    (h : Ascending acc) : Ascending (entries.foldl (fun acc e => set e.1 e.2 acc) acc) := by
  induction entries generalizing acc with
  | nil => exact h
  | cons e rest ih => exact ih (ascending_set h)

theorem ascending_ofEntries (entries : List (String × α)) : Ascending (ofEntries entries) :=
  ascending_foldl_set List.Pairwise.nil

theorem mem_foldl_set {entries acc : List (String × α)} {e : String × α}
    (h : e ∈ entries.foldl (fun acc e => set e.1 e.2 acc) acc) : e ∈ entries ∨ e ∈ acc := by
  induction entries generalizing acc with
  | nil => exact .inr h
  | cons f rest ih =>
    rcases ih h with h | h
    · exact .inl (List.mem_cons_of_mem _ h)
    · rcases mem_set h with rfl | h
      · exact .inl List.mem_cons_self
      · exact .inr h

theorem mem_of_mem_ofEntries {entries : List (String × α)} {e : String × α}
    (h : e ∈ ofEntries entries) : e ∈ entries := by
  rcases mem_foldl_set h with h | h
  · exact h
  · cases h

/-! ## Entries in their order -/

theorem place_of_forall_lt {key : String} {a : α} {entries : List (String × α)}
    (h : ∀ e ∈ entries, e.1 < key) : place key a entries = entries ++ [(key, a)] := by
  induction entries with
  | nil => rfl
  | cons e rest ih =>
    have hlt : ¬ key < e.1 := String.lt_asymm (h e List.mem_cons_self)
    rw [place, if_neg hlt, ih fun f hf => h f (List.mem_cons_of_mem _ hf)]
    rfl

/-- An entry with a key after all others is put at the end. -/
theorem set_of_forall_lt {key : String} {a : α} {entries : List (String × α)}
    (h : ∀ e ∈ entries, e.1 < key) : set key a entries = entries ++ [(key, a)] := by
  have hnone : find? key entries = none := find?_eq_none.2 fun e he => Std.ne_of_lt (h e he)
  rw [set, hnone, place_of_forall_lt h]
  rfl

theorem foldl_set_of_ascending {entries acc : List (String × α)}
    (h : Ascending (acc ++ entries)) :
    entries.foldl (fun acc e => set e.1 e.2 acc) acc = acc ++ entries := by
  induction entries generalizing acc with
  | nil => rw [List.foldl_nil, List.append_nil]
  | cons e rest ih =>
    have hlt : ∀ f ∈ acc, f.1 < e.1 := fun f hf =>
      (List.pairwise_append.1 h).2.2 f hf e List.mem_cons_self
    rw [List.foldl_cons, set_of_forall_lt hlt, ih (by simpa using h)]
    simp

/-- Entries whose keys ascend already are kept as they are. -/
theorem ofEntries_of_ascending {entries : List (String × α)} (h : Ascending entries) :
    ofEntries entries = entries :=
  foldl_set_of_ascending h

end Keyed

namespace Table

variable {α : Type}

/-- Tables are equal where every key finds the same in both. -/
theorem eq_of_find?_eq {s t : Table α} (h : ∀ key, s.find? key = t.find? key) : s = t := by
  obtain ⟨a, ha⟩ := s
  obtain ⟨b, hb⟩ := t
  have : a = b := Keyed.eq_of_find?_eq ha hb h
  subst this
  rfl

end Table
end Comfort
