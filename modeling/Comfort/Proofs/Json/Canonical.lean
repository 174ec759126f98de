import Comfort.Proofs.Json.Paths

/-!
Canonical values stay canonical.

Values that the program holds are canonical: they come from a text through `canonical`, or from edits
of canonical values by canonical ones.  Where the keys ascend, an object is determined by its
children, and an edit is undone by a later one of the same field.
-/

namespace Comfort
namespace Json

theorem canonicalFields_iff {fields : List (String × Json)} :
    CanonicalFields fields ↔ ∀ e ∈ fields, e.2.Canonical := by
  induction fields with
  | nil => simp [CanonicalFields]
  | cons e rest ih =>
    obtain ⟨key, j⟩ := e
    simp [CanonicalFields, ih]

theorem canonicalItems_iff {items : List Json} :
    CanonicalItems items ↔ ∀ j ∈ items, j.Canonical := by
  induction items with
  | nil => simp [CanonicalItems]
  | cons j rest ih => simp [CanonicalItems, ih]

theorem canonical_obj {fields : List (String × Json)} :
    (obj fields).Canonical ↔ Keyed.Ascending fields ∧ ∀ e ∈ fields, e.2.Canonical := by
  rw [Canonical, canonicalFields_iff]

theorem canonical_emptyObject : (obj []).Canonical :=
  canonical_obj.2 ⟨List.Pairwise.nil, fun e he => by cases he⟩

theorem canonical_strings (ss : List String) : (strings ss).Canonical := by
  show CanonicalItems (ss.map str)
  rw [canonicalItems_iff]
  intro j hj
  obtain ⟨s, _, rfl⟩ := List.mem_map.1 hj
  trivial

theorem Canonical.ascending {j : Json} (h : j.Canonical) : Keyed.Ascending j.objectFields := by
  cases j with
  | obj fields => exact (canonical_obj.1 h).1
  | _ => exact List.Pairwise.nil

theorem Canonical.mem {j : Json} (h : j.Canonical) {e : String × Json}
    (he : e ∈ j.objectFields) : e.2.Canonical := by
  cases j with
  | obj fields => exact (canonical_obj.1 h).2 e he
  | _ => cases he

theorem Canonical.field? {j child : Json} (h : j.Canonical) {key : String}
    (hc : j.field? key = some child) : child.Canonical := by
  rw [field?_eq_find?] at hc
  exact h.mem (Keyed.mem_of_find? hc)

theorem Canonical.getD {child : Option Json} (h : ∀ c, child = some c → c.Canonical) :
    (child.getD (obj [])).Canonical := by
  cases child with
  | none => exact canonical_emptyObject
  | some c => exact h c rfl

theorem canonical_set {fields : List (String × Json)} {key : String} {value : Json}
    (hf : Keyed.Ascending fields ∧ ∀ e ∈ fields, e.2.Canonical) (hv : value.Canonical) :
    (obj (Keyed.set key value fields)).Canonical := by
  rw [canonical_obj]
  refine ⟨Keyed.ascending_set hf.1, fun e he => ?_⟩
  rcases Keyed.mem_set he with rfl | he
  · exact hv
  · exact hf.2 e he

theorem canonical_erase {fields : List (String × Json)} (key : String)
    (hf : Keyed.Ascending fields ∧ ∀ e ∈ fields, e.2.Canonical) :
    (obj (Keyed.erase key fields)).Canonical :=
  canonical_obj.2 ⟨Keyed.ascending_erase hf.1, fun e he => hf.2 e (List.mem_filter.1 he).1⟩

theorem canonical_writeAt {value j : Json} {path : List String} (hv : value.Canonical)
    (hj : j.Canonical) : (writeAt value path j).Canonical := by
  induction path generalizing j with
  | nil => exact hv
  | cons key rest ih =>
    have hchild : ((Keyed.find? key j.objectFields).getD (obj [])).Canonical :=
      Canonical.getD fun c hc => hj.mem (Keyed.mem_of_find? hc)
    exact canonical_set ⟨hj.ascending, fun e he => hj.mem he⟩ (ih hchild)

theorem canonical_deleteAt {path : List String} {j : Json} (hj : j.Canonical) :
    (j.deleteAt path).Canonical := by
  induction path generalizing j with
  | nil =>
    rw [deleteAt]
    exact hj
  | cons key rest ih =>
    by_cases ho : j.IsObject
    · obtain ⟨fields, rfl⟩ := ho
      have hf := canonical_obj.1 hj
      rw [deleteAt_cons]
      split
      · split
        · exact canonical_erase key hf
        · exact hj
      · exact canonical_erase key hf
      · next child hc =>
        refine canonical_set hf ?_
        obtain ⟨old, hold, hd⟩ := Option.map_eq_some_iff.1 hc
        have hcan : old.Canonical := hf.2 _ (Keyed.mem_of_find? hold)
        unfold deleteBelow at hd
        split at hd
        · cases hd
        · cases hd
          exact ih hcan
    · rw [deleteAt_of_not_isObject ho]
      exact hj

theorem canonical_edit {path : List String} {value : Option Json} {j : Json}
    (hv : ∀ v, value = some v → v.Canonical) (hj : j.Canonical) :
    (edit path value j).Canonical := by
  cases value with
  | none => exact canonical_deleteAt hj
  | some v => exact canonical_writeAt (hv v rfl) hj

theorem canonical_editAll {edits : List (List String × Option Json)} {j : Json}
    (hv : ∀ e ∈ edits, ∀ v, e.2 = some v → v.Canonical) (hj : j.Canonical) :
    (editAll edits j).Canonical := by
  induction edits generalizing j with
  | nil => exact hj
  | cons e rest ih =>
    have he : (edit e.1 e.2 j).Canonical := canonical_edit (hv e List.mem_cons_self) hj
    exact ih (fun f hf => hv f (List.mem_cons_of_mem _ hf)) he

/-! ## Values from a text -/

theorem canonical_ofEntries {fields : List (String × Json)}
    (h : ∀ e ∈ fields, e.2.Canonical) : (obj (Keyed.ofEntries fields)).Canonical :=
  canonical_obj.2
    ⟨Keyed.ascending_ofEntries fields, fun e he => h e (Keyed.mem_of_mem_ofEntries he)⟩

mutual

theorem canonical_canonical (j : Json) : j.canonical.Canonical := by
  match j with
  | null => trivial
  | bool b => trivial
  | num n => trivial
  | str s => trivial
  | arr items => exact canonicalItems_iff.2 (canonical_canonicalItems items)
  | obj fields => exact canonical_ofEntries (canonical_canonicalFields fields)
termination_by structural j

theorem canonical_canonicalItems (items : List Json) :
    ∀ j ∈ canonicalItems items, j.Canonical := by
  match items with
  | [] => simp [canonicalItems]
  | j :: rest =>
    have hj := canonical_canonical j
    have hrest := canonical_canonicalItems rest
    simp only [canonicalItems, List.mem_cons]
    rintro k (rfl | hk)
    · exact hj
    · exact hrest k hk
termination_by structural items

theorem canonical_canonicalFields (fields : List (String × Json)) :
    ∀ e ∈ canonicalFields fields, e.2.Canonical := by
  match fields with
  | [] => simp [canonicalFields]
  | (key, j) :: rest =>
    have hj := canonical_canonical j
    have hrest := canonical_canonicalFields rest
    simp only [canonicalFields, List.mem_cons]
    rintro e (rfl | he)
    · exact hj
    · exact hrest e he
termination_by structural fields

end

mutual

/-- A canonical value is its own canonical form. -/
theorem canonical_eq_self (j : Json) (h : j.Canonical) : j.canonical = j := by
  match j with
  | null => rfl
  | bool b => rfl
  | num n => rfl
  | str s => rfl
  | arr items => rw [canonical, canonicalItems_eq_self items h]
  | obj fields =>
    rw [canonical, canonicalFields_eq_self fields h.2, Keyed.ofEntries_of_ascending h.1]
termination_by structural j

theorem canonicalItems_eq_self (items : List Json) (h : CanonicalItems items) :
    canonicalItems items = items := by
  match items with
  | [] => rfl
  | j :: rest => rw [canonicalItems, canonical_eq_self j h.1, canonicalItems_eq_self rest h.2]
termination_by structural items

theorem canonicalFields_eq_self (fields : List (String × Json)) (h : CanonicalFields fields) :
    canonicalFields fields = fields := by
  match fields with
  | [] => rfl
  | (key, j) :: rest =>
    rw [canonicalFields, canonical_eq_self j h.1, canonicalFields_eq_self rest h.2]
termination_by structural fields

end

/-! ## Equality of objects -/

theorem eq_of_field?_eq {a b : Json} (ha : a.Canonical) (hb : b.Canonical) (hao : a.IsObject)
    (hbo : b.IsObject) (h : ∀ key, a.field? key = b.field? key) : a = b := by
  rw [eq_obj_of_isObject hao, eq_obj_of_isObject hbo]
  have hfields : a.objectFields = b.objectFields := by
    refine Keyed.eq_of_find?_eq ha.ascending hb.ascending fun key => ?_
    rw [← field?_eq_find?, ← field?_eq_find?]
    exact h key
  rw [hfields]

/-! ## An edit after another one of the same field -/

theorem isEmptyObject_obj {fields : List (String × Json)} :
    (obj fields).isEmptyObject = true ↔ fields = [] := by
  cases fields with
  | nil => exact iff_of_true rfl rfl
  | cons e rest => exact iff_of_false (fun h => by cases h) (fun h => by cases h)

theorem deleteBelow_obj (key : String) (fields : List (String × Json)) :
    deleteBelow [key] (obj fields)
      = if Keyed.erase key fields = [] then none else some (obj (Keyed.erase key fields)) := by
  have hdelete : (obj fields).deleteAt [key] = obj (Keyed.erase key fields) := rfl
  unfold deleteBelow
  rw [hdelete]
  by_cases hnil : Keyed.erase key fields = []
  · rw [if_pos (.inr (isEmptyObject_obj.2 hnil)), if_pos hnil]
  · rw [if_neg hnil, if_neg]
    rintro (h | h)
    · cases h
    · exact hnil (isEmptyObject_obj.1 h)

theorem deleteBelow_of_not_isObject {j : Json} (h : ¬ j.IsObject) (key : String) :
    deleteBelow [key] j = some j := by
  unfold deleteBelow
  rw [deleteAt_of_not_isObject h]
  cases j with
  | obj fields => exact absurd ⟨fields, rfl⟩ h
  | _ => rfl

theorem editBelow_none (key : String) (v : Option Json) :
    editBelow [key] v none = editBelow [key] v (some (obj [])) := by
  cases v with
  | some v => rfl
  | none => rfl

/-- An absent child is edited as an object without fields. -/
theorem exists_fields_of_isObject {child : Option Json}
    (hc : ∀ c, child = some c → c.Canonical) (ho : ∀ c, child = some c → c.IsObject) :
    ∃ fields, Keyed.Ascending fields ∧
      ∀ key v, editBelow [key] v child = editBelow [key] v (some (obj fields)) := by
  cases child with
  | none => exact ⟨[], List.Pairwise.nil, editBelow_none⟩
  | some c =>
    obtain ⟨fields, rfl⟩ := ho c rfl
    have hcan : (obj fields).Canonical := hc _ rfl
    exact ⟨fields, hcan.ascending, fun _ _ => rfl⟩

theorem editBelow_set (fields : List (String × Json)) (key : String) (v : Option Json) (w : Json) :
    editBelow [key] v (some (obj (Keyed.set key w fields))) = editBelow [key] v (some (obj fields)) := by
  cases v with
  | some v =>
    show some (obj (Keyed.set key v (Keyed.set key w fields))) = some (obj (Keyed.set key v fields))
    rw [Keyed.set_set]
  | none =>
    show deleteBelow [key] (obj (Keyed.set key w fields)) = deleteBelow [key] (obj fields)
    rw [deleteBelow_obj, deleteBelow_obj, Keyed.erase_set]

theorem editBelow_erase {fields : List (String × Json)} (hasc : Keyed.Ascending fields)
    (key : String) (v : Option Json) :
    editBelow [key] v (some (obj (Keyed.erase key fields))) = editBelow [key] v (some (obj fields)) := by
  cases v with
  | some v =>
    show some (obj (Keyed.set key v (Keyed.erase key fields))) = some (obj (Keyed.set key v fields))
    rw [Keyed.set_erase hasc]
  | none =>
    show deleteBelow [key] (obj (Keyed.erase key fields)) = deleteBelow [key] (obj fields)
    rw [deleteBelow_obj, deleteBelow_obj, Keyed.erase_erase]

/-- What an edit leaves of a field does not depend on an earlier edit of the field, where the child
that holds the field is an object or absent. -/
theorem editBelow_editBelow {key : String} {v w : Option Json} {child : Option Json}
    (hc : ∀ c, child = some c → c.Canonical) (ho : ∀ c, child = some c → c.IsObject) :
    editBelow [key] v (editBelow [key] w child) = editBelow [key] v child := by
  obtain ⟨fields, hasc, hfields⟩ := exists_fields_of_isObject hc ho
  rw [hfields, hfields]
  cases w with
  | some w => exact editBelow_set fields key v w
  | none =>
    show editBelow [key] v (deleteBelow [key] (obj fields)) = _
    rw [deleteBelow_obj, ← editBelow_erase hasc]
    by_cases hnil : Keyed.erase key fields = []
    · rw [if_pos hnil, hnil, editBelow_none]
    · rw [if_neg hnil]

/-- The same edit of a field made twice leaves what it leaves when made once. -/
theorem editBelow_twice {key : String} {v : Option Json} {child : Option Json}
    (hc : ∀ c, child = some c → c.Canonical) :
    editBelow [key] v (editBelow [key] v child) = editBelow [key] v child := by
  by_cases ho : ∀ c, child = some c → c.IsObject
  · exact editBelow_editBelow hc ho
  · obtain ⟨c, hcv, hno⟩ : ∃ c, child = some c ∧ ¬ c.IsObject := by
      cases child with
      | none => exact absurd (fun c hc => by cases hc) ho
      | some c => exact ⟨c, rfl, fun h => ho fun d hd => by cases hd; exact h⟩
    subst hcv
    cases v with
    | some v =>
      show some (obj (Keyed.set key v (Keyed.set key v c.objectFields)))
        = some (obj (Keyed.set key v c.objectFields))
      rw [Keyed.set_set]
    | none =>
      show (deleteBelow [key] c).bind (deleteBelow [key]) = deleteBelow [key] c
      rw [deleteBelow_of_not_isObject hno]
      exact deleteBelow_of_not_isObject hno key

end Json
end Comfort
