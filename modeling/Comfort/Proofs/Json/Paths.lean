import Comfort.Mote.Pointer
import Comfort.Proofs.Keyed

/-!
What is found after a write or a delete at a path.

An edit of a tree is a write or a delete at the end of a path.  Below its first segment an edit is
an edit of the child that stands there, and every other child stays, so the edits of a tree can be
followed one child at a time.  What an edit leaves at its own path is the value written, and at a
path that diverges from its own nothing changes.
-/

namespace Comfort
namespace Json

/-- Write a value at the end of a path, or delete what is there when no value is given. -/
def edit (path : List String) (value : Option Json) (j : Json) : Json :=
  match value with
  | some value => writeAt value path j
  | none => j.deleteAt path

def IsObject (j : Json) : Prop :=
  ∃ fields, j = obj fields

theorem field?_eq_find? (key : String) (j : Json) :
    j.field? key = Keyed.find? key j.objectFields := by
  cases j <;> rfl

theorem objectFields_of_not_isObject {j : Json} (h : ¬ j.IsObject) : j.objectFields = [] := by
  cases j with
  | obj fields => exact absurd ⟨fields, rfl⟩ h
  | _ => rfl

theorem eq_obj_of_isObject {j : Json} (h : j.IsObject) : j = obj j.objectFields := by
  obtain ⟨fields, rfl⟩ := h
  rfl

/-! ## One child at a time -/

/-- What a delete leaves of a child, where `rest` is the path below it. -/
def deleteBelow (rest : List String) (child : Json) : Option Json :=
  if rest = [] ∨ (child.deleteAt rest).isEmptyObject then none else some (child.deleteAt rest)

/-- What an edit leaves of a child, where `rest` is the path below it. -/
def editBelow (rest : List String) (value : Option Json) (child : Option Json) : Option Json :=
  match value with
  | some value => some (writeAt value rest (child.getD (obj [])))
  | none => child.bind (deleteBelow rest)

theorem deleteAt_of_not_isObject {j : Json} (h : ¬ j.IsObject) (path : List String) :
    j.deleteAt path = j := by
  cases j with
  | obj fields => exact absurd ⟨fields, rfl⟩ h
  | _ =>
    match path with
    | [] => rfl
    | [_] => rfl
    | _ :: _ :: _ => rfl

theorem deleteAt_cons (key : String) (rest : List String) (fields : List (String × Json)) :
    (obj fields).deleteAt (key :: rest)
      = match (Keyed.find? key fields).map (deleteBelow rest) with
        | none => obj (if rest = [] then Keyed.erase key fields else fields)
        | some none => obj (Keyed.erase key fields)
        | some (some child) => obj (Keyed.set key child fields) := by
  cases rest with
  | nil =>
    cases hf : Keyed.find? key fields with
    | none => rfl
    | some child => rfl
  | cons next rest =>
    rw [deleteAt]
    · cases hf : Keyed.find? key fields with
      | none => rfl
      | some child =>
        simp only [Option.map_some, deleteBelow]
        cases (child.deleteAt (next :: rest)).isEmptyObject <;> rfl
    · intro h
      cases h

theorem deleteAt_emptyObject (path : List String) : (obj []).deleteAt path = obj [] := by
  cases path with
  | nil => rfl
  | cons key rest =>
    rw [deleteAt_cons]
    show obj (if rest = [] then Keyed.erase key [] else []) = obj []
    split <;> rfl

theorem field?_deleteAt (key : String) (rest : List String) (j : Json) (k : String) :
    (j.deleteAt (key :: rest)).field? k
      = if key = k then (j.field? key).bind (deleteBelow rest) else j.field? k := by
  by_cases hj : j.IsObject
  · obtain ⟨fields, rfl⟩ := hj
    rw [deleteAt_cons]
    show _ = if key = k then (Keyed.find? key fields).bind (deleteBelow rest)
      else Keyed.find? k fields
    cases hf : Keyed.find? key fields with
    | none =>
      show Keyed.find? k (if rest = [] then Keyed.erase key fields else fields) = _
      by_cases hk : key = k
      · subst hk
        split
        · rw [Keyed.find?_erase, if_pos rfl, if_pos rfl]
          rfl
        · rw [hf, if_pos rfl]
          rfl
      · rw [if_neg hk]
        split
        · rw [Keyed.find?_erase, if_neg hk]
        · rfl
    | some child =>
      rw [Option.map_some, Option.bind_some]
      cases deleteBelow rest child with
      | none => exact Keyed.find?_erase key k fields
      | some child => exact Keyed.find?_set key k child fields
  · rw [deleteAt_of_not_isObject hj, field?_eq_find?, field?_eq_find?,
      objectFields_of_not_isObject hj]
    split <;> rfl

/-- The child that an edit goes through is edited, and the other children stay. -/
theorem field?_edit (key : String) (rest : List String) (value : Option Json) (j : Json)
    (k : String) :
    (edit (key :: rest) value j).field? k
      = if key = k then editBelow rest value (j.field? key) else j.field? k := by
  cases value with
  | none => exact field?_deleteAt key rest j k
  | some value =>
    show Keyed.find? k (Keyed.set key _ j.objectFields) = _
    rw [Keyed.find?_set, field?_eq_find? k, field?_eq_find? key]
    rfl

theorem isObject_writeAt (value : Json) (key : String) (rest : List String) (j : Json) :
    (writeAt value (key :: rest) j).IsObject :=
  ⟨_, rfl⟩

theorem isObject_deleteAt {path : List String} {j : Json} (hp : path ≠ []) :
    (j.deleteAt path).IsObject ↔ j.IsObject := by
  by_cases hj : j.IsObject
  · refine ⟨fun _ => hj, fun _ => ?_⟩
    obtain ⟨fields, rfl⟩ := hj
    cases path with
    | nil => exact absurd rfl hp
    | cons key rest =>
      rw [deleteAt_cons]
      split <;> exact ⟨_, rfl⟩
  · rw [deleteAt_of_not_isObject hj]

theorem isObject_edit {path : List String} {value : Option Json} {j : Json} (hp : path ≠ [])
    (hj : j.IsObject) : (edit path value j).IsObject := by
  cases value with
  | none => exact (isObject_deleteAt hp).2 hj
  | some value =>
    cases path with
    | nil => exact absurd rfl hp
    | cons key rest => exact isObject_writeAt value key rest j

/-! ## Paths -/

@[simp] theorem at?_cons (key : String) (rest : List String) (j : Json) :
    at? (key :: rest) j = (j.field? key).bind (at? rest) := rfl

theorem at?_emptyObject {path : List String} {j : Json} (hp : path ≠ [])
    (hj : j.isEmptyObject = true) : at? path j = none := by
  cases path with
  | nil => exact absurd rfl hp
  | cons key rest =>
    match j with
    | obj [] => rfl

/-- Neither of the paths leads through the end of the other. -/
def Diverge (p q : List String) : Prop :=
  ¬ p <+: q ∧ ¬ q <+: p

theorem Diverge.ne_nil {p q : List String} (h : Diverge p q) : p ≠ [] ∧ q ≠ [] := by
  constructor
  · rintro rfl
    exact h.1 List.nil_prefix
  · rintro rfl
    exact h.2 List.nil_prefix

theorem Diverge.tail {key : String} {p q : List String} (h : Diverge (key :: p) (key :: q)) :
    Diverge p q := by
  constructor
  · exact fun hp => h.1 (List.cons_prefix_cons.2 ⟨rfl, hp⟩)
  · exact fun hq => h.2 (List.cons_prefix_cons.2 ⟨rfl, hq⟩)

theorem Diverge.append {p q : List String} (h : Diverge p q) (r : List String) :
    Diverge (p ++ r) q := by
  constructor
  · exact fun hp => h.1 ((List.prefix_append p r).trans hp)
  · intro hq
    rcases List.prefix_or_prefix_of_prefix (List.prefix_append p r) hq with hpq | hqp
    · exact h.1 hpq
    · exact h.2 hqp

instance (p q : List String) : Decidable (Diverge p q) :=
  inferInstanceAs (Decidable (¬ p <+: q ∧ ¬ q <+: p))

/-- An edit leaves its value at its path. -/
theorem at?_edit_self (path : List String) (value : Option Json) (j : Json) (hp : path ≠ []) :
    at? path (edit path value j) = value := by
  induction path generalizing j with
  | nil => exact absurd rfl hp
  | cons key rest ih =>
    rw [at?_cons, field?_edit, if_pos rfl]
    cases value with
    | some value =>
      by_cases hr : rest = []
      · subst hr
        rfl
      · exact ih ((j.field? key).getD (obj [])) hr
    | none =>
      cases j.field? key with
      | none => rfl
      | some child =>
        show (deleteBelow rest child).bind (at? rest) = none
        unfold deleteBelow
        split
        · rfl
        · next h =>
          have hr : rest ≠ [] := fun hr => h (.inl hr)
          exact ih child hr

/-- At a path that diverges from its own an edit changes nothing. -/
theorem at?_edit_of_diverge {path q : List String} (h : Diverge path q) (value : Option Json)
    (j : Json) : at? q (edit path value j) = at? q j := by
  induction path generalizing q j with
  | nil => exact absurd rfl h.ne_nil.1
  | cons key rest ih =>
    cases q with
    | nil => exact absurd rfl h.ne_nil.2
    | cons k q =>
      rw [at?_cons, at?_cons, field?_edit]
      by_cases hk : key = k
      · subst hk
        have ht := h.tail
        obtain ⟨hr, hq⟩ := ht.ne_nil
        rw [if_pos rfl]
        cases value with
        | some value =>
          have hw := ih ht ((j.field? key).getD (obj []))
          show at? q (edit rest (some value) ((j.field? key).getD (obj []))) = _
          rw [hw]
          cases j.field? key with
          | none => exact at?_emptyObject hq rfl
          | some child => rfl
        | none =>
          cases j.field? key with
          | none => rfl
          | some child =>
            have hd : at? q (child.deleteAt rest) = at? q child := ih ht child
            show (deleteBelow rest child).bind (at? q) = at? q child
            rw [← hd]
            unfold deleteBelow
            split
            · next he =>
              rcases he with he | he
              · exact absurd he hr
              · exact (at?_emptyObject hq he).symm
            · rfl
      · rw [if_neg hk]

/-! ## Several edits -/

/-- Make edits one after the other. -/
def editAll (edits : List (List String × Option Json)) (j : Json) : Json :=
  edits.foldl (fun j e => edit e.1 e.2 j) j

@[simp] theorem editAll_cons (e : List String × Option Json)
    (edits : List (List String × Option Json)) (j : Json) :
    editAll (e :: edits) j = editAll edits (edit e.1 e.2 j) := rfl

theorem editAll_append (a b : List (List String × Option Json)) (j : Json) :
    editAll (a ++ b) j = editAll b (editAll a j) :=
  List.foldl_append

theorem at?_editAll_of_diverge {edits : List (List String × Option Json)} {q : List String}
    (h : ∀ e ∈ edits, Diverge e.1 q) (j : Json) : at? q (editAll edits j) = at? q j := by
  induction edits generalizing j with
  | nil => rfl
  | cons e rest ih =>
    rw [editAll_cons, ih fun f hf => h f (List.mem_cons_of_mem _ hf)]
    exact at?_edit_of_diverge (h e List.mem_cons_self) e.2 j

/-- The value of an edit stays where the later edits diverge from its path. -/
theorem at?_editAll_of_mem {a b : List (List String × Option Json)} {path : List String}
    {value : Option Json} (hp : path ≠ []) (h : ∀ e ∈ b, Diverge e.1 path) (j : Json) :
    at? path (editAll (a ++ (path, value) :: b) j) = value := by
  rw [editAll_append, editAll_cons, at?_editAll_of_diverge h]
  exact at?_edit_self path value _ hp

theorem isObject_editAll {edits : List (List String × Option Json)} {j : Json}
    (hp : ∀ e ∈ edits, e.1 ≠ []) (hj : j.IsObject) : (editAll edits j).IsObject := by
  induction edits generalizing j with
  | nil => exact hj
  | cons e rest ih =>
    have he : (edit e.1 e.2 j).IsObject := isObject_edit (hp e List.mem_cons_self) hj
    exact ih (fun f hf => hp f (List.mem_cons_of_mem _ hf)) he

/-- Edits of what is no object only count from the first write on, and then as if they were made
in an empty object. -/
theorem editAll_of_not_isObject {edits : List (List String × Option Json)} {j : Json}
    (hp : ∀ e ∈ edits, e.1 ≠ []) (hj : ¬ j.IsObject) :
    editAll edits j = if edits.any (fun e => e.2.isSome) then editAll edits (obj []) else j := by
  induction edits with
  | nil => rfl
  | cons e rest ih =>
    obtain ⟨path, value⟩ := e
    cases path with
    | nil => exact absurd rfl (hp ([], value) List.mem_cons_self)
    | cons key tail =>
      cases value with
      | some value =>
        show editAll rest (writeAt value (key :: tail) j) = editAll rest (writeAt value (key :: tail) (obj []))
        rw [writeAt, writeAt, objectFields_of_not_isObject hj]
        rfl
      | none =>
        have hih := ih fun f hf => hp f (List.mem_cons_of_mem _ hf)
        show editAll rest (j.deleteAt (key :: tail))
          = if rest.any (fun e => e.2.isSome) then editAll rest ((obj []).deleteAt (key :: tail))
            else j
        rw [deleteAt_of_not_isObject hj, deleteAt_emptyObject]
        exact hih

/-- The edits of one child, in the order in which they are made. -/
def editsBelow (key : String) (edits : List (List String × Option Json)) :
    List (List String × Option Json) :=
  edits.filterMap fun e =>
    match e.1 with
    | first :: rest => if first = key then some (rest, e.2) else none
    | [] => none

theorem field?_editAll {edits : List (List String × Option Json)} {j : Json}
    (hp : ∀ e ∈ edits, e.1 ≠ []) (key : String) :
    (editAll edits j).field? key
      = (editsBelow key edits).foldl (fun child e => editBelow e.1 e.2 child) (j.field? key) := by
  induction edits generalizing j with
  | nil => rfl
  | cons e rest ih =>
    obtain ⟨path, value⟩ := e
    cases path with
    | nil => exact absurd rfl (hp ([], value) List.mem_cons_self)
    | cons first tail =>
      rw [editAll_cons, ih fun f hf => hp f (List.mem_cons_of_mem _ hf), field?_edit]
      by_cases hk : first = key
      · subst hk
        simp [editsBelow]
      · simp [editsBelow, hk]

end Json
end Comfort
