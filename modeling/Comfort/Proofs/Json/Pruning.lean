import Comfort.Proofs.Json.Canonical

/-!
What a delete takes away.

A delete removes the value at the end of its path, and on its way back every object that it leaves
without fields.  It undoes a write, parents included, where nothing but objects stands on the way.
No object without fields is left on the way, so the delete made once more finds nothing to do, and
what is no object stays unless it stands at the end of the path or below.

A delete does not ask whether there was anything to remove.  Where nothing stands at the end of the
path, an object without fields that was on the way before goes as if it had been left so, and it goes
just as in a delete of its own.
-/

namespace Comfort
namespace Json

variable {j x : Json} {key : String} {path q rest : List String} {fields : List (String × Json)}

/-- Whatever stands on the way to the end of the path is an object, and so is the value itself. -/
def OpenTo (path : List String) (j : Json) : Prop :=
  ∀ q x, q <+: path → q ≠ path → j.at? q = some x → x.IsObject

theorem OpenTo.isObject (h : OpenTo (key :: rest) j) : j.IsObject :=
  h [] j List.nil_prefix (List.cons_ne_nil key rest).symm rfl

theorem OpenTo.child {child : Json} (h : OpenTo (key :: rest) j)
    (hc : j.field? key = some child) : OpenTo rest child := by
  intro q x hq hne hx
  refine h (key :: q) x (List.cons_prefix_cons.2 ⟨rfl, hq⟩) ?_ ?_
  · exact fun heq => hne (List.cons.inj heq).2
  · rw [at?_cons, hc]
    exact hx

theorem openTo_emptyObject (path : List String) : OpenTo path (obj []) := by
  intro q x _ _ hx
  cases q with
  | nil =>
    cases hx
    exact ⟨[], rfl⟩
  | cons key q => cases hx

/-! ## A write after a write, and a delete after a write -/

/-- The later of two writes counts. -/
theorem writeAt_writeAt (v w : Json) (path : List String) (j : Json) :
    writeAt w path (writeAt v path j) = writeAt w path j := by
  induction path generalizing j with
  | nil => rfl
  | cons key rest ih =>
    show obj (Keyed.set key (writeAt w rest ((Keyed.find? key (Keyed.set key _ _)).getD _)) _)
      = obj (Keyed.set key (writeAt w rest _) _)
    rw [Keyed.find?_set, if_pos rfl, Option.getD_some, ih]
    exact congrArg obj Keyed.set_set

theorem deleteBelow_of_deleteAt_eq {child child' : Json}
    (h : child'.deleteAt rest = child.deleteAt rest) :
    deleteBelow rest child' = deleteBelow rest child := by
  rw [deleteBelow, deleteBelow, h]

theorem deleteBelow_emptyObject (rest : List String) : deleteBelow rest (obj []) = none := by
  rw [deleteBelow, deleteAt_emptyObject]
  exact if_pos (.inr rfl)

/-- Deleting what was written leaves what deleting it at once would have left. -/
theorem deleteAt_writeAt (value : Json) (hp : path ≠ []) (h : OpenTo path j) :
    (writeAt value path j).deleteAt path = j.deleteAt path := by
  induction path generalizing j with
  | nil => exact absurd rfl hp
  | cons key rest ih =>
    obtain ⟨fields, rfl⟩ := h.isObject
    obtain ⟨child, hchild⟩ : ∃ child, (Keyed.find? key fields).getD (obj []) = child := ⟨_, rfl⟩
    have hwrite : writeAt value (key :: rest) (obj fields)
        = obj (Keyed.set key (writeAt value rest child) fields) := by
      rw [← hchild]
      rfl
    rw [hwrite, deleteAt_cons, deleteAt_cons, Keyed.find?_set, if_pos rfl, Option.map_some]
    by_cases hr : rest = []
    · -- The child is the value itself, and goes in either case.
      subst hr
      rw [deleteBelow, if_pos (.inl rfl)]
      cases Keyed.find? key fields with
      | none => exact congrArg obj Keyed.erase_set
      | some child => exact congrArg obj Keyed.erase_set
    · cases hf : Keyed.find? key fields with
      | none =>
        have hbelow := deleteBelow_of_deleteAt_eq (ih hr (openTo_emptyObject rest))
        rw [hf, Option.getD_none] at hchild
        rw [← hchild, hbelow, deleteBelow_emptyObject]
        show obj (Keyed.erase key _) = obj (if rest = [] then Keyed.erase key fields else fields)
        rw [if_neg hr, Keyed.erase_set, Keyed.erase_of_find?_eq_none hf]
      | some old =>
        have hbelow := deleteBelow_of_deleteAt_eq (ih hr (h.child hf))
        rw [hf, Option.getD_some] at hchild
        rw [← hchild, hbelow, Option.map_some]
        cases deleteBelow rest old with
        | none => exact congrArg obj Keyed.erase_set
        | some left => exact congrArg obj Keyed.set_set

/-! ## A delete after a delete -/

theorem deleteBelow_eq_some {child left : Json} (h : deleteBelow rest child = some left) :
    rest ≠ [] ∧ left.isEmptyObject = false ∧ child.deleteAt rest = left := by
  unfold deleteBelow at h
  split at h
  · cases h
  · next hcond =>
    rw [not_or] at hcond
    cases h
    exact ⟨hcond.1, Bool.eq_false_iff.2 hcond.2, rfl⟩

/-- A delete made twice leaves what it leaves when made once. -/
theorem deleteAt_deleteAt (path : List String) (j : Json) :
    (j.deleteAt path).deleteAt path = j.deleteAt path := by
  induction path generalizing j with
  | nil => rfl
  | cons key rest ih =>
    by_cases hj : j.IsObject
    · obtain ⟨fields, rfl⟩ := hj
      have hgone : (obj (Keyed.erase key fields)).deleteAt (key :: rest)
          = obj (Keyed.erase key fields) := by
        rw [deleteAt_cons, Keyed.find?_erase, if_pos rfl]
        show obj (if rest = [] then Keyed.erase key _ else _) = _
        rw [Keyed.erase_erase, ite_self]
      rw [deleteAt_cons]
      cases hf : Keyed.find? key fields with
      | none =>
        show (obj (if rest = [] then Keyed.erase key fields else fields)).deleteAt _
          = obj (if rest = [] then Keyed.erase key fields else fields)
        rw [Keyed.erase_of_find?_eq_none hf] at hgone ⊢
        rw [ite_self]
        exact hgone
      | some child =>
        rw [Option.map_some]
        cases hbelow : deleteBelow rest child with
        | none => exact hgone
        | some left =>
          obtain ⟨hr, hne, hleft⟩ := deleteBelow_eq_some hbelow
          have hagain : deleteBelow rest left = some left := by
            rw [← hleft, deleteBelow_of_deleteAt_eq (ih child), hbelow, hleft]
          show (obj (Keyed.set key left fields)).deleteAt _ = obj (Keyed.set key left fields)
          rw [deleteAt_cons, Keyed.find?_set, if_pos rfl, Option.map_some, hagain]
          exact congrArg obj Keyed.set_set
    · rw [deleteAt_of_not_isObject hj, deleteAt_of_not_isObject hj]

/-! ## What is left -/

theorem at?_deleteAt_cons (key : String) (rest q : List String) (j : Json) :
    (j.deleteAt (key :: rest)).at? (key :: q)
      = ((j.field? key).bind (deleteBelow rest)).bind (at? q) := by
  rw [at?_cons, field?_deleteAt, if_pos rfl]

/-- No object without fields is left on the way to what was deleted. -/
theorem at?_deleteAt_ne_emptyObject (hq : q ≠ []) (hpre : q <+: path) (hne : q ≠ path) (j : Json) :
    (j.deleteAt path).at? q ≠ some (obj []) := by
  induction path generalizing q j with
  | nil => exact absurd (List.prefix_nil.1 hpre) hq
  | cons key rest ih =>
    cases q with
    | nil => exact absurd rfl hq
    | cons k q =>
      obtain ⟨rfl, htail⟩ := List.cons_prefix_cons.1 hpre
      rw [at?_deleteAt_cons]
      cases j.field? k with
      | none => exact nofun
      | some child =>
        rw [Option.bind_some]
        cases hbelow : deleteBelow rest child with
        | none => exact nofun
        | some left =>
          obtain ⟨-, hleft, hdelete⟩ := deleteBelow_eq_some hbelow
          rw [Option.bind_some]
          by_cases hend : q = []
          · subst hend
            intro heq
            rw [Option.some.inj heq] at hleft
            cases hleft
          · rw [← hdelete]
            exact ih hend htail (fun heq => hne (by rw [heq])) child

/-- What is no object stays, unless it stands at the end of the path or below. -/
theorem at?_deleteAt_of_not_isObject (hpre : ¬ path <+: q) (hx : ¬ x.IsObject)
    (h : j.at? q = some x) : (j.deleteAt path).at? q = some x := by
  induction path generalizing q j with
  | nil => exact absurd List.nil_prefix hpre
  | cons key rest ih =>
    cases q with
    | nil =>
      cases h
      rw [deleteAt_of_not_isObject hx]
      rfl
    | cons k q =>
      by_cases hk : key = k
      · subst hk
        have hrest : ¬ rest <+: q := fun hr => hpre (List.cons_prefix_cons.2 ⟨rfl, hr⟩)
        rw [at?_cons] at h
        rw [at?_deleteAt_cons]
        obtain ⟨child, hchild, hat⟩ := Option.bind_eq_some_iff.1 h
        have hkept := ih hrest hat
        have hbelow : deleteBelow rest child = some (child.deleteAt rest) := by
          refine if_neg ?_
          rintro (rfl | hempty)
          · exact hrest List.nil_prefix
          · -- An object without fields has nothing at `q` but itself.
            by_cases hend : q = []
            · subst hend
              rw [Option.some.inj hkept] at hempty
              cases x with
              | obj fields => exact hx ⟨fields, rfl⟩
              | _ => cases hempty
            · rw [at?_emptyObject hend hempty] at hkept
              cases hkept
        rw [hchild, Option.bind_some, hbelow]
        exact hkept
      · rw [at?_cons, field?_deleteAt, if_neg hk]
        exact h

/-! ## Nothing at the end of the path -/

/-- With nothing at its end and no object without fields on its way, a delete changes nothing. -/
theorem deleteAt_eq_self (hj : j.Canonical) (h : j.at? path = none)
    (hway : ∀ q, q ≠ [] → q <+: path → j.at? q ≠ some (obj [])) : j.deleteAt path = j := by
  induction path generalizing j with
  | nil => cases h
  | cons key rest ih =>
    by_cases hobj : j.IsObject
    · obtain ⟨fields, rfl⟩ := hobj
      rw [deleteAt_cons]
      cases hf : Keyed.find? key fields with
      | none =>
        show obj (if rest = [] then Keyed.erase key fields else fields) = obj fields
        rw [Keyed.erase_of_find?_eq_none hf, ite_self]
      | some child =>
        have hchild : (obj fields).field? key = some child := hf
        have hrest : child.at? rest = none := by
          rw [at?_cons, hchild] at h
          exact h
        have hne : rest ≠ [] := by
          rintro rfl
          cases hrest
        have hsame : child.deleteAt rest = child := by
          refine ih (hj.field? hchild) hrest fun q hq hpre hempty => ?_
          refine hway (key :: q) (List.cons_ne_nil key q) (List.cons_prefix_cons.2 ⟨rfl, hpre⟩) ?_
          rw [at?_cons, hchild]
          exact hempty
        have hkept : child.isEmptyObject ≠ true := by
          intro hempty
          have hpre : [key] <+: key :: rest := List.cons_prefix_cons.2 ⟨rfl, List.nil_prefix⟩
          refine hway [key] (List.cons_ne_nil key []) hpre ?_
          match child, hempty with
          | obj [], _ => rw [at?_cons, hchild]; rfl
        have hbelow : deleteBelow rest child = some child := by
          rw [deleteBelow, hsame, if_neg (not_or.2 ⟨hne, hkept⟩)]
        rw [Option.map_some, hbelow]
        exact congrArg obj (Keyed.set_of_find? hj.ascending hf)
    · exact deleteAt_of_not_isObject hobj (key :: rest)

/-- An object without fields on the way is deleted, whatever comes after it. -/
theorem deleteAt_of_emptyObject (hq : q ≠ []) (hpre : q <+: path)
    (h : j.at? q = some (obj [])) : j.deleteAt path = j.deleteAt q := by
  induction path generalizing j q with
  | nil => exact absurd (List.prefix_nil.1 hpre) hq
  | cons key rest ih =>
    cases q with
    | nil => exact absurd rfl hq
    | cons k q =>
      obtain ⟨rfl, htail⟩ := List.cons_prefix_cons.1 hpre
      by_cases hobj : j.IsObject
      · obtain ⟨fields, rfl⟩ := hobj
        obtain ⟨child, hchild, hat⟩ := Option.bind_eq_some_iff.1 h
        have hf : Keyed.find? k fields = some child := hchild
        have hbelow : deleteBelow rest child = deleteBelow q child := by
          by_cases hend : q = []
          · subst hend
            cases hat
            rw [deleteBelow_emptyObject, deleteBelow_emptyObject]
          · have hne : rest ≠ [] := fun hr => hend (List.prefix_nil.1 (hr ▸ htail))
            rw [deleteBelow, deleteBelow, ih hend htail hat]
            simp only [hend, hne, false_or]
        rw [deleteAt_cons, deleteAt_cons, hf, Option.map_some, Option.map_some, hbelow]
        cases deleteBelow q child <;> rfl
      · rw [deleteAt_of_not_isObject hobj, deleteAt_of_not_isObject hobj]

/-- With nothing at its end, a delete changes nothing just where no object without fields stands on
its way. -/
theorem deleteAt_eq_self_iff (hj : j.Canonical) (h : j.at? path = none) :
    j.deleteAt path = j ↔ ∀ q, q ≠ [] → q <+: path → j.at? q ≠ some (obj []) := by
  constructor
  · intro hsame q hq hpre
    by_cases hend : q = path
    · rw [hend, h]
      exact nofun
    · rw [← hsame]
      exact at?_deleteAt_ne_emptyObject hq hpre hend j
  · exact deleteAt_eq_self hj h

end Json
end Comfort
