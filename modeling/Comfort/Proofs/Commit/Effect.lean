import Comfort.Proofs.Commit.Layout

/-!
What the edits of a record do to each field of the data.

A commit edits five fields at the top of the data and no other.  Four of them keep what else stands
beside the value that is written, and the stages are replaced: what they become does not depend on
what they were.
-/

namespace Comfort
namespace Json

theorem editsBelow_append (key : String) (a b : List (List String × Option Json)) :
    editsBelow key (a ++ b) = editsBelow key a ++ editsBelow key b :=
  List.filterMap_append

theorem editsBelow_under (key : String) (edits : List (List String × Option Json)) (k : String) :
    editsBelow k (under [key] edits) = if key = k then edits else [] := by
  induction edits with
  | nil => simp [under, editsBelow]
  | cons e rest ih =>
    obtain ⟨path, value⟩ := e
    by_cases hk : key = k
    · rw [if_pos hk] at ih ⊢
      subst hk
      simp only [editsBelow, under_cons, List.cons_append, List.nil_append, List.filterMap_cons,
        if_pos] at ih ⊢
      rw [ih]
    · rw [if_neg hk] at ih ⊢
      simp only [editsBelow, under_cons, List.cons_append, List.nil_append, List.filterMap_cons,
        if_neg hk] at ih ⊢
      exact ih

/-- No object is left empty by an edit below it. -/
theorem editBelow_ne_emptyObject (key : String) (rest : List String) (value child : Option Json) :
    editBelow (key :: rest) value child ≠ some (obj []) := by
  intro h
  cases value with
  | some value => exact Keyed.set_ne_nil (obj.inj (Option.some.inj h))
  | none =>
    obtain ⟨c, _, hc⟩ := Option.bind_eq_some_iff.1 h
    unfold deleteBelow at hc
    split at hc
    · cases hc
    · next hne =>
      rw [Option.some.inj hc] at hne
      exact hne (.inr rfl)

/-- Writes below a child make an object of it first, where it is none. -/
theorem foldl_editBelow {edits : List (List String × Option Json)}
    (hw : ∀ e ∈ edits, e.2.isSome) (child : Option Json) :
    edits.foldl (fun child e => editBelow e.1 e.2 child) child
      = if edits = [] then child else some (editAll edits (child.getD (obj []))) := by
  induction edits generalizing child with
  | nil => rfl
  | cons e rest ih =>
    obtain ⟨path, value⟩ := e
    obtain ⟨v, rfl⟩ := Option.isSome_iff_exists.1 (hw (path, value) List.mem_cons_self)
    rw [if_neg (List.cons_ne_nil _ _), List.foldl_cons, ih fun f hf => hw f (List.mem_cons_of_mem _ hf)]
    show (if rest = [] then some (writeAt v path (child.getD (obj [])))
      else some (editAll rest (writeAt v path (child.getD (obj []))))) = _
    split
    · next hr =>
      rw [hr]
      rfl
    · rfl

end Json

namespace Commit

open Json (under editBelow editsBelow editAll)

variable (r : Record) (moteId : String)

/-! ## Writes of stages -/

theorem isSome_of_mem_under {stem : List String} {edits : List (List String × Option Json)}
    (h : ∀ e ∈ edits, e.2.isSome) : ∀ e ∈ under stem edits, e.2.isSome := by
  intro e he
  obtain ⟨f, hf, rfl⟩ := List.mem_map.1 he
  exact h f hf

theorem isSome_elementEdits (element : StageElement) : ∀ e ∈ elementEdits element, e.2.isSome := by
  intro e he
  unfold elementEdits at he
  split at he
  · simp only [List.cons_append, List.mem_cons, List.mem_append, Option.mem_toList,
      Option.map_eq_some_iff, List.not_mem_nil, or_false] at he
    rcases he with rfl | ⟨id, _, rfl⟩ | rfl <;> rfl
  · simp only [List.mem_cons, List.not_mem_nil, or_false] at he
    rcases he with rfl | rfl <;> rfl

theorem isSome_momentEdits (j : Nat) (element : StageElement) :
    ∀ e ∈ momentEdits j element, e.2.isSome := by
  intro e he
  rcases List.mem_cons.1 he with rfl | he
  · rfl
  · exact isSome_of_mem_under (isSome_elementEdits element) e he

theorem isSome_momentsEdits (i j : Nat) (elements : List StageElement) :
    ∀ e ∈ momentsEdits moteId i j elements, e.2.isSome := by
  induction elements generalizing j with
  | nil =>
    intro e he
    cases he
  | cons element rest ih =>
    intro e he
    rcases List.mem_append.1 he with he | he
    · exact isSome_of_mem_under (isSome_momentEdits j element) e he
    · exact ih (j + 1) e he

theorem isSome_stageEdits (i : Nat) (stage : Stage) :
    ∀ e ∈ stageEdits moteId i stage, e.2.isSome := by
  intro e he
  rcases List.mem_cons.1 he with rfl | he
  · rfl
  · rcases List.mem_cons.1 he with rfl | he
    · rfl
    · exact isSome_of_mem_under (isSome_momentsEdits moteId i 0 stage.elements) e he

theorem isSome_stagesEdits (i : Nat) (stages : List Stage) :
    ∀ e ∈ stagesEdits moteId i stages, e.2.isSome := by
  induction stages generalizing i with
  | nil =>
    intro e he
    cases he
  | cons stage rest ih =>
    intro e he
    rcases List.mem_append.1 he with he | he
    · exact isSome_of_mem_under (isSome_stageEdits moteId i stage) e he
    · exact ih (i + 1) e he

theorem stagesEdits_eq_nil {i : Nat} {stages : List Stage} :
    stagesEdits moteId i stages = [] ↔ stages = [] := by
  cases stages with
  | nil => exact iff_of_true rfl rfl
  | cons stage rest =>
    refine iff_of_false ?_ (List.cons_ne_nil _ _)
    simp [stagesEdits, stageEdits]

/-! ## The effect on one field -/

/-- The fields of the data in which a commit edits one field more. -/
def parentKeys : List String :=
  ["name", "description", "unlocked_description", "wip"]

/-- What the stages become. -/
def stagesValue : Option Json :=
  if r.stages = [] then none else some (editAll (stagesEdits moteId 0 r.stages) (.obj []))

/-- What a commit makes of the field `key` of the data. -/
def effect (key : String) (child : Option Json) : Option Json :=
  if key = "name" then editBelow ["text"] (r.name.map .str) child
  else if key = "description" then editBelow ["text"] (r.description.map .str) child
  else if key = "unlocked_description" then
    editBelow ["text"] (r.unlockedDescription.map .str) child
  else if key = "wip" then editBelow ["comments"] (commentsJson r) child
  else if key = "stages" then stagesValue r moteId
  else child

theorem path_ne_nil {e : List String × Option Json} (he : e ∈ recordEdits r moteId) :
    e.1 ≠ [] := by
  have h := laidOut_changes r moteId
  rw [← h.2] at he
  obtain ⟨c, hc, rfl⟩ := List.mem_map.1 he
  exact (h.1 c hc).path_ne_nil

theorem foldl_stagesEdits :
    (stagesEdits moteId 0 r.stages).foldl (fun child e => editBelow e.1 e.2 child) none
      = stagesValue r moteId := by
  rw [Json.foldl_editBelow (isSome_stagesEdits moteId 0 r.stages), stagesValue]
  simp only [stagesEdits_eq_nil]
  rfl

theorem field?_recordEdits (data : Json) (key : String) :
    (editAll (recordEdits r moteId) data).field? key = effect r moteId key (data.field? key) := by
  rw [Json.field?_editAll fun e he => path_ne_nil r moteId he, recordEdits, Json.editsBelow_append,
    List.foldl_append, Json.editsBelow_under]
  unfold effect
  by_cases hstages : key = "stages"
  · subst hstages
    have hdelete : ∀ child : Option Json, editBelow [] none child = none := by
      intro child
      cases child <;> rfl
    simp only [editsBelow, List.filterMap_cons, List.filterMap_nil]
    simp [hdelete, foldl_stagesEdits]
  · rw [if_neg fun h => hstages h.symm]
    by_cases hname : key = "name"
    · subst hname
      simp [editsBelow]
    · by_cases hdescription : key = "description"
      · subst hdescription
        simp [editsBelow]
      · by_cases hunlocked : key = "unlocked_description"
        · subst hunlocked
          simp [editsBelow]
        · by_cases hwip : key = "wip"
          · subst hwip
            simp [editsBelow]
          · simp [editsBelow, hname, hdescription, hunlocked, hwip, hstages, eq_comm]

theorem effect_ne_emptyObject {key : String} (hk : key ∈ parentKeys) (child : Option Json) :
    effect r moteId key child ≠ some (.obj []) := by
  simp only [parentKeys, List.mem_cons, List.not_mem_nil, or_false] at hk
  rcases hk with rfl | rfl | rfl | rfl <;> exact Json.editBelow_ne_emptyObject _ _ _ _

end Commit
end Comfort
