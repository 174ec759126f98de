import Comfort.Proofs.Commit.Effect
import Mathlib.Data.List.Nodup

/-!
The tree of stages that a commit leaves.

Where the ids are plain and distinct, the edits of a stage stay below its own key, and the tree is
an object with one entry for each stage.  A stage has its name, its place among the stages and, if
there are any, its moments, and a moment has its place and its element.
-/

namespace Comfort
namespace Json

/-- Writes below one field of an object set that field. -/
theorem editAll_under {key : String} {edits : List (List String × Option Json)} (hne : edits ≠ [])
    (hw : ∀ e ∈ edits, e.2.isSome) {fields : List (String × Json)} (hf : Keyed.Ascending fields) :
    editAll (under [key] edits) (obj fields)
      = obj (Keyed.set key (editAll edits ((Keyed.find? key fields).getD (obj []))) fields) := by
  induction edits generalizing fields with
  | nil => exact absurd rfl hne
  | cons e rest ih =>
    obtain ⟨path, value⟩ := e
    obtain ⟨v, rfl⟩ := Option.isSome_iff_exists.1 (hw (path, value) List.mem_cons_self)
    let child := writeAt v path ((Keyed.find? key fields).getD (obj []))
    show editAll (under [key] rest) (obj (Keyed.set key child fields))
      = obj (Keyed.set key (editAll rest child) fields)
    by_cases hr : rest = []
    · rw [hr]
      rfl
    · rw [ih hr (fun f hfr => hw f (List.mem_cons_of_mem _ hfr)) (Keyed.ascending_set hf),
        Keyed.find?_set, if_pos rfl, Keyed.set_set]
      rfl

/-- Edits that make one new entry after the other. -/
theorem editAll_flatMap_under {items : List (String × List (List String × Option Json))}
    (hw : ∀ e ∈ items, e.2 ≠ [] ∧ ∀ f ∈ e.2, f.2.isSome) (hn : (items.map Prod.fst).Nodup)
    {fields : List (String × Json)} (hf : Keyed.Ascending fields)
    (hfresh : ∀ e ∈ items, Keyed.find? e.1 fields = none) :
    editAll (items.flatMap fun e => under [e.1] e.2) (obj fields)
      = obj ((items.map fun e => (e.1, editAll e.2 (obj []))).foldl
          (fun acc e => Keyed.set e.1 e.2 acc) fields) := by
  induction items generalizing fields with
  | nil => rfl
  | cons e rest ih =>
    obtain ⟨key, edits⟩ := e
    obtain ⟨hne, hsome⟩ := hw (key, edits) List.mem_cons_self
    have hnone : Keyed.find? key fields = none := hfresh (key, edits) List.mem_cons_self
    obtain ⟨hkey, hrest⟩ := List.nodup_cons.1 hn
    rw [List.flatMap_cons, editAll_append, editAll_under hne hsome hf, hnone]
    refine ih (fun f hm => hw f (List.mem_cons_of_mem _ hm)) hrest (Keyed.ascending_set hf)
      fun f hm => ?_
    have hother : key ≠ f.1 := fun h => hkey (List.mem_map.2 ⟨f, hm, h.symm⟩)
    rw [Keyed.find?_set, if_neg hother]
    exact hfresh f (List.mem_cons_of_mem _ hm)

end Json

/-- An id that is there and is one segment of a pointer. -/
def PlainId (id : Option String) : Prop :=
  ∃ s, id = some s ∧ s ≠ "" ∧ '/' ∉ s.toList

/-- A record whose stages, and the elements of each stage, have plain and distinct ids. -/
structure Record.Identified (r : Record) : Prop where
  stages : ∀ stage ∈ r.stages, PlainId stage.id
  stagesDistinct : (r.stages.map Stage.id).Nodup
  elements : ∀ stage ∈ r.stages, ∀ element ∈ stage.elements, PlainId element.id
  elementsDistinct : ∀ stage ∈ r.stages, (stage.elements.map StageElement.id).Nodup

namespace Commit

open Json (under editAll)

/-! ## The tree -/

def elementJson (element : StageElement) : Json :=
  match element.style with
  | .dialogue =>
    let speaker := if element.speakerUnknown then none else element.speaker
    let text := ("text", Json.obj [("text", .str element.text)])
    .obj
      [("speech", .obj ((speaker.map fun id => ("speaker", Json.str id)).toList ++ [text])),
        ("style", .str "Dialogue")]
  | .text => .obj [("style", .str "Text"), ("text", .obj [("text", .str element.text)])]

def momentJson (j : Nat) (element : StageElement) : Json :=
  .obj [("element", elementJson element), ("order", .nat j)]

/-- The moments of a stage under their ids, numbered from `j`. -/
def momentEntries : Nat → List StageElement → List (String × Json)
  | _, [] => []
  | j, element :: rest =>
    (element.id.getD "", momentJson j element) :: momentEntries (j + 1) rest

def stageJson (i : Nat) (stage : Stage) : Json :=
  let moments :=
    if stage.elements = [] then []
    else [("moments", Json.obj (Keyed.ofEntries (momentEntries 0 stage.elements)))]
  .obj (moments ++ [("name", .str stage.name), ("order", .nat i)])

/-- The stages under their ids, numbered from `i`. -/
def stageEntries : Nat → List Stage → List (String × Json)
  | _, [] => []
  | i, stage :: rest => (stage.id.getD "", stageJson i stage) :: stageEntries (i + 1) rest

/-- The tree of stages, if there are stages. -/
def stagesJson (r : Record) : Option Json :=
  if r.stages = [] then none else some (.obj (Keyed.ofEntries (stageEntries 0 r.stages)))

/-! ## The edits make the tree -/

theorem idPath_of_plain {id : Option String} (h : PlainId id) (other : String) :
    idPath (id.getD other) = [id.getD ""] := by
  obtain ⟨s, rfl, hne, hslash⟩ := h
  exact Text.parts_eq_singleton hne hslash

theorem getD_injective {a b : Option String} (ha : PlainId a) (hb : PlainId b)
    (h : a.getD "" = b.getD "") : a = b := by
  obtain ⟨s, rfl, _⟩ := ha
  obtain ⟨t, rfl, _⟩ := hb
  exact congrArg some h

theorem nodup_getD {ids : List (Option String)} (hp : ∀ id ∈ ids, PlainId id) (hn : ids.Nodup) :
    (ids.map fun id => id.getD "").Nodup :=
  List.Nodup.map_on (fun a ha b hb h => getD_injective (hp a ha) (hp b hb) h) hn

theorem editAll_elementEdits (element : StageElement) :
    editAll (elementEdits element) (.obj []) = elementJson element := by
  unfold elementEdits elementJson
  cases element.style with
  | dialogue =>
    dsimp only
    cases (if element.speakerUnknown = true then none else element.speaker) with
    | none => rfl
    | some id => rfl
  | text => rfl

theorem editAll_momentEdits (j : Nat) (element : StageElement) :
    editAll (momentEdits j element) (.obj []) = momentJson j element := by
  have hne : elementEdits element ≠ [] := by
    unfold elementEdits
    split <;> exact List.cons_ne_nil _ _
  have horder : Keyed.Ascending [("order", Json.nat j)] := List.pairwise_singleton _ _
  show editAll (under ["element"] (elementEdits element)) (.obj [("order", .nat j)]) = _
  rw [Json.editAll_under hne (isSome_elementEdits element) horder]
  show Json.obj (Keyed.set "element" (editAll (elementEdits element) (.obj [])) _) = _
  rw [editAll_elementEdits]
  rfl

/-- The moments of a stage and the edits of each. -/
def momentItems : Nat → List StageElement → List (String × List (List String × Option Json))
  | _, [] => []
  | j, element :: rest => (element.id.getD "", momentEdits j element) :: momentItems (j + 1) rest

theorem momentsEdits_eq_flatMap (moteId : String) (i j : Nat) {elements : List StageElement}
    (hp : ∀ element ∈ elements, PlainId element.id) :
    momentsEdits moteId i j elements
      = (momentItems j elements).flatMap fun e => under [e.1] e.2 := by
  induction elements generalizing j with
  | nil => rfl
  | cons element rest ih =>
    rw [momentsEdits, momentItems, List.flatMap_cons, momentId,
      idPath_of_plain (hp element List.mem_cons_self),
      ih (j + 1) fun e he => hp e (List.mem_cons_of_mem _ he)]

theorem map_momentItems (j : Nat) (elements : List StageElement) :
    (momentItems j elements).map (fun e => (e.1, editAll e.2 (.obj [])))
      = momentEntries j elements := by
  induction elements generalizing j with
  | nil => rfl
  | cons element rest ih =>
    rw [momentItems, List.map_cons, editAll_momentEdits, ih, momentEntries]

theorem fst_momentItems (j : Nat) (elements : List StageElement) :
    (momentItems j elements).map Prod.fst
      = (elements.map StageElement.id).map fun id => id.getD "" := by
  induction elements generalizing j with
  | nil => rfl
  | cons element rest ih => rw [momentItems, List.map_cons, ih, List.map_cons, List.map_cons]

theorem writes_momentItems (j : Nat) (elements : List StageElement) :
    ∀ e ∈ momentItems j elements, e.2 ≠ [] ∧ ∀ f ∈ e.2, f.2.isSome := by
  induction elements generalizing j with
  | nil =>
    intro e he
    cases he
  | cons element rest ih =>
    intro e he
    rcases List.mem_cons.1 he with rfl | he
    · exact ⟨List.cons_ne_nil _ _, isSome_momentEdits j element⟩
    · exact ih (j + 1) e he

theorem editAll_momentsEdits (moteId : String) (i : Nat) {elements : List StageElement}
    (hp : ∀ element ∈ elements, PlainId element.id)
    (hn : (elements.map StageElement.id).Nodup) :
    editAll (momentsEdits moteId i 0 elements) (.obj [])
      = .obj (Keyed.ofEntries (momentEntries 0 elements)) := by
  have hplain : ∀ id ∈ elements.map StageElement.id, PlainId id := by
    intro id hid
    obtain ⟨element, he, rfl⟩ := List.mem_map.1 hid
    exact hp element he
  have hkeys : ((momentItems 0 elements).map Prod.fst).Nodup := by
    rw [fst_momentItems]
    exact nodup_getD hplain hn
  rw [momentsEdits_eq_flatMap moteId i 0 hp,
    Json.editAll_flatMap_under (writes_momentItems 0 elements) hkeys List.Pairwise.nil
      (fun _ _ => rfl), map_momentItems]
  rfl

theorem momentsEdits_ne_nil (moteId : String) (i : Nat) {elements : List StageElement}
    (h : elements ≠ []) : momentsEdits moteId i 0 elements ≠ [] := by
  cases elements with
  | nil => exact absurd rfl h
  | cons element rest => simp [momentsEdits, momentEdits, under]

theorem editAll_stageEdits (moteId : String) (i : Nat) {stage : Stage}
    (hp : ∀ element ∈ stage.elements, PlainId element.id)
    (hn : (stage.elements.map StageElement.id).Nodup) :
    editAll (stageEdits moteId i stage) (.obj []) = stageJson i stage := by
  have hfields : Keyed.Ascending [("name", Json.str stage.name), ("order", Json.nat i)] := by
    simp only [Keyed.Ascending, List.pairwise_cons, List.mem_singleton, forall_eq,
      List.not_mem_nil, false_imp_iff, implies_true, List.Pairwise.nil, and_true]
    decide
  show editAll (under ["moments"] (momentsEdits moteId i 0 stage.elements))
    (.obj [("name", .str stage.name), ("order", .nat i)]) = _
  unfold stageJson
  by_cases hnil : stage.elements = []
  · rw [if_pos hnil, hnil]
    rfl
  · rw [if_neg hnil, Json.editAll_under (momentsEdits_ne_nil moteId i hnil)
      (isSome_momentsEdits moteId i 0 stage.elements) hfields]
    show Json.obj (Keyed.set "moments"
      (editAll (momentsEdits moteId i 0 stage.elements) (.obj [])) _) = _
    rw [editAll_momentsEdits moteId i hp hn]
    rfl

/-- The stages and the edits of each. -/
def stageItems (moteId : String) :
    Nat → List Stage → List (String × List (List String × Option Json))
  | _, [] => []
  | i, stage :: rest =>
    (stage.id.getD "", stageEdits moteId i stage) :: stageItems moteId (i + 1) rest

theorem stagesEdits_eq_flatMap (moteId : String) (i : Nat) {stages : List Stage}
    (hp : ∀ stage ∈ stages, PlainId stage.id) :
    stagesEdits moteId i stages
      = (stageItems moteId i stages).flatMap fun e => under [e.1] e.2 := by
  induction stages generalizing i with
  | nil => rfl
  | cons stage rest ih =>
    rw [stagesEdits, stageItems, List.flatMap_cons, stageId,
      idPath_of_plain (hp stage List.mem_cons_self),
      ih (i + 1) fun s hs => hp s (List.mem_cons_of_mem _ hs)]

theorem map_stageItems (moteId : String) (i : Nat) {stages : List Stage}
    (hp : ∀ stage ∈ stages, ∀ element ∈ stage.elements, PlainId element.id)
    (hn : ∀ stage ∈ stages, (stage.elements.map StageElement.id).Nodup) :
    (stageItems moteId i stages).map (fun e => (e.1, editAll e.2 (.obj [])))
      = stageEntries i stages := by
  induction stages generalizing i with
  | nil => rfl
  | cons stage rest ih =>
    rw [stageItems, List.map_cons,
      editAll_stageEdits moteId i (hp stage List.mem_cons_self) (hn stage List.mem_cons_self),
      ih (i + 1) (fun s hs => hp s (List.mem_cons_of_mem _ hs))
        (fun s hs => hn s (List.mem_cons_of_mem _ hs)), stageEntries]

theorem fst_stageItems (moteId : String) (i : Nat) (stages : List Stage) :
    (stageItems moteId i stages).map Prod.fst
      = (stages.map Stage.id).map fun id => id.getD "" := by
  induction stages generalizing i with
  | nil => rfl
  | cons stage rest ih => rw [stageItems, List.map_cons, ih, List.map_cons, List.map_cons]

theorem writes_stageItems (moteId : String) (i : Nat) (stages : List Stage) :
    ∀ e ∈ stageItems moteId i stages, e.2 ≠ [] ∧ ∀ f ∈ e.2, f.2.isSome := by
  induction stages generalizing i with
  | nil =>
    intro e he
    cases he
  | cons stage rest ih =>
    intro e he
    rcases List.mem_cons.1 he with rfl | he
    · exact ⟨List.cons_ne_nil _ _, isSome_stageEdits moteId i stage⟩
    · exact ih (i + 1) e he

/-- The stages of an identified record become its tree. -/
theorem stagesValue_eq_stagesJson {r : Record} (hr : r.Identified) (moteId : String) :
    stagesValue r moteId = stagesJson r := by
  have hplain : ∀ id ∈ r.stages.map Stage.id, PlainId id := by
    intro id hid
    obtain ⟨stage, hs, rfl⟩ := List.mem_map.1 hid
    exact hr.stages stage hs
  have hkeys : ((stageItems moteId 0 r.stages).map Prod.fst).Nodup := by
    rw [fst_stageItems]
    exact nodup_getD hplain hr.stagesDistinct
  unfold stagesValue stagesJson
  rw [stagesEdits_eq_flatMap moteId 0 hr.stages,
    Json.editAll_flatMap_under (writes_stageItems moteId 0 r.stages) hkeys List.Pairwise.nil
      (fun _ _ => rfl), map_stageItems moteId 0 hr.elements hr.elementsDistinct]
  rfl

end Commit
end Comfort
