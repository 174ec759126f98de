import Comfort.Commit.Plan
import Comfort.Proofs.Store.Reachable

/-!
The edits that a record is laid out as.

The pointers of a commit are joined from fixed names and from ids.  An id may have slashes, or be
empty, and then it stands for several segments or for none.  With that in mind the changes of a
commit are edits at paths, and everything that is written for a stage lies below the stages.
-/

namespace Comfort
namespace Json

/-- Edits of a child, as edits of the tree. -/
def under (stem : List String) (edits : List (List String × Option Json)) :
    List (List String × Option Json) :=
  edits.map fun e => (stem ++ e.1, e.2)

@[simp] theorem under_cons (stem : List String) (e : List String × Option Json)
    (edits : List (List String × Option Json)) :
    under stem (e :: edits) = (stem ++ e.1, e.2) :: under stem edits := rfl

theorem under_append (stem : List String) (a b : List (List String × Option Json)) :
    under stem (a ++ b) = under stem a ++ under stem b :=
  List.map_append

theorem under_under (stem inner : List String) (edits : List (List String × Option Json)) :
    under stem (under inner edits) = under (stem ++ inner) edits := by
  simp [under]

end Json

namespace Commit

open Json (under under_cons under_append under_under)

/-- The segments that an id stands for in a pointer. -/
def idPath (id : String) : List String :=
  Text.parts '/' id.toList

def elementEdits (element : StageElement) : List (List String × Option Json) :=
  let style := (["style"], some (.str element.style.name))
  match element.style with
  | .dialogue =>
    let speaker := if element.speakerUnknown then none else element.speaker
    style :: (speaker.map fun id => (["speech", "speaker"], some (.str id))).toList
      ++ [(["speech", "text", "text"], some (.str element.text))]
  | .text => [style, (["text", "text"], some (.str element.text))]

def momentEdits (j : Nat) (element : StageElement) : List (List String × Option Json) :=
  (["order"], some (.nat j)) :: under ["element"] (elementEdits element)

def momentsEdits (moteId : String) (i : Nat) : Nat → List StageElement →
    List (List String × Option Json)
  | _, [] => []
  | j, element :: rest =>
    under (idPath (momentId moteId i j element)) (momentEdits j element)
      ++ momentsEdits moteId i (j + 1) rest

def stageEdits (moteId : String) (i : Nat) (stage : Stage) : List (List String × Option Json) :=
  (["name"], some (.str stage.name)) :: (["order"], some (.nat i))
    :: under ["moments"] (momentsEdits moteId i 0 stage.elements)

def stagesEdits (moteId : String) : Nat → List Stage → List (List String × Option Json)
  | _, [] => []
  | i, stage :: rest =>
    under (idPath (stageId moteId i stage)) (stageEdits moteId i stage)
      ++ stagesEdits moteId (i + 1) rest

/-- The comments as they are stored. -/
def commentsJson (r : Record) : Option Json :=
  if r.comments.isEmpty then none else some (.strings r.comments)

def recordEdits (r : Record) (moteId : String) : List (List String × Option Json) :=
  [(["name", "text"], r.name.map .str), (["description", "text"], r.description.map .str),
    (["unlocked_description", "text"], r.unlockedDescription.map .str),
    (["wip", "comments"], commentsJson r), (["stages"], none)]
  ++ under ["stages"] (stagesEdits moteId 0 r.stages)

/-- All changes of a commit. -/
def changes (r : Record) (moteId : String) : List Change :=
  (scalarSteps r ++ questSteps r moteId).map Step.change

/-! ## Changes as edits -/

/-- The changes can be queued, and they are the edits. -/
def LaidOut (changes : List Change) (edits : List (List String × Option Json)) : Prop :=
  (∀ c ∈ changes, c.Valid) ∧ changes.map Change.asEdit = edits

theorem laidOut_nil : LaidOut [] [] := by
  constructor
  · intro c hc
    cases hc
  · rfl

theorem LaidOut.cons {c : Change} {e : List String × Option Json} {changes : List Change}
    {edits : List (List String × Option Json)} (hc : LaidOut [c] [e]) (h : LaidOut changes edits) :
    LaidOut (c :: changes) (e :: edits) := by
  constructor
  · intro d hd
    rcases List.mem_cons.1 hd with rfl | hd
    · exact hc.1 d List.mem_cons_self
    · exact h.1 d hd
  · have he : c.asEdit = e := (List.cons.inj hc.2).1
    rw [List.map_cons, he, h.2]

theorem LaidOut.append {a b : List Change} {c d : List (List String × Option Json)}
    (ha : LaidOut a c) (hb : LaidOut b d) : LaidOut (a ++ b) (c ++ d) := by
  constructor
  · intro e he
    rcases List.mem_append.1 he with he | he
    · exact ha.1 e he
    · exact hb.1 e he
  · rw [List.map_append, ha.2, hb.2]

theorem laidOut_of_fieldPath? {p : Pointer} {path : List String} (hp : p.fieldPath? = some path)
    {value : Option Json} (hv : ∀ v, value = some v → v.Canonical) :
    LaidOut [{ pointer := p, value := value }] [(path, value)] := by
  constructor
  · intro c hc
    rw [List.mem_singleton.1 hc]
    exact ⟨by rw [hp]; rfl, hv⟩
  · rw [List.map_singleton, Change.asEdit, hp]
    rfl

theorem laidOut_write {p : Pointer} {path : List String} (hp : p.fieldPath? = some path)
    {value : Json} (hv : value.Canonical) : LaidOut [write p value] [(path, some value)] :=
  laidOut_of_fieldPath? hp fun v h => by cases h; exact hv

theorem laidOut_text {p : Pointer} {path : List String} (hp : p.fieldPath? = some path)
    (text : Option String) : LaidOut [(textStep p text).change] [(path, text.map .str)] := by
  refine laidOut_of_fieldPath? hp fun v hv => ?_
  obtain ⟨s, _, rfl⟩ := Option.map_eq_some_iff.1 hv
  trivial

section Under

variable {p : Pointer} {path : List String} (hp : p.fieldPath? = some path)

include hp

theorem laidOut_elementChanges (element : StageElement) :
    LaidOut (elementChanges p element) (under path (elementEdits element)) := by
  have hstyle := laidOut_write (Pointer.fieldPath?_join hp "style")
    (show (Json.str element.style.name).Canonical from trivial)
  cases hs : element.style with
  | dialogue =>
    have hspeech := Pointer.fieldPath?_join hp "speech"
    have htext := laidOut_write
      (Pointer.fieldPath?_join (Pointer.fieldPath?_join hspeech "text") "text")
      (show (Json.str element.text).Canonical from trivial)
    have hspeaker : ∀ speaker : Option String,
        LaidOut (speaker.map fun id => write ((p.join "speech").join "speaker") (.str id)).toList
          (under path (speaker.map fun id => (["speech", "speaker"], some (.str id))).toList) := by
      intro speaker
      cases speaker with
      | none => exact laidOut_nil
      | some id =>
        have := laidOut_write (Pointer.fieldPath?_join hspeech "speaker")
          (show (Json.str id).Canonical from trivial)
        rwa [List.append_assoc] at this
    unfold elementChanges elementEdits
    rw [hs] at hstyle ⊢
    rw [List.append_assoc, List.append_assoc] at htext
    refine .cons hstyle ?_
    show LaidOut (_ ++ _) (under path (_ ++ _))
    rw [under_append]
    exact .append (hspeaker _) htext
  | text =>
    have htext := laidOut_write (Pointer.fieldPath?_join (Pointer.fieldPath?_join hp "text") "text")
      (show (Json.str element.text).Canonical from trivial)
    unfold elementChanges elementEdits
    rw [hs] at hstyle ⊢
    rw [List.append_assoc] at htext
    exact .cons hstyle htext

theorem laidOut_momentChanges (moteId : String) (i j : Nat) (element : StageElement) :
    LaidOut (momentChanges p moteId i j element)
      (under (path ++ ["moments"])
        (under (idPath (momentId moteId i j element)) (momentEdits j element))) := by
  have hmoment := Pointer.fieldPath?_join (Pointer.fieldPath?_join hp "moments")
    (momentId moteId i j element)
  have horder := laidOut_write (Pointer.fieldPath?_join hmoment "order")
    (show (Json.nat j).Canonical from trivial)
  have helement := laidOut_elementChanges (Pointer.fieldPath?_join hmoment "element") element
  rw [under_under, momentEdits, under_cons, under_under]
  exact .cons horder helement

theorem laidOut_elementsChanges (moteId : String) (i j : Nat) (elements : List StageElement) :
    LaidOut (elementsChanges p moteId i j elements)
      (under (path ++ ["moments"]) (momentsEdits moteId i j elements)) := by
  induction elements generalizing j with
  | nil => exact laidOut_nil
  | cons element rest ih =>
    rw [momentsEdits, under_append]
    exact .append (laidOut_momentChanges hp moteId i j element) (ih (j + 1))

end Under

theorem map_change_quiet (changes : List Change) :
    (changes.map quiet).map Step.change = changes := by
  rw [List.map_map]
  exact List.map_id changes

theorem laidOut_stageSteps (moteId : String) (i : Nat) (stage : Stage) :
    LaidOut ((stageSteps moteId i stage).map Step.change)
      (under ["stages"] (under (idPath (stageId moteId i stage)) (stageEdits moteId i stage))) := by
  have hstages : stagesPointer.fieldPath? = some ["stages"] := rfl
  have hstage := Pointer.fieldPath?_join hstages (stageId moteId i stage)
  have hname := laidOut_write (Pointer.fieldPath?_join hstage "name")
    (show (Json.str stage.name).Canonical from trivial)
  have horder := laidOut_write (Pointer.fieldPath?_join hstage "order")
    (show (Json.nat i).Canonical from trivial)
  have hmoments := laidOut_elementsChanges hstage moteId i 0 stage.elements
  rw [under_under, stageEdits, under_cons, under_cons, under_under, stageSteps, List.map_cons,
    List.map_cons, map_change_quiet]
  exact .cons hname (.cons horder hmoments)

theorem laidOut_stagesSteps (moteId : String) (i : Nat) (stages : List Stage) :
    LaidOut ((stagesSteps moteId i stages).map Step.change)
      (under ["stages"] (stagesEdits moteId i stages)) := by
  induction stages generalizing i with
  | nil => exact laidOut_nil
  | cons stage rest ih =>
    rw [stagesSteps, List.map_append, stagesEdits, under_append]
    exact .append (laidOut_stageSteps moteId i stage) (ih (i + 1))

/-- A commit makes the edits of its record. -/
theorem laidOut_changes (r : Record) (moteId : String) :
    LaidOut (changes r moteId) (recordEdits r moteId) := by
  have hname := laidOut_text (p := namePointer) rfl r.name
  have hdescription := laidOut_text (p := descriptionPointer) rfl r.description
  have hunlocked := laidOut_text (p := unlockedDescriptionPointer) rfl r.unlockedDescription
  have hcomments : LaidOut [(commentsStep r).change] [(["wip", "comments"], commentsJson r)] := by
    refine laidOut_of_fieldPath? rfl fun v hv => ?_
    split at hv
    · cases hv
    · cases hv
      exact Json.canonical_strings r.comments
  have hreplace : LaidOut [replaceStep.change] [(["stages"], none)] :=
    laidOut_of_fieldPath? rfl fun v hv => by cases hv
  have hstages := laidOut_stagesSteps moteId 0 r.stages
  exact .cons hname (.cons hdescription (.cons hunlocked (.cons hcomments (.cons hreplace hstages))))

end Commit
end Comfort
