import Comfort.Ident.Derive
import Comfort.Report.Record
import Comfort.Store.Basic

/-!
What a commit writes.

A record is laid out as a list of steps, each of them one change of the mote's data.  The stages are
deleted before anything is written below them, so a stage or a moment that is not in the record does
not survive.
-/

namespace Comfort
namespace Commit

/-- A change, and what is traced before it is made. -/
structure Step where
  trace : Option String
  change : Change

def write (pointer : Pointer) (value : Json) : Change :=
  { pointer := pointer, value := some value }

def delete (pointer : Pointer) : Change :=
  { pointer := pointer, value := none }

/-- A change without a trace of its own. -/
def quiet (change : Change) : Step :=
  { trace := none, change := change }

def namePointer : Pointer := { text := "data/name/text" }

def descriptionPointer : Pointer := { text := "data/description/text" }

def unlockedDescriptionPointer : Pointer := { text := "data/unlocked_description/text" }

def commentsPointer : Pointer := { text := "data/wip/comments" }

def stagesPointer : Pointer := { text := "data/stages" }

/-- Write a text, or delete the one that is there. -/
def textStep (pointer : Pointer) (text : Option String) : Step :=
  { trace := some ("writing " ++ pointer.text)
    change := { pointer := pointer, value := text.map .str } }

def scalarSteps (r : Record) : List Step :=
  [textStep namePointer r.name, textStep descriptionPointer r.description,
    textStep unlockedDescriptionPointer r.unlockedDescription]

/-! ## Comments and stages -/

/-- The id under which stage number `i` is stored. -/
def stageId (moteId : String) (i : Nat) (stage : Stage) : String :=
  stage.id.getD (Ident.derive (moteId ++ "/stage/" ++ toString i))

/-- The id under which element number `j` of stage number `i` is stored. -/
def momentId (moteId : String) (i j : Nat) (element : StageElement) : String :=
  element.id.getD (Ident.derive (moteId ++ "/stage/" ++ toString i ++ "/moment/" ++ toString j))

/-- The fields of an element.  A speaker that is no allowed one is left out, as the field refers to
a mote. -/
def elementChanges (pointer : Pointer) (element : StageElement) : List Change :=
  let style := write (pointer.join "style") (.str element.style.name)
  match element.style with
  | .dialogue =>
    let speech := pointer.join "speech"
    let speaker := if element.speakerUnknown then none else element.speaker
    style :: (speaker.map fun id => write (speech.join "speaker") (.str id)).toList
      ++ [write ((speech.join "text").join "text") (.str element.text)]
  | .text => [style, write ((pointer.join "text").join "text") (.str element.text)]

def momentChanges (stage : Pointer) (moteId : String) (i j : Nat) (element : StageElement) :
    List Change :=
  let moment := (stage.join "moments").join (momentId moteId i j element)
  write (moment.join "order") (.nat j) :: elementChanges (moment.join "element") element

/-- Number the elements and write them one after the other. -/
def elementsChanges (stage : Pointer) (moteId : String) (i : Nat) : Nat → List StageElement →
    List Change
  | _, [] => []
  | j, element :: rest =>
    momentChanges stage moteId i j element ++ elementsChanges stage moteId i (j + 1) rest

def stageSteps (moteId : String) (i : Nat) (stage : Stage) : List Step :=
  let id := stageId moteId i stage
  let base := stagesPointer.join id
  { trace := some ("writing stage " ++ id), change := write (base.join "name") (.str stage.name) }
    :: quiet (write (base.join "order") (.nat i))
    :: (elementsChanges base moteId i 0 stage.elements).map quiet

/-- Number the stages and write them one after the other. -/
def stagesSteps (moteId : String) : Nat → List Stage → List Step
  | _, [] => []
  | i, stage :: rest => stageSteps moteId i stage ++ stagesSteps moteId (i + 1) rest

def commentsStep (r : Record) : Step :=
  { trace := some ("writing " ++ commentsPointer.text)
    change :=
      { pointer := commentsPointer
        value := if r.comments.isEmpty then none else some (.strings r.comments) } }

def replaceStep : Step :=
  { trace := some ("replacing " ++ stagesPointer.text), change := delete stagesPointer }

def questSteps (r : Record) (moteId : String) : List Step :=
  commentsStep r :: replaceStep :: stagesSteps moteId 0 r.stages

end Commit
end Comfort
