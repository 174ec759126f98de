/-!
What a document says: its fields, its comments and its stages.
-/

namespace Comfort

inductive ElementStyle where
  | dialogue
  | text
  deriving DecidableEq

namespace ElementStyle

def name : ElementStyle → String
  | dialogue => "Dialogue"
  | text => "Text"

def ofName? (name : String) : Option ElementStyle :=
  if name = "Dialogue" then some dialogue
  else if name = "Text" then some text
  else none

end ElementStyle

structure StageElement where
  style : ElementStyle
  id : Option String
  /-- The id of the mote that speaks, or what the author wrote where that could not be resolved.  A
  narration has no speaker. -/
  speaker : Option String
  /-- The speaker was looked up and is not an allowed one. -/
  speakerUnknown : Bool
  text : String
  deriving DecidableEq

structure Stage where
  id : Option String
  name : String
  elements : List StageElement
  deriving DecidableEq

structure Record where
  name : Option String := none
  description : Option String := none
  unlockedDescription : Option String := none
  comments : List String := []
  stages : List Stage := []
  deriving DecidableEq

end Comfort
