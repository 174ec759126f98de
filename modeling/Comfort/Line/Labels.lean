import Comfort.Text.Blank
import Comfort.Text.Lowercase

/-!
The field labels that a document may use.
-/

namespace Comfort

/-- Trim a label and put it into lower case, the form in which labels are compared. -/
def labelKey (label : String) : String :=
  lowercase (trimmed label)

/-- A set of labels, held by their keys. -/
structure GlobalLabels where
  keys : List String
  deriving DecidableEq

namespace GlobalLabels

def ofList (labels : List String) : GlobalLabels :=
  { keys := labels.map labelKey }

def contains (labels : GlobalLabels) (label : String) : Bool :=
  labels.keys.contains (labelKey label)

def defaultNames : List String :=
  ["Name", "Description", "Unlocked Description", "Stage"]

def default : GlobalLabels :=
  ofList defaultNames

end GlobalLabels
end Comfort
