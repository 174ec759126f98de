import Comfort.Session.Basic

/-!
Looking up the speaker of a dialogue.
-/

namespace Comfort

inductive SpeakerCheck where
  | resolved (id : String)
  /-- No allowed speaker has this name. -/
  | unknown
  /-- There is nothing to look speakers up in. -/
  | unchecked
  deriving DecidableEq

namespace Session

def dropRepeats : List String → List String
  | [] => []
  | [a] => [a]
  | a :: b :: rest => if a = b then dropRepeats (b :: rest) else a :: dropRepeats (b :: rest)

/-- The labels of all speakers in ascending order, each of them once. -/
def candidates (speakers : List Speaker) : List String :=
  dropRepeats ((speakers.map Speaker.label).mergeSort fun a b => decide (a ≤ b))

/-- Look a speaker up among the allowed ones and report what was found. -/
def lookUpSpeaker (s : Session) (speakers : List Speaker) (c : Capture) : Session × SpeakerCheck :=
  let s := s.complete c.range (candidates speakers)
  match speakers.find? fun speaker => speaker.isNamed c.value with
  | some speaker =>
    (s.hover (speaker.label ++ " (" ++ speaker.id ++ ")") c.range, .resolved speaker.id)
  | none => (s.diagnose ("Unknown speaker: " ++ c.value) c.range, .unknown)

/-- Without the quest schema speakers are not checked.  Any other fault of the schema stops the
reading. -/
def resolveSpeaker (ctx : ParseContext) (s : Session) (c : Capture) : Step SpeakerCheck :=
  match ctx.speakers with
  | .ok speakers =>
    let (s, check) := s.lookUpSpeaker speakers c
    .done s check
  | .error (.notFound _) => .done s .unchecked
  | .error cause => .failed s (.schema cause)

theorem cursor_lookUpSpeaker (s : Session) (speakers : List Speaker) (c : Capture) :
    (s.lookUpSpeaker speakers c).1.cursor = s.cursor := by
  simp only [lookUpSpeaker]
  split <;> rfl

theorem cursor_resolveSpeaker (ctx : ParseContext) (s : Session) (c : Capture) :
    (s.resolveSpeaker ctx c).state.cursor = s.cursor := by
  unfold resolveSpeaker
  split
  · exact cursor_lookUpSpeaker s _ c
  · rfl
  · rfl

end Session
end Comfort
