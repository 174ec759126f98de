import Comfort.Json.Decode
import Comfort.Report.Basic

/-!
Reports as JSON.

The fields of a record are written in camel case, those of an element in snake case.  Absent values
are written as null.  A reader takes null or nothing at all for an absent value.
-/

namespace Comfort

open Json (record? listOf? optional? defaulted? string? nat? bool? strings?)

namespace TextRange

def toJson (r : TextRange) : Json :=
  .obj [("start", .nat r.start), ("end", .nat r.stop)]

def ofJson? (j : Json) : Option TextRange := do
  let [start, stop] ← record? ["start", "end"] 2 j | none
  let start ← start >>= nat?
  let stop ← stop >>= nat?
  return { start := start, stop := stop }

end TextRange

namespace Diagnostic

def toJson (d : Diagnostic) : Json :=
  .obj [("message", .str d.message), ("range", d.range.toJson)]

def ofJson? (j : Json) : Option Diagnostic := do
  let [message, range] ← record? ["message", "range"] 2 j | none
  let message ← message >>= string?
  let range ← range >>= TextRange.ofJson?
  return { message := message, range := range }

end Diagnostic

namespace Hover

def toJson (h : Hover) : Json :=
  .obj [("content", .str h.content), ("range", h.range.toJson)]

def ofJson? (j : Json) : Option Hover := do
  let [content, range] ← record? ["content", "range"] 2 j | none
  let content ← content >>= string?
  let range ← range >>= TextRange.ofJson?
  return { content := content, range := range }

end Hover

namespace Completion

def toJson (c : Completion) : Json :=
  .obj [("range", c.range.toJson), ("candidates", .strings c.candidates)]

def ofJson? (j : Json) : Option Completion := do
  let [range, candidates] ← record? ["range", "candidates"] 2 j | none
  let range ← range >>= TextRange.ofJson?
  let candidates ← candidates >>= strings?
  return { range := range, candidates := candidates }

end Completion

namespace Word

def toJson (w : Word) : Json :=
  .obj [("text", .str w.text), ("range", w.range.toJson)]

def ofJson? (j : Json) : Option Word := do
  let [text, range] ← record? ["text", "range"] 2 j | none
  let text ← text >>= string?
  let range ← range >>= TextRange.ofJson?
  return { text := text, range := range }

end Word

namespace Edit

def toJson (e : Edit) : Json :=
  .obj [("range", e.range.toJson), ("new_text", .str e.newText)]

def ofJson? (j : Json) : Option Edit := do
  let [range, newText] ← record? ["range", "new_text"] 2 j | none
  let range ← range >>= TextRange.ofJson?
  let newText ← newText >>= string?
  return { range := range, newText := newText }

end Edit

/-! ## The record -/

namespace ElementStyle

def toJson (s : ElementStyle) : Json :=
  .str s.name

/-- A style is given by its name, or by an object whose only field has that name and no value. -/
def ofJson? : Json → Option ElementStyle
  | .str name => ofName? name
  | .obj [(name, .null)] => ofName? name
  | _ => none

end ElementStyle

namespace StageElement

def toJson (e : StageElement) : Json :=
  .obj
    [("style", e.style.toJson), ("id", .ofOption .str e.id), ("speaker", .ofOption .str e.speaker),
      ("speaker_unknown", .bool e.speakerUnknown), ("text", .str e.text)]

def ofJson? (j : Json) : Option StageElement := do
  let [style, id, speaker, speakerUnknown, text] ←
    record? ["style", "id", "speaker", "speaker_unknown", "text"] 5 j | none
  let style ← style >>= ElementStyle.ofJson?
  let id ← optional? string? id
  let speaker ← optional? string? speaker
  let speakerUnknown ← defaulted? false bool? speakerUnknown
  let text ← text >>= string?
  return { style := style, id := id, speaker := speaker, speakerUnknown := speakerUnknown,
           text := text }

end StageElement

namespace Stage

def toJson (s : Stage) : Json :=
  .obj
    [("id", .ofOption .str s.id), ("name", .str s.name),
      ("elements", .arr (s.elements.map StageElement.toJson))]

def ofJson? (j : Json) : Option Stage := do
  let [id, name, elements] ← record? ["id", "name", "elements"] 3 j | none
  let id ← optional? string? id
  let name ← name >>= string?
  let elements ← elements >>= listOf? StageElement.ofJson?
  return { id := id, name := name, elements := elements }

end Stage

namespace Record

def toJson (r : Record) : Json :=
  .obj
    [("name", .ofOption .str r.name), ("description", .ofOption .str r.description),
      ("unlockedDescription", .ofOption .str r.unlockedDescription),
      ("comments", .strings r.comments), ("stages", .arr (r.stages.map Stage.toJson))]

def ofJson? (j : Json) : Option Record := do
  let [name, description, unlockedDescription, comments, stages] ←
    record? ["name", "description", "unlockedDescription", "comments", "stages"] 5 j | none
  let name ← optional? string? name
  let description ← optional? string? description
  let unlockedDescription ← optional? string? unlockedDescription
  let comments ← comments >>= strings?
  let stages ← stages >>= listOf? Stage.ofJson?
  return { name := name, description := description, unlockedDescription := unlockedDescription,
           comments := comments, stages := stages }

end Record

/-! ## The report -/

namespace Report

def toJson (r : Report) : Json :=
  .obj
    [("diagnostics", .arr (r.diagnostics.map Diagnostic.toJson)),
      ("hovers", .arr (r.hovers.map Hover.toJson)), ("edits", .arr (r.edits.map Edit.toJson)),
      ("completions", .arr (r.completions.map Completion.toJson)),
      ("words", .arr (r.words.map Word.toJson)), ("parsed", r.record.toJson)]

def ofJson? (j : Json) : Option Report := do
  let [diagnostics, hovers, edits, completions, words, record] ←
    record? ["diagnostics", "hovers", "edits", "completions", "words", "parsed"] 6 j | none
  let diagnostics ← diagnostics >>= listOf? Diagnostic.ofJson?
  let hovers ← hovers >>= listOf? Hover.ofJson?
  let edits ← edits >>= listOf? Edit.ofJson?
  let completions ← completions >>= listOf? Completion.ofJson?
  let words ← words >>= listOf? Word.ofJson?
  let record ← record >>= Record.ofJson?
  return { diagnostics := diagnostics, hovers := hovers, edits := edits, completions := completions,
           words := words, record := record }

end Report
end Comfort
