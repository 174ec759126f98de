import Comfort.Proofs.Commit.Stored

/-!
What a commit leaves of the elements with one key.

A stage and an element can have the same ids as others before them.  Their fields are then written
one over the other, at one place of the tree: what stands there has of each field the value that was
written last, whoever wrote it.  So it is the object of the last element only when no other of them
wrote a field that the last one leaves out.
-/

namespace Comfort
namespace Json

theorem at?_append (p q : List String) (j : Json) :
    at? (p ++ q) j = (at? p j).bind (at? q) := by
  induction p generalizing j with
  | nil => rfl
  | cons key rest ih =>
    rw [List.cons_append, at?_cons, at?_cons]
    cases j.field? key with
    | none => rfl
    | some child => exact ih child

/-- The edits of the child at the end of a path, in the order in which they are made. -/
def editsUnder (path : List String) (edits : List (List String × Option Json)) :
    List (List String × Option Json) :=
  path.foldl (fun edits key => editsBelow key edits) edits

theorem editsUnder_cons (key : String) (rest : List String)
    (edits : List (List String × Option Json)) :
    editsUnder (key :: rest) edits = editsUnder rest (editsBelow key edits) := rfl

theorem editsUnder_append (path : List String) (a b : List (List String × Option Json)) :
    editsUnder path (a ++ b) = editsUnder path a ++ editsUnder path b := by
  induction path generalizing a b with
  | nil => rfl
  | cons key rest ih =>
    rw [editsUnder_cons, editsBelow_append, ih, editsUnder_cons, editsUnder_cons]

theorem editsUnder_nil (path : List String) : editsUnder path [] = [] := by
  induction path with
  | nil => rfl
  | cons key rest ih => exact ih

theorem editsUnder_under (k key : String) (rest : List String)
    (edits : List (List String × Option Json)) :
    editsUnder (key :: rest) (under [k] edits)
      = if k = key then editsUnder rest edits else [] := by
  rw [editsUnder_cons, editsBelow_under]
  split
  · rfl
  · exact editsUnder_nil rest

theorem mem_of_mem_editsBelow {key : String} {edits : List (List String × Option Json)}
    {e : List String × Option Json} (h : e ∈ editsBelow key edits) :
    (key :: e.1, e.2) ∈ edits := by
  obtain ⟨⟨path, value⟩, hmem, hbelow⟩ := List.mem_filterMap.1 h
  cases path with
  | nil => cases hbelow
  | cons first rest =>
    dsimp only at hbelow
    split at hbelow
    · next hfirst =>
      rw [← Option.some.inj hbelow, ← hfirst]
      exact hmem
    · cases hbelow

/-- Writes into an empty object, none of which stops on the way to the end of a path, make at the
end what the writes below it make. -/
theorem at?_editAll_of_writes {path : List String} {edits : List (List String × Option Json)}
    (hne : edits ≠ []) (hw : ∀ e ∈ edits, e.2.isSome) (hp : ∀ e ∈ edits, ¬ e.1 <+: path) :
    at? path (editAll edits (obj []))
      = if editsUnder path edits = [] then none
        else some (editAll (editsUnder path edits) (obj [])) := by
  induction path generalizing edits with
  | nil =>
    show some (editAll edits (obj [])) = if edits = [] then none else some (editAll edits (obj []))
    rw [if_neg hne]
  | cons key rest ih =>
    have hnil : ∀ e ∈ edits, e.1 ≠ [] := by
      intro e he hpath
      refine hp e he ?_
      rw [hpath]
      exact List.nil_prefix
    have hbelow : ∀ e ∈ editsBelow key edits, e.2.isSome := fun e he =>
      hw (key :: e.1, e.2) (mem_of_mem_editsBelow he)
    rw [at?_cons, field?_editAll hnil, foldl_editBelow hbelow, editsUnder_cons]
    by_cases hempty : editsBelow key edits = []
    · rw [if_pos hempty, hempty, editsUnder_nil, if_pos rfl]
      rfl
    · rw [if_neg hempty]
      refine ih hempty hbelow fun e he hprefix => ?_
      exact hp _ (mem_of_mem_editsBelow he) (List.cons_prefix_cons.2 ⟨rfl, hprefix⟩)

end Json

/-- A record whose stages and elements have plain ids, which need not be distinct. -/
structure Record.Plain (r : Record) : Prop where
  stages : ∀ stage ∈ r.stages, PlainId stage.id
  elements : ∀ stage ∈ r.stages, ∀ element ∈ stage.elements, PlainId element.id

/-- The elements with an id in the stages with an id, in the order of the record. -/
def elementsAt (stage moment : String) (stages : List Stage) : List StageElement :=
  (stages.filter fun s => s.id = some stage).flatMap fun s =>
    s.elements.filter fun e => e.id = some moment

theorem elementsAt_cons (stage moment : String) (s : Stage) (rest : List Stage) :
    elementsAt stage moment (s :: rest)
      = (if s.id = some stage then s.elements.filter fun e => e.id = some moment else [])
        ++ elementsAt stage moment rest := by
  unfold elementsAt
  rw [List.filter_cons]
  by_cases hid : s.id = some stage
  · simp only [hid, decide_true, if_true, List.flatMap_cons]
  · simp only [hid, decide_false, Bool.false_eq_true, if_false, List.nil_append]

/-- Where the element of a moment is stored. -/
def elementPath (stage moment : String) : List String :=
  ["stages", stage, "moments", moment, "element"]

namespace Commit

open Json (under editAll editsUnder editsBelow)

variable (moteId stage moment : String)

/-! ## The edits of a moment -/

theorem plain_eq_some {id : Option String} (h : PlainId id) (s : String) :
    id.getD "" = s ↔ id = some s := by
  obtain ⟨t, rfl, -⟩ := h
  exact (Option.some_inj (a := t)).symm

theorem editsUnder_momentsEdits (i j : Nat) {elements : List StageElement}
    (hp : ∀ element ∈ elements, PlainId element.id) :
    editsUnder [moment, "element"] (momentsEdits moteId i j elements)
      = (elements.filter fun e => e.id = some moment).flatMap elementEdits := by
  induction elements generalizing j with
  | nil => rfl
  | cons element rest ih =>
    have hplain := hp element List.mem_cons_self
    have helement : editsUnder ["element"] (momentEdits j element) = elementEdits element := by
      show editsUnder ["element"] ([_] ++ under ["element"] (elementEdits element)) = _
      rw [Json.editsUnder_append, Json.editsUnder_under, if_pos rfl]
      rfl
    rw [momentsEdits, Json.editsUnder_append, momentId, idPath_of_plain hplain,
      Json.editsUnder_under, helement, ih (j + 1) fun e he => hp e (List.mem_cons_of_mem _ he),
      List.filter_cons]
    simp only [plain_eq_some hplain, decide_eq_true_eq]
    by_cases hid : element.id = some moment
    · rw [if_pos hid, if_pos hid, List.flatMap_cons]
    · rw [if_neg hid, if_neg hid, List.nil_append]

theorem editsUnder_stagesEdits (i : Nat) {stages : List Stage}
    (hs : ∀ s ∈ stages, PlainId s.id)
    (he : ∀ s ∈ stages, ∀ element ∈ s.elements, PlainId element.id) :
    editsUnder [stage, "moments", moment, "element"] (stagesEdits moteId i stages)
      = (elementsAt stage moment stages).flatMap elementEdits := by
  induction stages generalizing i with
  | nil => rfl
  | cons s rest ih =>
    have hplain := hs s List.mem_cons_self
    have hmoments : editsUnder ["moments", moment, "element"] (stageEdits moteId i s)
        = (s.elements.filter fun e => e.id = some moment).flatMap elementEdits := by
      show editsUnder ["moments", moment, "element"]
        ([_, _] ++ under ["moments"] (momentsEdits moteId i 0 s.elements)) = _
      rw [Json.editsUnder_append, Json.editsUnder_under, if_pos rfl,
        editsUnder_momentsEdits moteId moment i 0 (he s List.mem_cons_self)]
      rfl
    rw [stagesEdits, Json.editsUnder_append, stageId, idPath_of_plain hplain,
      Json.editsUnder_under, hmoments, ih (i + 1) (fun s hm => hs s (List.mem_cons_of_mem _ hm))
        (fun s hm => he s (List.mem_cons_of_mem _ hm)), elementsAt_cons, List.flatMap_append]
    simp only [plain_eq_some hplain]
    by_cases hid : s.id = some stage
    · rw [if_pos hid, if_pos hid]
    · rw [if_neg hid, if_neg hid]
      rfl

/-! No edit stops on the way to the element of a moment. -/

theorem not_prefix_under {key k : String} {rest : List String}
    {edits : List (List String × Option Json)} (h : ∀ e ∈ edits, ¬ e.1 <+: rest) :
    ∀ e ∈ under [key] edits, ¬ e.1 <+: k :: rest := by
  intro e he
  obtain ⟨f, hf, rfl⟩ := List.mem_map.1 he
  exact fun hprefix => h f hf (List.cons_prefix_cons.1 hprefix).2

theorem not_prefix_singleton {key k : String} {rest : List String} (h : key ≠ k) :
    ¬ [key] <+: k :: rest :=
  fun hprefix => h (List.cons_prefix_cons.1 hprefix).1

theorem not_prefix_elementEdits (element : StageElement) :
    ∀ e ∈ elementEdits element, ¬ e.1 <+: [] := by
  intro e he
  rw [List.prefix_nil]
  unfold elementEdits at he
  split at he
  · simp only [List.cons_append, List.mem_cons, List.mem_append, Option.mem_toList,
      Option.map_eq_some_iff, List.not_mem_nil, or_false] at he
    rcases he with rfl | ⟨id, _, rfl⟩ | rfl <;> exact List.cons_ne_nil _ _
  · simp only [List.mem_cons, List.not_mem_nil, or_false] at he
    rcases he with rfl | rfl <;> exact List.cons_ne_nil _ _

theorem not_prefix_momentEdits (j : Nat) (element : StageElement) :
    ∀ e ∈ momentEdits j element, ¬ e.1 <+: ["element"] := by
  intro e he
  rcases List.mem_cons.1 he with rfl | he
  · exact not_prefix_singleton (by decide)
  · exact not_prefix_under (not_prefix_elementEdits element) e he

theorem not_prefix_momentsEdits (i j : Nat) {elements : List StageElement}
    (hp : ∀ element ∈ elements, PlainId element.id) :
    ∀ e ∈ momentsEdits moteId i j elements, ¬ e.1 <+: [moment, "element"] := by
  induction elements generalizing j with
  | nil =>
    intro e he
    cases he
  | cons element rest ih =>
    intro e he
    rw [momentsEdits, momentId, idPath_of_plain (hp element List.mem_cons_self)] at he
    rcases List.mem_append.1 he with he | he
    · exact not_prefix_under (not_prefix_momentEdits j element) e he
    · exact ih (j + 1) (fun f hf => hp f (List.mem_cons_of_mem _ hf)) e he

theorem not_prefix_stageEdits (i : Nat) {s : Stage}
    (hp : ∀ element ∈ s.elements, PlainId element.id) :
    ∀ e ∈ stageEdits moteId i s, ¬ e.1 <+: ["moments", moment, "element"] := by
  intro e he
  rcases List.mem_cons.1 he with rfl | he
  · exact not_prefix_singleton (by decide)
  · rcases List.mem_cons.1 he with rfl | he
    · exact not_prefix_singleton (by decide)
    · exact not_prefix_under (not_prefix_momentsEdits moteId moment i 0 hp) e he

theorem not_prefix_stagesEdits (i : Nat) {stages : List Stage}
    (hs : ∀ s ∈ stages, PlainId s.id)
    (hp : ∀ s ∈ stages, ∀ element ∈ s.elements, PlainId element.id) :
    ∀ e ∈ stagesEdits moteId i stages, ¬ e.1 <+: [stage, "moments", moment, "element"] := by
  induction stages generalizing i with
  | nil =>
    intro e he
    cases he
  | cons s rest ih =>
    intro e he
    rw [stagesEdits, stageId, idPath_of_plain (hs s List.mem_cons_self)] at he
    rcases List.mem_append.1 he with he | he
    · exact not_prefix_under (not_prefix_stageEdits moteId moment i (hp s List.mem_cons_self)) e he
    · exact ih (i + 1) (fun t ht => hs t (List.mem_cons_of_mem _ ht))
        (fun t ht => hp t (List.mem_cons_of_mem _ ht)) e he

/-! ## One element over the other -/

/-- The value that was written last. -/
def lastOf {α : Type} (field : StageElement → Option α) (elements : List StageElement) : Option α :=
  (elements.filterMap field).getLast?

theorem lastOf_append_singleton {α : Type} (field : StageElement → Option α)
    (elements : List StageElement) (element : StageElement) :
    lastOf field (elements ++ [element]) = (field element).or (lastOf field elements) := by
  unfold lastOf
  rw [List.filterMap_append]
  cases h : field element with
  | none => simp [h]
  | some a => simp [h]

theorem lastOf_singleton {α : Type} (field : StageElement → Option α) (element : StageElement) :
    lastOf field [element] = field element := by
  rw [← List.nil_append [element], lastOf_append_singleton]
  exact Option.or_none

theorem lastOf_eq_none {α : Type} {field : StageElement → Option α}
    {elements : List StageElement} :
    lastOf field elements = none ↔ ∀ element ∈ elements, field element = none := by
  rw [lastOf, List.getLast?_eq_none_iff, List.filterMap_eq_nil_iff]

theorem isSome_lastOf {α : Type} {field : StageElement → Option α}
    {elements : List StageElement} :
    (lastOf field elements).isSome ↔ ∃ element ∈ elements, (field element).isSome := by
  rw [Option.isSome_iff_ne_none, Ne, lastOf_eq_none]
  simp only [not_forall, Option.isSome_iff_ne_none, exists_prop, ne_eq]

theorem mem_of_lastOf {α : Type} {field : StageElement → Option α}
    {elements : List StageElement} {a : α} (h : lastOf field elements = some a) :
    ∃ element ∈ elements, field element = some a :=
  List.mem_filterMap.1 (List.mem_of_getLast? h)

end Commit

namespace StageElement

/-- The speaker that is written for an element.  One that is not allowed is left out. -/
def writtenSpeaker? (e : StageElement) : Option String :=
  if e.style = .dialogue ∧ e.speakerUnknown = false then e.speaker else none

def speechText? (e : StageElement) : Option String :=
  if e.style = .dialogue then some e.text else none

def narration? (e : StageElement) : Option String :=
  if e.style = .text then some e.text else none

variable {e : StageElement}

theorem speechText?_eq_none : e.speechText? = none ↔ e.style = .text := by
  unfold speechText?
  cases e.style <;> simp

theorem narration?_eq_none : e.narration? = none ↔ e.style = .dialogue := by
  unfold narration?
  cases e.style <;> simp

theorem writtenSpeaker?_of_text (h : e.style = .text) : e.writtenSpeaker? = none := by
  unfold writtenSpeaker?
  rw [h]
  exact if_neg fun hboth => nomatch hboth.1

end StageElement

namespace Commit

open Json (under editAll editsUnder editsBelow)

def textJson (text : String) : Json :=
  .obj [("text", .str text)]

def speechJson (speaker : Option String) (text : String) : Json :=
  .obj ((speaker.map fun id => ("speaker", Json.str id)).toList ++ [("text", textJson text)])

/-- An element object with these fields. -/
def fieldsJson (style : ElementStyle) (speaker speech narration : Option String) : Json :=
  .obj ((speech.map fun text => ("speech", speechJson speaker text)).toList
    ++ ("style", .str style.name) :: (narration.map fun text => ("text", textJson text)).toList)

/-- The object that elements with one key leave, of which `last` is the last one. -/
def mergedJson (earlier : List StageElement) (last : StageElement) : Json :=
  fieldsJson last.style (lastOf StageElement.writtenSpeaker? (earlier ++ [last]))
    (lastOf StageElement.speechText? (earlier ++ [last]))
    (lastOf StageElement.narration? (earlier ++ [last]))

/-- The first element makes its own object. -/
theorem mergedJson_nil (element : StageElement) : mergedJson [] element = elementJson element := by
  obtain ⟨style, id, speaker, speakerUnknown, text⟩ := element
  cases style with
  | dialogue => cases speakerUnknown <;> cases speaker <;> rfl
  | text => rfl

/-- A further element writes its fields over those that are there. -/
theorem editAll_fieldsJson (element : StageElement) (style : ElementStyle)
    (speaker speech narration : Option String) (hs : speech = none → speaker = none) :
    editAll (elementEdits element) (fieldsJson style speaker speech narration)
      = fieldsJson element.style (element.writtenSpeaker?.or speaker)
          (element.speechText?.or speech) (element.narration?.or narration) := by
  obtain ⟨style', id, who, speakerUnknown, text⟩ := element
  cases speech with
  | none =>
    cases hs rfl
    cases style' with
    | dialogue => cases speakerUnknown <;> cases who <;> cases narration <;> rfl
    | text => cases narration <;> rfl
  | some speech =>
    cases style' with
    | dialogue =>
      cases speakerUnknown <;> cases who <;> cases speaker <;> cases narration <;> rfl
    | text => cases speaker <;> cases narration <;> rfl

theorem speaker_of_speech {elements : List StageElement}
    (h : lastOf StageElement.speechText? elements = none) :
    lastOf StageElement.writtenSpeaker? elements = none := by
  rw [lastOf_eq_none] at h ⊢
  intro e he
  exact StageElement.writtenSpeaker?_of_text (StageElement.speechText?_eq_none.1 (h e he))

theorem editAll_flatMap_elementEdits (earlier : List StageElement) (last : StageElement) :
    editAll ((earlier ++ [last]).flatMap elementEdits) (.obj []) = mergedJson earlier last := by
  induction earlier using List.reverseRecOn generalizing last with
  | nil =>
    rw [mergedJson_nil, List.nil_append, List.flatMap_singleton]
    exact editAll_elementEdits last
  | append_singleton earlier e ih =>
    rw [List.flatMap_append, Json.editAll_append, ih e, List.flatMap_singleton, mergedJson,
      editAll_fieldsJson _ _ _ _ _ speaker_of_speech, mergedJson, lastOf_append_singleton _ _ last,
      lastOf_append_singleton _ _ last, lastOf_append_singleton _ _ last]

/-- The last element writes every field that `e` writes. -/
def Covers (last e : StageElement) : Prop :=
  e.style = last.style ∧ (e.writtenSpeaker?.isSome → last.writtenSpeaker?.isSome)

theorem fieldsJson_dialogue_inj {speaker speaker' narration : Option String} {text : String} :
    fieldsJson .dialogue speaker (some text) narration
        = fieldsJson .dialogue speaker' (some text) none ↔
      narration = none ∧ speaker = speaker' := by
  cases narration <;> cases speaker <;> cases speaker' <;> simp [fieldsJson, speechJson]

theorem fieldsJson_text_inj {speaker speaker' speech : Option String} {text : String} :
    fieldsJson .text speaker speech (some text) = fieldsJson .text speaker' none (some text) ↔
      speech = none := by
  cases speech <;> simp [fieldsJson]

theorem or_eq_left_iff {α : Type} {a b : Option α} : a.or b = a ↔ (b.isSome → a.isSome) := by
  cases a <;> cases b <;> simp

/-- What is left is the object of the last element exactly when that covers the others. -/
theorem mergedJson_eq_elementJson_iff (earlier : List StageElement) (last : StageElement) :
    mergedJson earlier last = elementJson last ↔ ∀ e ∈ earlier, Covers last e := by
  rw [← mergedJson_nil, mergedJson, mergedJson]
  simp only [List.nil_append, lastOf_append_singleton, lastOf_singleton]
  cases hstyle : last.style with
  | dialogue =>
    have hspeech : last.speechText? = some last.text := if_pos hstyle
    have hnarration : last.narration? = none := StageElement.narration?_eq_none.2 hstyle
    rw [hspeech, hnarration, Option.some_or, Option.none_or, fieldsJson_dialogue_inj,
      or_eq_left_iff, lastOf_eq_none, isSome_lastOf]
    constructor
    · intro ⟨htexts, hspeakers⟩ e he
      have hdialogue : e.style = .dialogue := StageElement.narration?_eq_none.1 (htexts e he)
      exact ⟨hdialogue.trans hstyle.symm, fun hsome => hspeakers ⟨e, he, hsome⟩⟩
    · intro hcovers
      refine ⟨fun e he => ?_, fun ⟨e, he, hsome⟩ => (hcovers e he).2 hsome⟩
      exact StageElement.narration?_eq_none.2 ((hcovers e he).1.trans hstyle)
  | text =>
    have hspeech : last.speechText? = none := StageElement.speechText?_eq_none.2 hstyle
    have hnarration : last.narration? = some last.text := if_pos hstyle
    rw [hspeech, hnarration, Option.none_or, Option.some_or, fieldsJson_text_inj, lastOf_eq_none]
    constructor
    · intro hspeeches e he
      have htext : e.style = .text := StageElement.speechText?_eq_none.1 (hspeeches e he)
      refine ⟨htext.trans hstyle.symm, fun hsome => ?_⟩
      rw [StageElement.writtenSpeaker?_of_text htext] at hsome
      cases hsome
    · intro hcovers e he
      exact StageElement.speechText?_eq_none.2 ((hcovers e he).1.trans hstyle)

/-! ## Commits -/

section

variable (moteId stage moment : String) {r : Record} (hr : r.Plain) (data : Json)

include hr

/-- The writes of the elements with one key, and of no others, reach the element of a moment. -/
theorem at?_elementPath :
    (editAll (recordEdits r moteId) data).at? (elementPath stage moment)
      = if elementsAt stage moment r.stages = [] then none
        else some (editAll ((elementsAt stage moment r.stages).flatMap elementEdits) (.obj [])) := by
  have hempty : (elementsAt stage moment r.stages).flatMap elementEdits = [] ↔
      elementsAt stage moment r.stages = [] := by
    rw [List.flatMap_eq_nil_iff, List.eq_nil_iff_forall_not_mem]
    refine forall_congr' fun e => imp_congr_right fun _ => iff_false_intro ?_
    unfold elementEdits
    split <;> exact List.cons_ne_nil _ _
  show (editAll (recordEdits r moteId) data).at?
    (["stages"] ++ [stage, "moments", moment, "element"]) = _
  rw [Json.at?_append, at?_stages, stagesValue]
  by_cases hnil : r.stages = []
  · rw [if_pos hnil, hnil]
    rfl
  · have hne : stagesEdits moteId 0 r.stages ≠ [] := fun h =>
      hnil ((stagesEdits_eq_nil moteId).1 h)
    rw [if_neg hnil, Option.bind_some, Json.at?_editAll_of_writes hne
      (isSome_stagesEdits moteId 0 r.stages)
      (not_prefix_stagesEdits moteId stage moment 0 hr.stages hr.elements),
      editsUnder_stagesEdits moteId stage moment 0 hr.stages hr.elements]
    simp only [hempty]

theorem at?_elementPath_of_nil (h : elementsAt stage moment r.stages = []) :
    (editAll (recordEdits r moteId) data).at? (elementPath stage moment) = none := by
  rw [at?_elementPath moteId stage moment hr, if_pos h]

theorem at?_elementPath_of_snoc {earlier : List StageElement} {last : StageElement}
    (h : elementsAt stage moment r.stages = earlier ++ [last]) :
    (editAll (recordEdits r moteId) data).at? (elementPath stage moment)
      = some (mergedJson earlier last) := by
  rw [at?_elementPath moteId stage moment hr, h, if_neg (by simp), editAll_flatMap_elementEdits]

end

theorem data_of_run {s : Store} (hs : s.Reachable) {r : Record} {moteId schemaId : String}
    {files : Files} {t : State} (h : run r moteId schemaId s files = .done t ()) :
    ∃ old, s.mote? moteId = some old ∧
      t.store.mote? moteId = some { old with data := editAll (recordEdits r moteId) old.data } := by
  obtain ⟨old, hold⟩ := Option.isSome_iff_exists.1 (ready_of_run h).stored
  refine ⟨old, hold, ?_⟩
  rw [(committed_of_run hs.sound h).own, hold, Option.map_some, Mote.changed,
    (laidOut_changes r moteId).2]

/-- What a commit stores of the elements with one key.  Of each field it is the value that was
written last, and so it is the object of the last element exactly when that covers the others.  In
any other case a mixture is stored. -/
theorem run_merges_moments {s : Store} (hs : s.Reachable) {r : Record} (hr : r.Plain)
    {moteId schemaId : String} {files : Files} {t : State}
    (h : run r moteId schemaId s files = .done t ()) :
    ∃ mote, t.store.mote? moteId = some mote ∧ ∀ stage moment,
      (elementsAt stage moment r.stages = [] →
        mote.data.at? (elementPath stage moment) = none) ∧
      ∀ earlier last, elementsAt stage moment r.stages = earlier ++ [last] →
        mote.data.at? (elementPath stage moment) = some (mergedJson earlier last) ∧
        (mergedJson earlier last = elementJson last ↔ ∀ e ∈ earlier, Covers last e) := by
  obtain ⟨old, -, hmote⟩ := data_of_run hs h
  refine ⟨_, hmote, fun stage moment => ⟨fun hnil => ?_, fun earlier last hsnoc => ⟨?_, ?_⟩⟩⟩
  · exact at?_elementPath_of_nil moteId stage moment hr old.data hnil
  · exact at?_elementPath_of_snoc moteId stage moment hr old.data hsnoc
  · exact mergedJson_eq_elementJson_iff earlier last

/-- What a speaker says and what nobody says, with one id. -/
def echo : StageElement :=
  { style := .dialogue, id := some "e1", speaker := some "npc", speakerUnknown := false
    text := "Hello" }

def silence : StageElement :=
  { style := .text, id := some "e1", speaker := none, speakerUnknown := false, text := "Silence." }

def echoRecord : Record :=
  { name := some "Grove"
    stages := [{ id := some "s1", name := "One", elements := [echo, silence] }] }

theorem plain_echoRecord : echoRecord.Plain := by
  have hplain : ∀ s : String, s ≠ "" → '/' ∉ s.toList → PlainId (some s) :=
    fun s hne hslash => ⟨s, rfl, hne, hslash⟩
  constructor
  · intro stage hs
    rw [List.mem_singleton.1 hs]
    exact hplain "s1" (by decide) (by decide)
  · intro stage hs element he
    rw [List.mem_singleton.1 hs] at he
    rcases List.mem_cons.1 he with rfl | he
    · exact hplain "e1" (by decide) (by decide)
    · rw [List.mem_singleton.1 he]
      exact hplain "e1" (by decide) (by decide)

/-- The speech stays beside the text that was written over it. -/
theorem run_merges_moments_echo :
    ∃ t mote, run echoRecord "grove" "quest" questStore .empty = .done t () ∧
      t.store.mote? "grove" = some mote ∧
      mote.data.at? (elementPath "s1" "e1")
        = some (.obj
            [("speech", .obj
              [("speaker", .str "npc"), ("text", .obj [("text", .str "Hello")])]),
              ("style", .str "Text"), ("text", .obj [("text", .str "Silence.")])]) := by
  obtain ⟨t, ht, -⟩ := run_eq_done (r := echoRecord) reachable_questStore.sound rfl
    ready_questStore .empty
  obtain ⟨mote, hmote, hmoments⟩ := run_merges_moments reachable_questStore plain_echoRecord ht
  exact ⟨t, mote, ht, hmote, ((hmoments "s1" "e1").2 [echo] silence (by decide)).1⟩

/-- So what is stored of a moment is not always the object of one element. -/
theorem run_mixes_moments :
    ¬ ∀ (s : Store) (r : Record) (moteId schemaId : String) (files : Files) (t : State),
      s.Reachable → r.Plain → run r moteId schemaId s files = .done t () →
      ∃ mote, t.store.mote? moteId = some mote ∧
        ∀ stage moment earlier last, elementsAt stage moment r.stages = earlier ++ [last] →
          mote.data.at? (elementPath stage moment) = some (elementJson last) := by
  intro hlast
  obtain ⟨t, ht, -⟩ := run_eq_done (r := echoRecord) reachable_questStore.sound rfl
    ready_questStore .empty
  obtain ⟨mote, hmote, hmoment⟩ := hlast _ _ _ _ _ _ reachable_questStore plain_echoRecord ht
  obtain ⟨old, -, hdata⟩ := data_of_run reachable_questStore ht
  have helements : elementsAt "s1" "e1" echoRecord.stages = [echo] ++ [silence] := by decide
  have hmerged := at?_elementPath_of_snoc "grove" "s1" "e1" plain_echoRecord old.data helements
  have hsilence := hmoment "s1" "e1" [echo] silence helements
  rw [hmote] at hdata
  cases Option.some.inj hdata
  rw [hmerged, Option.some_inj, mergedJson_eq_elementJson_iff] at hsilence
  exact absurd (hsilence echo List.mem_cons_self).1 (by decide)

end Commit
end Comfort
