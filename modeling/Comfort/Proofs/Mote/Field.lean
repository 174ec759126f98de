import Comfort.Proofs.Json.Pruning
import Comfort.Proofs.Pointer
import Comfort.Store.Basic

/-!
Fields of the data of a mote.

A pointer that goes below the data addresses a field.  The field can be written, deleted and looked
up, whatever the data is and whatever stands in the way, and what is done to it is not seen at any
pointer that diverges from its own: `field_laws`.  Deleting a field takes nothing else away but the
objects that are left without fields, so a field that was written and deleted again leaves no trace:
`delete_leaves_no_trace`.  Deleting a field that is not there changes nothing unless an object without
fields stands on the way to it, which goes then: `delete_absent`.
-/

namespace Comfort
namespace Pointer

variable {p q : Pointer} {path : List String} {d : Json}

/-- The pointer begins at the data and goes on below it. -/
def IsField (p : Pointer) : Prop :=
  ∃ path, p.segments = root :: path ∧ path ≠ []

theorem isField_iff : p.IsField ↔ ∃ path, p.fieldPath? = some path := by
  constructor
  · rintro ⟨path, hs, hne⟩
    exact ⟨path, fieldPath?_of_segments hs hne⟩
  · rintro ⟨path, hp⟩
    exact ⟨path, segments_of_fieldPath? hp⟩

theorem fieldPath?_eq_none : p.fieldPath? = none ↔ ¬ p.IsField := by
  rw [isField_iff, Option.eq_none_iff_forall_ne_some, not_exists]

/-- Nothing that a pointer does or finds depends on more than its segments. -/
theorem fieldPath?_congr (h : q.segments = p.segments) :
    q.dataSegments? = p.dataSegments? ∧ q.fieldPath? = p.fieldPath? := by
  have hdata : q.dataSegments? = p.dataSegments? := by rw [dataSegments?, dataSegments?, h]
  exact ⟨hdata, by rw [fieldPath?, fieldPath?, hdata]⟩

/-- A pointer finds the same before and after a change at a pointer that diverges from it. -/
theorem lookup?_edit_of_diverge (hp : p.fieldPath? = some path)
    (h : Json.Diverge p.segments q.segments) (value : Option Json) (d : Json) :
    q.lookup? (Json.edit path value d) = q.lookup? d := by
  unfold lookup?
  cases hq : q.dataSegments? with
  | none => rfl
  | some other =>
    have hsegments : q.segments = root :: other := by
      unfold dataSegments? at hq
      split at hq
      · next first rest hs =>
        rw [Option.ite_none_right_eq_some] at hq
        rw [hs, hq.1, Option.some.inj hq.2]
      · cases hq
    rw [(segments_of_fieldPath? hp).1, hsegments] at h
    exact Json.at?_edit_of_diverge h.tail value d

theorem apply_eq_error_iff (value : Option Json) :
    (∃ e, p.apply d value = .error e) ↔ ¬ p.IsField := by
  rw [← fieldPath?_eq_none]
  constructor
  · rintro ⟨e, he⟩
    cases hp : p.fieldPath? with
    | none => rfl
    | some path =>
      rw [apply_of_fieldPath? hp] at he
      cases he
  · intro hp
    exact ⟨_, apply_of_no_fieldPath hp value d⟩

/-- A field that was written is found, and a field that was deleted is not.  The last of two writes
counts, and pointers that diverge from that of the field find what they found before.  A change is
refused just where the pointer addresses no field, and then the data stays as it is.  What a pointer
does and finds depends on its segments alone, and joining appends segments. -/
theorem field_laws (p : Pointer) (d : Json) :
    (p.IsField →
      (∀ v, ∃ d', p.apply d (some v) = .ok d' ∧ p.lookup? d' = some v ∧
        ∀ w, p.apply d' (some w) = p.apply d (some w)) ∧
      (∃ d', p.apply d none = .ok d' ∧ p.lookup? d' = none) ∧
      ∀ (q : Pointer) value d', Json.Diverge p.segments q.segments → p.apply d value = .ok d' →
        q.lookup? d' = q.lookup? d) ∧
    (∀ value, (∃ e, p.apply d value = .error e) ↔ ¬ p.IsField) ∧
    (∀ value later, ¬ p.IsField →
      Change.applyAll ({ pointer := p, value := value } :: later) d = .failed d { pointer := p }) ∧
    (∀ q : Pointer, q.segments = p.segments → q.lookup? d = p.lookup? d ∧
      ∀ value d', q.apply d value = .ok d' ↔ p.apply d value = .ok d') ∧
    ∀ s, (p.join s).segments = p.segments ++ segments { text := s } := by
  refine ⟨fun hfield => ?_, apply_eq_error_iff, ?_, ?_, segments_join p⟩
  · obtain ⟨path, hp⟩ := isField_iff.1 hfield
    have hne : path ≠ [] := (segments_of_fieldPath? hp).2
    refine ⟨fun v => ⟨_, apply_of_fieldPath? hp (some v) d, ?_, fun w => ?_⟩,
      ⟨_, apply_of_fieldPath? hp none d, ?_⟩, fun q value d' hdiverge happly => ?_⟩
    · rw [lookup?_of_fieldPath? hp]
      exact Json.at?_edit_self path (some v) d hne
    · rw [apply_of_fieldPath? hp, apply_of_fieldPath? hp]
      exact congrArg Except.ok (Json.writeAt_writeAt v w path d)
    · rw [lookup?_of_fieldPath? hp]
      exact Json.at?_edit_self path none d hne
    · rw [apply_of_fieldPath? hp] at happly
      cases happly
      exact lookup?_edit_of_diverge hp hdiverge value d
  · intro value later hno
    rw [Change.applyAll, apply_of_no_fieldPath (fieldPath?_eq_none.2 hno)]
  · intro q hq
    obtain ⟨hdata, hpath⟩ := fieldPath?_congr hq
    refine ⟨by rw [lookup?, lookup?, hdata], fun value d' => ?_⟩
    cases hp : p.fieldPath? with
    | some path => rw [apply_of_fieldPath? hp, apply_of_fieldPath? (hpath.trans hp)]
    | none =>
      rw [apply_of_no_fieldPath hp, apply_of_no_fieldPath (hpath.trans hp)]
      exact iff_of_false (fun h => by cases h) fun h => by cases h

/-- A write through a text, at a pointer with a doubled slash. -/
theorem field_laws_grove :
    ∃ d', apply { text := "data/name//text" } (.obj [("name", .str "Grove"), ("order", .nat 1)])
        (some (.str "Glade")) = .ok d' ∧
      lookup? { text := "data/name/text" } d' = some (.str "Glade") ∧
      lookup? { text := "/data/order" } d' = some (.nat 1) := by
  obtain ⟨hlaws, -, -, -, -⟩ := field_laws { text := "data/name//text" }
    (.obj [("name", .str "Grove"), ("order", .nat 1)])
  obtain ⟨hwrite, -, hframe⟩ := hlaws ⟨["name", "text"], by decide, by decide⟩
  obtain ⟨d', happly, hfound, -⟩ := hwrite (.str "Glade")
  have hsame := (field_laws { text := "data/name//text" } d').2.2.2.1 { text := "data/name/text" }
    (by decide)
  refine ⟨d', happly, hsame.1.trans hfound, ?_⟩
  rw [hframe { text := "/data/order" } _ d' (by decide) happly]
  rfl

/-! ## Deleting -/

/-- A delete after a write leaves what the delete alone would have left, where nothing but objects
stands on the way.  Whatever the data is, a delete leaves no object without fields on the way to the
field, and the same delete made once more changes nothing.  Values off the way stay as they are, and
a value on the way goes only if it is an object. -/
theorem delete_leaves_no_trace (hp : p.fieldPath? = some path) (d : Json) :
    (∀ v, Json.OpenTo path d → (p.apply d (some v)).bind (p.apply · none) = p.apply d none) ∧
    ∃ d', p.apply d none = .ok d' ∧ p.apply d' none = .ok d' ∧
      (∀ q, q ≠ [] → q <+: path → q ≠ path → d'.at? q ≠ some (.obj [])) ∧
      (∀ q, Json.Diverge path q → d'.at? q = d.at? q) ∧
      ∀ q x, ¬ path <+: q → ¬ x.IsObject → d.at? q = some x → d'.at? q = some x := by
  have hne : path ≠ [] := (segments_of_fieldPath? hp).2
  refine ⟨fun v hopen => ?_, _, apply_of_fieldPath? hp none d, ?_, ?_, ?_, ?_⟩
  · rw [apply_of_fieldPath? hp, apply_of_fieldPath? hp]
    show p.apply _ none = _
    rw [apply_of_fieldPath? hp]
    exact congrArg Except.ok (Json.deleteAt_writeAt v hne hopen)
  · rw [apply_of_fieldPath? hp]
    exact congrArg Except.ok (Json.deleteAt_deleteAt path d)
  · exact fun q hq hpre hend => Json.at?_deleteAt_ne_emptyObject hq hpre hend d
  · exact fun q hdiverge => Json.at?_edit_of_diverge hdiverge none d
  · exact fun q x hpre hx hat => Json.at?_deleteAt_of_not_isObject hpre hx hat

/-- The write makes two objects, and the delete takes both of them away again. -/
theorem delete_leaves_no_trace_grove :
    ((apply { text := "data/stages/s1/name" } (.obj [("order", .nat 1)])
        (some (.str "Arrival"))).bind (apply { text := "data/stages/s1/name" } · none))
      = .ok (.obj [("order", .nat 1)]) := by
  have hp : fieldPath? { text := "data/stages/s1/name" } = some ["stages", "s1", "name"] := by
    decide
  have hopen : Json.OpenTo ["stages", "s1", "name"] (.obj [("order", .nat 1)]) := by
    intro q x hpre _ hx
    cases q with
    | nil =>
      cases hx
      exact ⟨_, rfl⟩
    | cons key q =>
      obtain ⟨rfl, -⟩ := List.cons_prefix_cons.1 hpre
      cases hx
  rw [(delete_leaves_no_trace hp (.obj [("order", .nat 1)])).1 (.str "Arrival") hopen]
  rfl

/-! ## Deleting what is not there -/

/-- A delete at a pointer that finds nothing is never refused.  It changes nothing just where no
object without fields stands on the way to the field, and otherwise deletes that object. -/
theorem delete_absent (hp : p.fieldPath? = some path) (hd : d.Canonical)
    (h : p.lookup? d = none) :
    (p.apply d none = .ok d ↔ ∀ q, q ≠ [] → q <+: path → d.at? q ≠ some (.obj [])) ∧
    ∀ q, q ≠ [] → q <+: path → d.at? q = some (.obj []) →
      p.apply d none = .ok (d.deleteAt q) := by
  have happly : p.apply d none = .ok (d.deleteAt path) := apply_of_fieldPath? hp none d
  rw [lookup?_of_fieldPath? hp] at h
  refine ⟨?_, fun q hq hpre hempty => ?_⟩
  · rw [happly, ← Json.deleteAt_eq_self_iff hd h]
    exact ⟨Except.ok.inj, congrArg Except.ok⟩
  · rw [happly, Json.deleteAt_of_emptyObject hq hpre hempty]

/-- The way breaks off in an object whose only field is an object without fields. -/
def glenData : Json :=
  .obj [("wip", .obj [("notes", .obj [])])]

theorem delete_absent_glen :
    lookup? { text := "data/wip/comments" } glenData = none ∧
    apply { text := "data/wip/comments" } glenData none = .ok glenData := by
  have hp : fieldPath? { text := "data/wip/comments" } = some ["wip", "comments"] := by decide
  have hd : glenData.Canonical := by
    simp [glenData, Json.Canonical, Json.canonicalFields_iff, Keyed.Ascending]
  refine ⟨rfl, (delete_absent hp hd rfl).1.2 fun q hq hpre hempty => ?_⟩
  cases q with
  | nil => exact hq rfl
  | cons key q =>
    obtain ⟨rfl, hrest⟩ := List.cons_prefix_cons.1 hpre
    cases q with
    | nil => cases hempty
    | cons key q =>
      obtain ⟨rfl, -⟩ := List.cons_prefix_cons.1 hrest
      cases hempty

/-- An object that had no fields before the delete is taken away all the same. -/
theorem not_delete_absent_kept :
    ¬ ∀ (p : Pointer) (d : Json), d.Canonical → p.IsField → p.lookup? d = none →
      p.apply d none = .ok d := by
  intro h
  have hkept := h { text := "data/wip/comments" } (.obj [("wip", .obj [])])
    (by simp [Json.canonical_obj, Keyed.Ascending])
    ⟨["wip", "comments"], by decide, by decide⟩ rfl
  have hgone : apply { text := "data/wip/comments" } (.obj [("wip", .obj [])]) none
      = .ok (.obj []) := rfl
  rw [hgone] at hkept
  cases hkept

end Pointer
end Comfort
