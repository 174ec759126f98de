import Comfort.Proofs.Pass.Anchored
import Comfort.Proofs.Pass.Inversion

/-!
What a run leaves of what was there.

A run adds to the end only.  A stage keeps its number, its id and its name, and its elements are the
first ones that it has afterwards.  The diagnostics are the first ones too, and those that follow
stand in the lines of the run.  Each completion belongs to one line, which is a dialogue in a stage.
-/

namespace Comfort

/-- Each stage is still there, with its id and its name, and its elements come first. -/
def Grown (a b : List Stage) : Prop :=
  ∀ (i : Nat) (stage : Stage), a[i]? = some stage → ∃ stage', b[i]? = some stage' ∧
    stage'.id = stage.id ∧ stage'.name = stage.name ∧ stage.elements <+: stage'.elements

theorem grown_refl (a : List Stage) : Grown a a :=
  fun _ stage h => ⟨stage, h, rfl, rfl, List.prefix_refl _⟩

theorem Grown.trans {a b c : List Stage} (h : Grown a b) (h' : Grown b c) : Grown a c := by
  intro i stage hi
  obtain ⟨stage', hi', hid, hname, helements⟩ := h i stage hi
  obtain ⟨stage'', hi'', hid', hname', helements'⟩ := h' i stage' hi'
  exact ⟨stage'', hi'', hid'.trans hid, hname'.trans hname, helements.trans helements'⟩

theorem grown_append (a b : List Stage) : Grown a (a ++ b) := by
  intro i stage hi
  have hlt : i < a.length := (List.getElem?_eq_some_iff.1 hi).1
  exact ⟨stage, by rw [List.getElem?_append_left hlt, hi], rfl, rfl, List.prefix_refl _⟩

theorem Grown.cons {a b : List Stage} (h : Grown a b) {stage stage' : Stage}
    (hid : stage'.id = stage.id) (hname : stage'.name = stage.name)
    (helements : stage.elements <+: stage'.elements) : Grown (stage :: a) (stage' :: b) := by
  intro i s hi
  cases i with
  | zero =>
    cases Option.some.inj hi
    exact ⟨stage', rfl, hid, hname, helements⟩
  | succ i => exact h i s hi

theorem grown_withElement (element : StageElement) (stages : List Stage) :
    Grown stages (Record.withElement element stages) := by
  induction stages with
  | nil => exact grown_refl []
  | cons stage rest ih =>
    cases rest with
    | nil => exact (grown_refl []).cons rfl rfl (List.prefix_append _ _)
    | cons second rest => exact ih.cons rfl rfl (List.prefix_refl _)

/-- The stage that is the last one of `prior`, and the first element of it that `prior` does not
have. -/
def Record.next? (prior r : Record) : Option (Stage × StageElement) := do
  let current ← prior.stages.getLast?
  let stage ← r.stages[prior.stages.length - 1]?
  let element ← stage.elements[current.elements.length]?
  return (stage, element)

theorem Record.next?_of_grown {prior r : Record} {earlier : List Stage} {current : Stage}
    {element : StageElement} (hprior : prior.stages = earlier ++ [current])
    (h : Grown (withElement element prior.stages) r.stages) :
    ∃ stage, prior.next? r = some (stage, element) ∧ stage.id = current.id ∧
      stage.name = current.name := by
  have hlast : (withElement element prior.stages)[earlier.length]?
      = some { current with elements := current.elements ++ [element] } := by
    rw [hprior, withElement_append_singleton, List.getElem?_concat_length]
  obtain ⟨stage, hstage, hid, hname, rest, helements⟩ := h _ _ hlast
  have helement : stage.elements[current.elements.length]? = some element := by
    rw [← helements, List.append_assoc, List.getElem?_append_right (Nat.le_refl _), Nat.sub_self]
    rfl
  refine ⟨stage, ?_, hid, hname⟩
  have hnumber : prior.stages.length - 1 = earlier.length := by
    rw [hprior, List.length_append, List.length_singleton, Nat.add_sub_cancel]
  have hcurrent : prior.stages.getLast? = some current := by
    rw [hprior, List.getLast?_concat]
  simp only [next?, hcurrent, hnumber, hstage, helement, Option.bind_eq_bind, Option.bind_some,
    Option.pure_def]

/-- What a line offers to complete its speaker with. -/
def Offers (ctx : ParseContext) (line : SourceLine) (completion : Completion) : Prop :=
  ∃ c text id speakers, line.meaning ctx.labels = .element (some c) text id ∧
    ctx.speakers = .ok speakers ∧ completion = ⟨c.range, Session.candidates speakers⟩

namespace Pass

variable {ctx : ParseContext} {p q : Pass} {line : SourceLine} {lines : List SourceLine}
  {notes : Notes}

/-! ## Stages -/

theorem grown_step (hd : p.step ctx line = .done q ()) :
    Grown p.report.record.stages q.report.record.stages := by
  cases effect_of_step hd with
  | passes hm h =>
    rw [h.stages]
    exact grown_refl _
  | opens hm h =>
    rw [h.stages]
    exact grown_append _ _
  | plays hin hm hs h =>
    rw [h.stages]
    exact grown_withElement _ _

theorem grown_run (hd : p.run ctx lines = .done q ()) :
    Grown p.report.record.stages q.report.record.stages := by
  induction lines generalizing p with
  | nil =>
    cases hd
    exact grown_refl _
  | cons line rest ih =>
    obtain ⟨t, _, ht, hd⟩ := Outcome.andThen_eq_done.1 hd
    exact (grown_step ht).trans (ih hd)

/-! ## Diagnostics -/

namespace Notes

/-- Every diagnostic stands in the text of the line. -/
def Within (line : SourceLine) (notes : Notes) : Prop :=
  ∀ d ∈ notes.diagnostics, line.contentRange.contains d.range = true

theorem Within.and {a b : Notes} (ha : Within line a) (hb : Within line b) :
    Within line (a.and b) :=
  fun d hd => (List.mem_append.1 hd).elim (ha d) (hb d)

theorem contains_contentRange (line : SourceLine) :
    line.contentRange.contains line.contentRange = true :=
  (Span.holds_refl line.span).contains_range

theorem within_diagnosticIf {b : Prop} [Decidable b] {message : String} {range : TextRange}
    (h : line.contentRange.contains range = true) :
    Within line (diagnosticIf b message range) := by
  intro d hd
  rw [(mem_diagnosticIf.1 hd).2]
  exact h

theorem IsStray.within (h : notes.IsStray line) : Within line notes := by
  rcases h with rfl | rfl | rfl
  · exact nofun
  · exact List.forall_mem_singleton.2 (contains_contentRange line)
  · exact List.forall_mem_singleton.2 (contains_contentRange line)

theorem within_ofClaim {seen : List String} {written : Option Capture} {id : String}
    (h : line.span.ShowsAll written.toList) : Within line (ofClaim seen line written id) := by
  intro d hd
  obtain ⟨c, rfl, -, rfl⟩ := mem_ofClaim.1 hd
  exact (h c (List.mem_singleton.2 rfl)).contains_range

end Notes

theorem Speaks.within {c : Option Capture} {who : Option String} {isUnknown : Bool}
    (h : Speaks ctx c who isUnknown notes) (hc : line.span.ShowsAll c.toList) :
    notes.Within line := by
  cases h with
  | unknown _ _ =>
    exact List.forall_mem_singleton.2 (hc _ (List.mem_singleton.2 rfl)).contains_range
  | _ => exact nofun

theorem diagnostics_step (hd : p.step ctx line = .done q ()) :
    ∃ added, q.report.diagnostics = p.report.diagnostics ++ added ∧
      ∀ d ∈ added, line.contentRange.contains d.range = true := by
  have hcaptures := SourceLine.showsAll_meaning ctx.labels line
  cases effect_of_step hd with
  | passes hm h =>
    obtain ⟨-, -, notes, hstray, hadds⟩ := h
    exact ⟨_, hadds.diagnostics, hstray.within⟩
  | opens hm h =>
    rw [hm] at hcaptures
    refine ⟨_, h.adds.diagnostics, Notes.Within.and ?_ ?_⟩
    · exact Notes.within_diagnosticIf (Notes.contains_contentRange line)
    · exact Notes.within_ofClaim fun c hc => hcaptures c (List.mem_cons_of_mem _ hc)
  | plays hin hm hs h =>
    rw [hm] at hcaptures
    refine ⟨_, h.adds.diagnostics, Notes.Within.and (Notes.Within.and ?_ ?_) ?_⟩
    · exact hs.within fun c hc => hcaptures c (List.mem_append_left _ hc)
    · exact Notes.within_diagnosticIf (Notes.contains_contentRange line)
    · exact Notes.within_ofClaim fun c hc =>
        hcaptures c (List.mem_append_right _ (List.mem_cons_of_mem _ hc))

/-- The diagnostics of a run follow those that are there, and stand in its lines. -/
theorem diagnostics_run (hd : p.run ctx lines = .done q ()) :
    ∃ added, q.report.diagnostics = p.report.diagnostics ++ added ∧
      ∀ d ∈ added, InALine lines d.range := by
  induction lines generalizing p with
  | nil =>
    cases hd
    exact ⟨[], (List.append_nil _).symm, nofun⟩
  | cons line rest ih =>
    obtain ⟨t, _, ht, hd⟩ := Outcome.andThen_eq_done.1 hd
    obtain ⟨first, hfirst, hline⟩ := diagnostics_step ht
    obtain ⟨more, hmore, hrest⟩ := ih hd
    refine ⟨first ++ more, by rw [hmore, hfirst, List.append_assoc], fun d hmem => ?_⟩
    rcases List.mem_append.1 hmem with hmem | hmem
    · exact ⟨line, List.mem_cons_self, hline d hmem⟩
    · obtain ⟨l, hl, hcontains⟩ := hrest d hmem
      exact ⟨l, List.mem_cons_of_mem _ hl, hcontains⟩

/-! ## Completions -/

theorem completion_step {completion : Completion} (hd : p.step ctx line = .done q ())
    (hc : completion ∈ q.report.completions) :
    completion ∈ p.report.completions ∨ p.inStage = true ∧ Offers ctx line completion := by
  cases effect_of_step hd with
  | passes hm h =>
    obtain ⟨-, -, notes, hstray, hadds⟩ := h
    have hnone : notes.completions = [] := by
      rcases hstray with rfl | rfl | rfl <;> rfl
    rw [hadds.completions, hnone, List.append_nil] at hc
    exact .inl hc
  | @opens name written id hm h =>
    rw [h.adds.completions, Notes.and, Notes.completions_ofClaim, List.append_nil] at hc
    rw [Notes.diagnosticIf, List.append_nil] at hc
    exact .inl hc
  | @plays speaker text written who isUnknown id spoken hin hm hs h =>
    rw [h.adds.completions, Notes.and, Notes.and, Notes.completions_ofClaim, List.append_nil] at hc
    rw [Notes.diagnosticIf, List.append_nil] at hc
    rcases List.mem_append.1 hc with hc | hc
    · exact .inl hc
    · refine .inr ⟨hin, ?_⟩
      cases hs with
      | nobody => cases hc
      | unchecked _ => cases hc
      | found hall _ => exact ⟨_, _, _, _, hm, hall, List.mem_singleton.1 hc⟩
      | unknown hall _ => exact ⟨_, _, _, _, hm, hall, List.mem_singleton.1 hc⟩

/-- A completion that was not there is offered by a line of the run. -/
theorem completion_run {completion : Completion} (hd : p.run ctx lines = .done q ())
    (hc : completion ∈ q.report.completions) :
    completion ∈ p.report.completions ∨ ∃ before line after t, lines = before ++ line :: after ∧
      p.run ctx before = .done t () ∧ t.inStage = true ∧ Offers ctx line completion := by
  induction lines generalizing p with
  | nil =>
    cases hd
    exact .inl hc
  | cons line rest ih =>
    obtain ⟨t, _, ht, hd⟩ := Outcome.andThen_eq_done.1 hd
    rcases ih hd with hold | ⟨before, l, after, u, rfl, hu, hin, hoffers⟩
    · rcases completion_step ht hold with hold | ⟨hin, hoffers⟩
      · exact .inl hold
      · exact .inr ⟨[], line, rest, p, rfl, rfl, hin, hoffers⟩
    · refine .inr ⟨line :: before, l, after, u, rfl, ?_, hin, hoffers⟩
      rw [run, ht, Outcome.andThen_done]
      exact hu

end Pass
end Comfort
