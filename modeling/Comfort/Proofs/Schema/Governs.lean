import Comfort.Proofs.Json.Paths
import Comfort.Schema.Resolve

/-!
Which node governs a path.

`Governs` says it without a search: on the way each choice of variants is replaced by the first one
that fits the sample where it stands, and so is the node at the end.  A path is governed by one node
at most, which `Schema.resolve` finds, and a path in two parts can be followed part by part:
`resolve_append`.
-/

namespace Comfort
namespace SchemaNode

/-- An object all of whose constant strings stand in the sample. -/
inductive Fits (sample : Option Json) : SchemaNode → Prop where
  | object {properties : List (String × SchemaNode)} {additional : Option SchemaNode}
      (h : ∀ key constant, (key, string (some constant)) ∈ properties →
        (sample.bind fun j => j.field? key) = some (.str constant)) :
      Fits sample (object properties additional)

/-- What stands for a node where the sample is the given one.  For a choice this is its first
variant that fits. -/
inductive StandsFor (sample : Option Json) : SchemaNode → SchemaNode → Prop where
  | itself {node : SchemaNode} (h : ∀ variants, node ≠ oneOf variants) : StandsFor sample node node
  | variant {before after : List SchemaNode} {n : SchemaNode} (hfits : n.Fits sample)
      (hfirst : ∀ v ∈ before, ¬ v.Fits sample) : StandsFor sample (oneOf (before ++ n :: after)) n

/-- The node that a path from a node leads to, where the sample is taken along. -/
inductive Governs : List String → SchemaNode → Option Json → SchemaNode → Prop where
  | stop {node n : SchemaNode} {sample : Option Json} (h : StandsFor sample node n) :
      Governs [] node sample n
  | step {segment : String} {rest : List String} {node n child m : SchemaNode}
      {sample : Option Json} (h : StandsFor sample node n) (hchild : n.child? segment = some child)
      (hrest : Governs rest child (sample.bind fun j => j.field? segment) m) :
      Governs (segment :: rest) node sample m

variable {node n m : SchemaNode} {sample : Option Json} {path p q : List String}

/-! ## Choices -/

theorem string?_eq_some {j : Json} {s : String} : j.string? = some s ↔ j = .str s := by
  cases j with
  | str t => exact ⟨fun h => congrArg Json.str (Option.some.inj h), fun h => by cases h; rfl⟩
  | _ => exact ⟨nofun, nofun⟩

theorem agrees_iff {e : String × SchemaNode} :
    agrees sample e = true ↔ ∀ constant, e.2 = string (some constant) →
      (sample.bind fun j => j.field? e.1) = some (.str constant) := by
  obtain ⟨key, node⟩ := e
  unfold agrees
  split
  · next key constant heq =>
    cases heq
    rw [beq_iff_eq, Option.bind_eq_some_iff]
    constructor
    · rintro ⟨j, hj, hs⟩ c hc
      cases hc
      rw [hj, string?_eq_some.1 hs]
    · intro hall
      exact ⟨_, hall constant rfl, rfl⟩
  · next hother =>
    refine iff_of_true rfl fun constant hc => ?_
    dsimp only at hc
    exact absurd (by rw [hc]) (hother key constant)

theorem matchesSample_iff : node.matchesSample sample = true ↔ node.Fits sample := by
  cases node with
  | object properties additional =>
    rw [matchesSample, List.all_eq_true]
    constructor
    · intro h
      exact .object fun key constant hmem => agrees_iff.1 (h _ hmem) constant rfl
    · rintro ⟨h⟩ ⟨key, child⟩ hmem
      exact agrees_iff.2 fun constant hc => h key constant (by rw [← hc]; exact hmem)
  | _ => exact ⟨nofun, nofun⟩

theorem select_of_ne_oneOf (h : ∀ variants, node ≠ oneOf variants) :
    node.select sample path = .ok node := by
  cases node with
  | oneOf variants => exact absurd rfl (h variants)
  | _ => rfl

theorem select_eq_ok : node.select sample path = .ok n ↔ StandsFor sample node n := by
  constructor
  · intro h
    unfold select at h
    split at h
    · next variants =>
      split at h
      · next variant hfind =>
        cases h
        obtain ⟨hmatches, before, after, rfl, hbefore⟩ := List.find?_eq_some_iff_append.1 hfind
        refine .variant (matchesSample_iff.1 hmatches) fun v hv hfits => ?_
        have hno := hbefore v hv
        rw [matchesSample_iff.2 hfits] at hno
        cases hno
      · cases h
    · next hother =>
      cases h
      exact .itself hother
  · intro h
    cases h with
    | itself h => exact select_of_ne_oneOf h
    | @variant before after _ hfits hfirst =>
      have hfind : (before ++ n :: after).find? (matchesSample sample) = some n := by
        refine List.find?_eq_some_iff_append.2 ⟨matchesSample_iff.2 hfits, before, after, rfl, ?_⟩
        intro v hv
        have hno : ¬ v.matchesSample sample = true := fun h => hfirst v hv (matchesSample_iff.1 h)
        simpa using hno
      rw [select, hfind]

/-- What stands for a node is no choice. -/
theorem StandsFor.ne_oneOf (h : StandsFor sample node n) (variants : List SchemaNode) :
    n ≠ oneOf variants := by
  cases h with
  | itself h => exact h variants
  | variant hfits _ =>
    cases hfits
    exact nofun

theorem StandsFor.unique (h : StandsFor sample node n) (h' : StandsFor sample node m) : m = n := by
  have hn : node.select sample [] = .ok n := select_eq_ok.2 h
  have hm : node.select sample [] = .ok m := select_eq_ok.2 h'
  rw [hn] at hm
  exact (Except.ok.inj hm).symm

/-- From what stands for a node the same can be reached as from the node. -/
theorem governs_of_standsFor (h : StandsFor sample node n) :
    Governs q node sample m ↔ Governs q n sample m := by
  have hself : StandsFor sample n n := .itself h.ne_oneOf
  constructor
  · rintro (⟨hm⟩ | ⟨ht, hchild, hrest⟩)
    · rw [h.unique hm]
      exact .stop hself
    · rw [h.unique ht] at hchild
      exact .step hself hchild hrest
  · rintro (⟨hm⟩ | ⟨ht, hchild, hrest⟩)
    · rw [hself.unique hm]
      exact .stop h
    · rw [hself.unique ht] at hchild
      exact .step h hchild hrest

/-! ## Paths -/

theorem follow_eq_ok : node.follow path q sample = .ok m ↔ Governs q node sample m := by
  induction q generalizing path node sample with
  | nil =>
    rw [follow, select_eq_ok]
    constructor
    · exact .stop
    · rintro ⟨h⟩
      exact h
  | cons segment rest ih =>
    rw [follow]
    constructor
    · intro h
      cases hs : node.select sample path with
      | error e =>
        rw [hs] at h
        cases h
      | ok n =>
        rw [hs] at h
        dsimp only [bind, Except.bind] at h
        cases hc : n.child? segment with
        | none =>
          rw [hc] at h
          cases h
        | some child =>
          rw [hc] at h
          exact .step (select_eq_ok.1 hs) hc (ih.1 h)
    · intro h
      cases h with
      | step hs hc hrest =>
        rw [select_eq_ok.2 hs]
        dsimp only [bind, Except.bind]
        rw [hc]
        exact ih.2 hrest

theorem Governs.ne_oneOf (h : Governs p node sample n) (variants : List SchemaNode) :
    n ≠ oneOf variants := by
  induction h with
  | stop h => exact h.ne_oneOf variants
  | step _ _ _ ih => exact ih

/-- What is behind the first part of a path is found from the node that governs the first part. -/
theorem governs_append (h : Governs p node sample n) :
    Governs (p ++ q) node sample m ↔ Governs q n (sample.bind fun j => j.at? p) m := by
  induction h with
  | @stop node n sample h =>
    have hsample : (sample.bind fun j => j.at? []) = sample := by cases sample <;> rfl
    rw [hsample]
    exact governs_of_standsFor h
  | @step segment rest node n child l sample h hchild _ ih =>
    have hsample : (sample.bind fun j => j.at? (segment :: rest))
        = (sample.bind fun j => j.field? segment).bind fun j => j.at? rest := by
      cases sample <;> rfl
    rw [hsample, ← ih]
    constructor
    · rintro (_ | ⟨h', hchild', hrest'⟩)
      rw [h.unique h', hchild] at hchild'
      cases hchild'
      exact hrest'
    · exact .step h hchild

/-- The first part of a path that is governed is governed. -/
theorem Governs.exists_front (h : Governs (p ++ q) node sample m) :
    ∃ n, Governs p node sample n := by
  induction p generalizing node sample with
  | nil =>
    cases h with
    | stop h => exact ⟨_, .stop h⟩
    | step h _ _ => exact ⟨_, .stop h⟩
  | cons segment rest ih =>
    obtain _ | ⟨h, hchild, hrest⟩ := h
    obtain ⟨n, hn⟩ := ih hrest
    exact ⟨n, .step h hchild hn⟩

end SchemaNode

namespace Schema

/-- The sample with its data replaced by what stands in them at a path, or without data where
nothing stands there. -/
def sampleAt (path : List String) (sample : Json) : Json :=
  Json.edit ["data"] ((sample.field? "data").bind fun data => data.at? path) sample

theorem field?_sampleAt (path : List String) (sample : Json) :
    (sampleAt path sample).field? "data"
      = (sample.field? "data").bind fun data => data.at? path := by
  have hat (j : Json) : j.at? ["data"] = j.field? "data" := by
    rw [Json.at?_cons]
    cases j.field? "data" <;> rfl
  rw [← hat]
  exact Json.at?_edit_self ["data"] _ sample (List.cons_ne_nil _ _)

/-- A path is resolved to the node that governs it, which is no choice of variants.  A path in two
parts is resolved in two steps: the second part in the schema of the node of the first one, with the
sample taken along.  It fails where its first part fails. -/
theorem resolve_append (schema : Schema) (sample : Json) (p q : List String) :
    (∀ m, schema.resolve p sample = .ok m ↔ schema.root.Governs p (sample.field? "data") m) ∧
    (∀ n, schema.resolve p sample = .ok n → (∀ variants, n ≠ .oneOf variants) ∧
      ∀ m, schema.resolve (p ++ q) sample = .ok m ↔
        { schema with root := n }.resolve q (sampleAt p sample) = .ok m) ∧
    ((∃ e, schema.resolve p sample = .error e) →
      ∃ e, schema.resolve (p ++ q) sample = .error e) := by
  have hgoverns (schema : Schema) (path : List String) (sample : Json) (m : SchemaNode) :
      schema.resolve path sample = .ok m ↔ schema.root.Governs path (sample.field? "data") m :=
    SchemaNode.follow_eq_ok
  refine ⟨hgoverns schema p sample, fun n hn => ?_, ?_⟩
  · rw [hgoverns] at hn
    refine ⟨hn.ne_oneOf, fun m => ?_⟩
    rw [hgoverns, hgoverns, field?_sampleAt]
    exact SchemaNode.governs_append hn
  · rintro ⟨e, he⟩
    cases hboth : schema.resolve (p ++ q) sample with
    | error e => exact ⟨e, rfl⟩
    | ok m =>
      obtain ⟨n, hn⟩ := ((hgoverns ..).1 hboth).exists_front
      rw [← hgoverns, he] at hn
      cases hn

/-- The sample chooses the second of two crops, whether the path is followed in one part or in
two. -/
theorem resolve_append_crops :
    let corn := SchemaNode.object [("crop", .string (some "corn")), ("rows", .number)] none
    let bean := SchemaNode.object [("crop", .string (some "bean")), ("poles", .boolean)] none
    let beds : Schema := Schema.mk "beds" none none (.object [] (some (.oneOf [corn, bean])))
    let sample := Json.obj [("data", .obj [("b1", .obj [("crop", .str "bean")])])]
    beds.resolve ["b1", "poles"] sample = .ok .boolean ∧
      { beds with root := bean }.resolve ["poles"] (sampleAt ["b1"] sample) = .ok .boolean := by
  intro corn bean beds sample
  have hfront : beds.resolve ["b1"] sample = .ok bean := rfl
  have hboth : beds.resolve (["b1"] ++ ["poles"]) sample = .ok .boolean := rfl
  obtain ⟨-, hstep⟩ := (resolve_append beds sample ["b1"] ["poles"]).2.1 bean hfront
  exact ⟨hboth, (hstep .boolean).1 hboth⟩

end Schema
end Comfort
