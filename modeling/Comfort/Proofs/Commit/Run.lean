import Comfort.Commit.Basic
import Comfort.Proofs.Commit.Layout
import Comfort.Proofs.Simulation

/-!
What a commit makes of a store.

A commit is refused when the schema declares no name pointer or the mote is not stored
(`run_eq_failed`).  All others come down to the flush of one store (`run_eq_flush`), in which the mote
has the edits of the record in it and every other mote is its working copy.  Where the store has no
file that flush cannot fail (`run_eq_done`).
-/

namespace Comfort
namespace Commit

/-- Queueing changes of a stored mote only adds them to what is queued for it. -/
structure Queued (moteId : String) (changes : List Change) (s t : Store) : Prop where
  schemas : t.schemas = s.schemas
  motes : t.motes = s.motes
  backing : t.backing = s.backing
  own : t.changes moteId = s.changes moteId ++ changes
  others : ∀ id, id ≠ moteId → t.changes id = s.changes id

theorem Queued.mote? {moteId : String} {changes : List Change} {s t : Store}
    (h : Queued moteId changes s t) (id : String) : t.mote? id = s.mote? id :=
  congrArg (fun motes => motes.find? id) h.motes

/-- What the steps trace. -/
def entries (steps : List Step) : List String :=
  steps.flatMap fun step => step.trace.toList

theorem entries_cons (step : Step) (rest : List Step) :
    entries (step :: rest) = step.trace.toList ++ entries rest :=
  List.flatMap_cons

theorem queued_update {s t : Store} {moteId : String} {change : Change}
    (h : s.update moteId change = .ok t) : Queued moteId [change] s t := by
  have hchanges := Store.changes_update h
  obtain ⟨_, _, rfl⟩ := Store.update_eq_ok.1 h
  refine ⟨rfl, rfl, rfl, ?_, fun id hid => ?_⟩
  · rw [hchanges, if_pos rfl]
  · rw [hchanges, if_neg fun h => hid h.symm]

theorem Queued.trans {moteId : String} {a b : List Change} {s t u : Store}
    (h : Queued moteId a s t) (h' : Queued moteId b t u) : Queued moteId (a ++ b) s u := by
  refine ⟨h'.schemas.trans h.schemas, h'.motes.trans h.motes, h'.backing.trans h.backing, ?_,
    fun id hid => (h'.others id hid).trans (h.others id hid)⟩
  rw [h'.own, h.own, List.append_assoc]

/-- Steps on a stored mote are all run.  They queue their changes and trace what they say. -/
theorem runSteps_eq_done {moteId : String} {s : Store} {steps : List Step} (hs : s.Sound)
    (hm : (s.mote? moteId).isSome) (hv : ∀ step ∈ steps, step.change.Valid) :
    ∃ t, t.Sound ∧ Queued moteId (steps.map Step.change) s t ∧ ∀ files trace,
      runSteps moteId { store := s, files := files, trace := trace } steps
        = .done { store := t, files := files, trace := trace ++ entries steps } () := by
  induction steps generalizing s with
  | nil =>
    refine ⟨s, hs, ⟨rfl, rfl, rfl, ?_, fun id _ => rfl⟩, fun files trace => ?_⟩
    · rw [List.map_nil, List.append_nil]
    · rw [entries, List.flatMap_nil, List.append_nil]
      rfl
  | cons step rest ih =>
    have hstep := hv step List.mem_cons_self
    obtain ⟨u, hu⟩ : ∃ u, s.update moteId step.change = .ok u :=
      ⟨_, Store.update_eq_ok.2 ⟨hm, hstep.addressed, rfl⟩⟩
    have hqueued := queued_update hu
    have hum : (u.mote? moteId).isSome := by
      rw [hqueued.mote?]
      exact hm
    obtain ⟨t, hsound, hrest, hrun⟩ := ih (Store.sound_update hs hstep.canonical hu) hum
      fun step hmem => hv step (List.mem_cons_of_mem _ hmem)
    refine ⟨t, hsound, hqueued.trans hrest, fun files trace => ?_⟩
    rw [runSteps, runStep]
    dsimp only
    rw [hu, Outcome.andThen_done, hrun, entries_cons, List.append_assoc]

theorem checkSchema_eq_done {s t : State} {schemaId : String} :
    checkSchema s schemaId = .done t () ↔
      t = s ∧ ∃ schema, s.store.schema? schemaId = some schema ∧ schema.name.isSome := by
  unfold checkSchema
  constructor
  · intro h
    split at h
    · cases h
    · next schema hschema =>
      split at h
      · cases h
      · next hnone =>
        cases h
        refine ⟨rfl, schema, hschema, Option.isSome_iff_ne_none.2 fun hn => hnone ?_⟩
        rw [hn]
        rfl
  · rintro ⟨rfl, schema, hschema, hname⟩
    rw [hschema]
    dsimp only
    rw [if_neg]
    intro hnone
    rw [Option.isNone_iff_eq_none.1 hnone] at hname
    cases hname

/-- A store after a commit into a mote. -/
structure Committed (r : Record) (moteId : String) (s t : Store) : Prop where
  schemas : t.schemas = s.schemas
  backing : t.backing = s.backing
  pending : t.pending = .empty
  own : t.mote? moteId = (s.mote? moteId).map fun m => m.changed (changes r moteId)
  others : ∀ id, id ≠ moteId → t.mote? id = s.working? id

/-- What a commit needs. -/
structure Ready (moteId schemaId : String) (s : Store) : Prop where
  stored : (s.mote? moteId).isSome
  named : ∃ schema, s.schema? schemaId = some schema ∧ schema.name.isSome

theorem committed_of_settled {r : Record} {moteId : String} {s t u : Store} (hs : s.Sound)
    (ht : t.Sound) (hq : Queued moteId (changes r moteId) (s.clear moteId) t)
    (hu : Store.Settled t u) : Committed r moteId s u := by
  have hmote : ∀ id, t.mote? id = s.mote? id := hq.mote?
  refine ⟨hu.schemas.trans hq.schemas, hu.backing.trans hq.backing, hu.pending, ?_, fun id hid => ?_⟩
  · have hown : t.changes moteId = changes r moteId := by
      rw [hq.own, Store.changes_clear, if_pos rfl, List.nil_append]
    rw [hu.motes, Store.working?_of_orderly ht.orderly, hmote, hown]
  · have hother : t.changes id = s.changes id := by
      rw [hq.others id hid, Store.changes_clear, if_neg fun h => hid h.symm]
    rw [hu.motes, Store.working?_of_orderly ht.orderly, Store.working?_of_orderly hs.orderly, hmote,
      hother]

/-! ## A commit that has what it needs

All its steps are run, so it can only fail at the end, when the store is flushed. -/

theorem valid_steps (r : Record) (moteId : String) :
    ∀ step ∈ scalarSteps r ++ questSteps r moteId, step.change.Valid :=
  fun step hstep => (laidOut_changes r moteId).1 step.change (List.mem_map_of_mem hstep)

/-- A commit before it has checked anything. -/
def begun (moteId schemaId : String) (s : Store) (files : Files) : State :=
  { store := s.clear moteId
    files := files
    trace := ["clearing pending changes for " ++ moteId, "checking " ++ schemaId ++ " schema"] }

theorem run_eq (r : Record) (moteId schemaId : String) (s : Store) (files : Files) :
    run r moteId schemaId s files =
      (checkSchema (begun moteId schemaId s files) schemaId).andThen fun s _ =>
        ((runSteps moteId s (scalarSteps r ++ questSteps r moteId)).andThen fun s _ =>
          flush (addTrace s "flushing changes")).mapError .store :=
  rfl

/-- What a commit traces that runs to its end. -/
def plan (r : Record) (moteId schemaId : String) : List String :=
  ["clearing pending changes for " ++ moteId, "checking " ++ schemaId ++ " schema"]
    ++ entries (scalarSteps r ++ questSteps r moteId) ++ ["flushing changes"]

/-- What a commit makes of a flush depends on nothing but the flush. -/
theorem flush_congr {s t : Store} {fs gs : Files} (h : s.flush fs = t.flush gs)
    (trace : List String) :
    flush { store := s, files := fs, trace := trace }
      = flush { store := t, files := gs, trace := trace } := by
  unfold flush
  dsimp only
  rw [h]

theorem flush_eq_done {s t : State} :
    flush s = .done t () ↔
      s.store.flush s.files = .done (t.store, t.files) () ∧ t.trace = s.trace := by
  unfold flush
  cases s.store.flush s.files with
  | failed left e => simp
  | done left _ =>
    constructor
    · intro h
      cases h
      exact ⟨rfl, rfl⟩
    · rintro ⟨hleft, htrace⟩
      cases hleft
      rw [← htrace]

theorem flush_eq_failed {s t : State} {e : StoreError} :
    flush s = .failed t e ↔
      s.store.flush s.files = .failed (t.store, t.files) e ∧ t.trace = s.trace := by
  unfold flush
  cases s.store.flush s.files with
  | done left _ => simp
  | failed left e' =>
    constructor
    · intro h
      cases h
      exact ⟨rfl, rfl⟩
    · rintro ⟨hleft, htrace⟩
      cases hleft
      rw [← htrace]

/-- A commit that has what it needs comes down to the flush of the store that it leaves. -/
theorem run_eq_flush {moteId schemaId : String} {s : Store} (hs : s.Sound)
    (h : Ready moteId schemaId s) (r : Record) : ∃ t, Committed r moteId s t ∧ ∀ files,
      run r moteId schemaId s files
        = (flush { store := t, files := files, trace := plan r moteId schemaId }).mapError .store := by
  obtain ⟨queued, hsound, hqueued, hsteps⟩ :=
    runSteps_eq_done (Store.sound_clear hs moteId) h.stored (valid_steps r moteId)
  obtain ⟨t, hsettle, hsettled⟩ := Store.settle_eq_done hsound.orderly
  refine ⟨t, committed_of_settled hs hsound hqueued hsettled, fun files => ?_⟩
  have hcheck : checkSchema (begun moteId schemaId s files) schemaId
      = .done (begun moteId schemaId s files) () :=
    checkSchema_eq_done.2 ⟨rfl, h.named⟩
  rw [run_eq, hcheck, Outcome.andThen_done, begun, hsteps, Outcome.andThen_done, addTrace, ← plan,
    flush_congr (hsettled.flush_eq hsettle files)]

/-- A commit into a store without a file runs to its end when it has what it needs. -/
theorem run_eq_done {r : Record} {moteId schemaId : String} {s : Store} (hs : s.Sound)
    (hb : s.backing = none) (h : Ready moteId schemaId s) (files : Files) :
    ∃ t, run r moteId schemaId s files = .done t () ∧ t.files = files ∧
      Committed r moteId s t.store := by
  obtain ⟨t, hcommitted, hrun⟩ := run_eq_flush hs h r
  refine ⟨{ store := t, files := files, trace := plan r moteId schemaId }, ?_, rfl, hcommitted⟩
  rw [hrun, flush, Store.flush_of_pending hcommitted.pending, hcommitted.backing, hb]
  rfl

/-! ## A commit that lacks what it needs

The schema is checked first, then whether it declares a name pointer.  Whether the mote is stored
shows when the first change of it is queued. -/

/-- Why a commit is refused before the store is flushed, if it is. -/
def refusal? (s : Store) (moteId schemaId : String) : Option CommitError :=
  match s.schema? schemaId with
  | none => some (.schemaNotFound schemaId)
  | some schema =>
    if schema.name.isNone then some (.missingNamePointer schemaId)
    else if (s.mote? moteId).isNone then some (.store (.unknownMote moteId))
    else none

/-- How many steps a refused commit has begun, the refused one counted. -/
def stepsBegun : CommitError → Nat
  | .store _ => 3
  | _ => 2

theorem refusal?_eq_some {s : Store} {moteId schemaId : String} {e : CommitError} :
    refusal? s moteId schemaId = some e ↔
      (s.schema? schemaId = none ∧ .schemaNotFound schemaId = e) ∨
      (∃ schema, s.schema? schemaId = some schema ∧ schema.name = none ∧
        .missingNamePointer schemaId = e) ∨
      ((∃ schema, s.schema? schemaId = some schema ∧ schema.name.isSome) ∧
        s.mote? moteId = none ∧ .store (.unknownMote moteId) = e) := by
  unfold refusal?
  cases s.schema? schemaId with
  | none => simp
  | some schema =>
    cases hname : schema.name with
    | none => simp [hname]
    | some pointer => cases s.mote? moteId <;> simp [hname]

theorem ready_iff {s : Store} {moteId schemaId : String} :
    Ready moteId schemaId s ↔ refusal? s moteId schemaId = none := by
  constructor
  · rintro ⟨hstored, schema, hschema, hname⟩
    rw [refusal?, hschema]
    simp [Option.isSome_iff_ne_none.1 hstored, Option.isSome_iff_ne_none.1 hname]
  · rw [Option.eq_none_iff_forall_ne_some]
    intro h
    cases hschema : s.schema? schemaId with
    | none => exact absurd (refusal?_eq_some.2 (.inl ⟨hschema, rfl⟩)) (h _)
    | some schema =>
      cases hname : schema.name with
      | none => exact absurd (refusal?_eq_some.2 (.inr (.inl ⟨schema, hschema, hname, rfl⟩))) (h _)
      | some pointer =>
        have hnamed : ∃ schema, s.schema? schemaId = some schema ∧ schema.name.isSome :=
          ⟨schema, hschema, by rw [hname]; rfl⟩
        cases hmote : s.mote? moteId with
        | none => exact absurd (refusal?_eq_some.2 (.inr (.inr ⟨hnamed, hmote, rfl⟩))) (h _)
        | some mote => exact ⟨by rw [hmote]; rfl, hnamed⟩

theorem update_of_not_stored {s : Store} {moteId : String} (h : s.mote? moteId = none)
    (change : Change) : s.update moteId change = .error (.unknownMote moteId) := by
  have hcontains : s.motes.contains moteId = false := by
    show (s.mote? moteId).isSome = false
    rw [h]
    rfl
  rw [Store.update, hcontains]
  rfl

/-- A refused commit has dropped what was queued for the mote, and done nothing else. -/
theorem run_eq_failed {s : Store} {moteId schemaId : String} {e : CommitError}
    (h : refusal? s moteId schemaId = some e) (r : Record) (files : Files) :
    run r moteId schemaId s files = .failed
      { store := s.clear moteId
        files := files
        trace := (plan r moteId schemaId).take (stepsBegun e) } e := by
  have hfind : (begun moteId schemaId s files).store.schema? schemaId = s.schema? schemaId := rfl
  rw [run_eq]
  rcases refusal?_eq_some.1 h with ⟨hnone, rfl⟩ | ⟨schema, hschema, hname, rfl⟩ | ⟨hnamed, hmote, rfl⟩
  · rw [checkSchema, hfind, hnone]
    rfl
  · rw [checkSchema, hfind, hschema]
    dsimp only
    rw [hname]
    rfl
  · have hcheck : checkSchema (begun moteId schemaId s files) schemaId
        = .done (begun moteId schemaId s files) () :=
      checkSchema_eq_done.2 ⟨rfl, hnamed⟩
    have hupdate : ∀ change, (s.clear moteId).update moteId change = .error (.unknownMote moteId) :=
      update_of_not_stored hmote
    -- The first change is that of the name.
    rw [hcheck, Outcome.andThen_done, scalarSteps, List.cons_append, runSteps, runStep]
    dsimp only [begun]
    rw [hupdate]
    rfl

/-- A commit that ran to its end had what it needs. -/
theorem ready_of_run {r : Record} {moteId schemaId : String} {s : Store} {files : Files} {t : State}
    (h : run r moteId schemaId s files = .done t ()) : Ready moteId schemaId s := by
  rw [ready_iff]
  cases hrefusal : refusal? s moteId schemaId with
  | none => rfl
  | some e =>
    rw [run_eq_failed hrefusal] at h
    cases h

/-- Everything about a commit that ran to its end, whether or not the store has a file. -/
theorem spec_of_run {r : Record} {moteId schemaId : String} {s : Store} {files : Files} {t : State}
    (hs : s.Sound) (h : run r moteId schemaId s files = .done t ()) :
    Committed r moteId s t.store ∧ t.store.flush files = .done (t.store, t.files) () ∧
      t.trace = plan r moteId schemaId := by
  obtain ⟨u, hcommitted, hrun⟩ := run_eq_flush hs (ready_of_run h) r
  rw [hrun, Outcome.mapError_eq_done, flush_eq_done] at h
  obtain ⟨hflush, htrace⟩ := h
  have hstore : t.store = u := by
    have hstate := Store.flush_state (Store.settle_of_pending hcommitted.pending) files
    rw [hflush] at hstate
    exact hstate
  rw [hstore]
  exact ⟨hcommitted, hstore ▸ hflush, htrace⟩

theorem committed_of_run {r : Record} {moteId schemaId : String} {s : Store} {files : Files}
    {t : State} (hs : s.Sound) (h : run r moteId schemaId s files = .done t ()) :
    Committed r moteId s t.store :=
  (spec_of_run hs h).1

theorem Committed.sound {r : Record} {moteId : String} {s t : Store} (hs : s.Sound)
    (h : Committed r moteId s t) : t.Sound := by
  have hnone : ∀ id, t.pending.find? id = none := fun id => by
    rw [h.pending]
    rfl
  constructor
  · intro id changes hc
    rw [hnone id] at hc
    cases hc
  · intro id c hc
    rw [Store.changes, hnone id] at hc
    cases hc
  · intro id m hm
    by_cases hid : id = moteId
    · subst hid
      rw [h.own] at hm
      obtain ⟨old, hold, rfl⟩ := Option.map_eq_some_iff.1 hm
      exact Change.canonical_editAll (laidOut_changes r id).1 (hs.canonical id old hold)
    · rw [h.others id hid, Store.working?_of_orderly hs.orderly] at hm
      obtain ⟨old, hold, rfl⟩ := Option.map_eq_some_iff.1 hm
      exact Change.canonical_editAll (hs.valid id) (hs.canonical id old hold)

/-! ## What a commit keeps

A commit does nothing to a store but clear a queue, queue changes and flush, so it keeps whatever
these three keep. -/

/-- What is kept by everything that a commit does. -/
structure Keeps (P : Store → Prop) : Prop where
  clear : ∀ {s : Store} (id : String), P s → P (s.clear id)
  update : ∀ {s t : Store} {id : String} {change : Change},
    change.Valid → s.update id change = .ok t → P s → P t
  flush : ∀ {s : Store} (files : Files), P s → P (s.flush files).state.1

variable {P : Store → Prop}

theorem Keeps.runSteps (hk : Keeps P) {moteId : String} {s : State} {steps : List Step}
    (hs : P s.store) (hv : ∀ step ∈ steps, step.change.Valid) :
    P (runSteps moteId s steps).state.store := by
  induction steps generalizing s with
  | nil => exact hs
  | cons step rest ih =>
    have hstep := hv step List.mem_cons_self
    unfold Commit.runSteps runStep
    dsimp only
    split
    · next store hstore =>
      have hstored : P store := hk.update hstep hstore hs
      exact ih (s := { s with trace := s.trace ++ step.trace.toList, store := store }) hstored
        fun step hmem => hv step (List.mem_cons_of_mem _ hmem)
    · exact hs

theorem Keeps.flushState (hk : Keeps P) {s : State} (hs : P s.store) :
    P (Commit.flush s).state.store := by
  have h := hk.flush s.files hs
  unfold Commit.flush
  generalize s.store.flush s.files = o at h ⊢
  cases o with
  | done t u => exact h
  | failed t e => exact h

theorem state_mapError {σ ε ε' α : Type} (f : ε → ε') (o : Outcome σ ε α) :
    (o.mapError f).state = o.state := by
  cases o <;> rfl

theorem store_of_checkSchema (s : State) (schemaId : String) :
    (checkSchema s schemaId).state = s := by
  unfold checkSchema
  split
  · rfl
  · split <;> rfl

theorem Keeps.run (hk : Keeps P) {r : Record} {moteId schemaId : String} {s : Store}
    {files : Files} (hs : P s) : P (run r moteId schemaId s files).state.store := by
  have hclear : P (s.clear moteId) := hk.clear moteId hs
  unfold Commit.run
  dsimp only
  generalize hstate : addTrace _ ("checking " ++ schemaId ++ " schema") = u
  have hu : P u.store := by
    rw [← hstate]
    exact hclear
  have hchecked := store_of_checkSchema u schemaId
  cases hcheck : checkSchema u schemaId with
  | failed t e =>
    rw [hcheck] at hchecked
    cases hchecked
    exact hu
  | done t _ =>
    rw [hcheck] at hchecked
    cases hchecked
    have hrun : P (Commit.runSteps moteId t (scalarSteps r ++ questSteps r moteId)).state.store :=
      hk.runSteps hu (valid_steps r moteId)
    rw [Outcome.andThen_done, state_mapError]
    cases hsteps : Commit.runSteps moteId t (scalarSteps r ++ questSteps r moteId) with
    | failed v e =>
      rw [hsteps] at hrun
      exact hrun
    | done v _ =>
      rw [hsteps] at hrun
      exact hk.flushState hrun

/-- A commit keeps the queue in order. -/
theorem orderly_run {r : Record} {moteId schemaId : String} {s : Store} {files : Files}
    (hs : s.Orderly) : (run r moteId schemaId s files).state.store.Orderly :=
  have hkeeps : Keeps Store.Orderly :=
    { clear := fun id h => Store.orderly_clear h id
      update := fun _ ht h => Store.orderly_update h ht
      flush := fun files h => Store.orderly_flush h files }
  hkeeps.run hs

/-! ## A store to commit into -/

def questSchema : Schema :=
  { id := "quest", title := none, name := some namePointer, root := .object [] none }

def questMote : Mote :=
  { id := "grove"
    schemaId := "quest"
    data := .obj [("name", .obj [("text", .str "Old")]), ("stages", .arr [])] }

def questStore : Store :=
  (({} : Store).insertSchema questSchema).insertMote questMote

theorem canonical_questMote : questMote.data.Canonical := by
  have hkeys : Keyed.Ascending
      [("name", Json.obj [("text", .str "Old")]), ("stages", Json.arr [])] :=
    List.pairwise_pair.2 (by decide)
  have htext : Keyed.Ascending [("text", Json.str "Old")] := List.pairwise_singleton ..
  exact ⟨hkeys, ⟨htext, trivial, trivial⟩, trivial, trivial⟩

theorem reachable_questStore : questStore.Reachable :=
  .insertMote canonical_questMote (.insertSchema questSchema .empty)

theorem ready_questStore : Ready "grove" "quest" questStore :=
  ⟨rfl, questSchema, rfl, rfl⟩

/-- The same store with two more motes. -/
def questStores : Store :=
  (questStore.insertMote { questMote with id := "brook" }).insertMote { questMote with id := "glade" }

/-- The same motes, with a change queued for one of them. -/
def waitingStore : Store :=
  { questStores with
    pending := Table.empty.insert "grove" [write namePointer (.str "New")] }

theorem reachable_waitingStore : waitingStore.Reachable := by
  have hmotes : questStores.Reachable :=
    .insertMote canonical_questMote (.insertMote canonical_questMote reachable_questStore)
  have hqueue : questStores.update "grove" (write namePointer (.str "New")) = .ok waitingStore := rfl
  refine .update (fun v hv => ?_) hqueue hmotes
  cases hv
  trivial

end Commit
end Comfort
