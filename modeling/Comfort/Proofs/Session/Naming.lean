import Mathlib.Data.List.Nodup
import Comfort.Proofs.Mote.Allowed
import Comfort.Session.Speakers

/-!
Whom a speaker in a document means.

A speaker is looked up by its id and by the display names at once, and of the allowed speakers that
fit the first one is taken.  So an id that is written means its own mote, unless another mote with a
smaller id bears it as a display name: `resolveSpeaker_of_id`.  There the line goes to the namesake:
`not_resolves_namesake`.
-/

namespace Comfort

namespace Speaker

/-- The display name of the speaker is this text, in any case. -/
def BearsName (s : Speaker) (text : String) : Prop :=
  ∃ name, s.name = some name ∧ sameIgnoringCase name text = true

theorem isNamed_iff {s : Speaker} {text : String} :
    s.isNamed text = true ↔ s.id = text ∨ s.BearsName text := by
  rw [isNamed, Bool.or_eq_true, beq_iff_eq, Option.any_eq_true, BearsName]

theorem isNamed_id (s : Speaker) : s.isNamed s.id = true :=
  isNamed_iff.2 (.inl rfl)

theorem ascending_allowed {store : Store} (hs : store.Reachable) {questSchemaId : String}
    {speakers : List Speaker} (h : allowed store questSchemaId = .ok speakers) :
    speakers.Pairwise fun a b => a.id < b.id := by
  have huniverse := universe_allowed hs questSchemaId
  rw [h] at huniverse
  cases huniverse with
  | speakers _ _ _ hlists => exact hlists.ascending

end Speaker

namespace Session

/-- The session after an allowed speaker was recognised: all speakers are offered in its place, and
it is shown with its id. -/
def recognise (s : Session) (speakers : List Speaker) (c : Capture) (speaker : Speaker) : Session :=
  (s.complete c.range (candidates speakers)).hover
    (speaker.label ++ " (" ++ speaker.id ++ ")") c.range

variable {store : Store} {options : ParseOptions} {speakers : List Speaker} {speaker : Speaker}
  {c : Capture}

theorem resolveSpeaker_of_find? (s : Session)
    (hall : Speaker.allowed store options.questSchemaId = .ok speakers)
    (hfind : speakers.find? (fun other => other.isNamed c.value) = some speaker) :
    s.resolveSpeaker (.ofStore store options) c
      = .done (s.recognise speakers c speaker) (.resolved speaker.id) := by
  have hspeakers : (ParseContext.ofStore store options).speakers = .ok speakers := hall
  rw [resolveSpeaker, hspeakers]
  dsimp only
  rw [lookUpSpeaker, hfind]
  rfl

/-- In ascending order of ids, the speakers with smaller ids are those in front. -/
theorem mem_front_iff {before after : List Speaker} {other : Speaker}
    (hasc : (before ++ speaker :: after).Pairwise fun a b => a.id < b.id) :
    other ∈ before ++ speaker :: after ∧ other.id < speaker.id ↔ other ∈ before := by
  obtain ⟨-, hafter, hbefore⟩ := List.pairwise_append.1 hasc
  constructor
  · rintro ⟨h, hlt⟩
    rcases List.mem_append.1 h with h | h
    · exact h
    · rcases List.mem_cons.1 h with rfl | h
      · exact absurd hlt (String.lt_irrefl _)
      · have hgt := (List.pairwise_cons.1 hafter).1 other h
        exact absurd (String.lt_trans hlt hgt) (String.lt_irrefl _)
  · intro h
    exact ⟨List.mem_append_left _ h, hbefore other h speaker List.mem_cons_self⟩

/-- What fits is found where nothing in front of it fits. -/
theorem find?_front {before : List Speaker} {p : Speaker → Bool} (hp : p speaker = true)
    (hfront : speaker ∉ before) (after : List Speaker) :
    (before ++ speaker :: after).find? p = some speaker ↔ ∀ other ∈ before, ¬ p other = true := by
  rw [List.find?_append, List.find?_cons_of_pos hp]
  cases hfind : before.find? p with
  | none => exact iff_of_true rfl (List.find?_eq_none.1 hfind)
  | some other =>
    have hother := List.mem_of_find?_eq_some hfind
    refine iff_of_false (fun heq => ?_) fun hnone => hnone other hother (List.find?_some hfind)
    exact hfront (Option.some.inj heq ▸ hother)

/-- In ascending order of ids, what a speaker's id finds first is the speaker, unless one with a
smaller id bears that id as its name. -/
theorem find?_isNamed_id (hasc : speakers.Pairwise fun a b => a.id < b.id)
    (hmem : speaker ∈ speakers) :
    speakers.find? (fun other => other.isNamed speaker.id) = some speaker ↔
      ∀ other ∈ speakers, other.id < speaker.id → ¬ other.BearsName speaker.id := by
  obtain ⟨before, after, rfl⟩ := List.append_of_mem hmem
  have hfront : speaker ∉ before := fun h =>
    String.lt_irrefl _ ((mem_front_iff hasc).2 h).2
  rw [find?_front speaker.isNamed_id hfront]
  constructor
  · intro h other hother hlt hbears
    exact h other ((mem_front_iff hasc).1 ⟨hother, hlt⟩) (Speaker.isNamed_iff.2 (.inr hbears))
  · intro h other hother hnamed
    obtain ⟨hin, hlt⟩ := (mem_front_iff hasc).2 hother
    rcases Speaker.isNamed_iff.1 hnamed with hid | hbears
    · rw [hid] at hlt
      exact String.lt_irrefl _ hlt
    · exact h other hin hlt hbears

/-- The id of an allowed speaker always finds an allowed speaker, the first one that it fits.  That
is the speaker itself, with its hover, exactly when no speaker with a smaller id bears the id as its
display name. -/
theorem resolveSpeaker_of_id (s : Session)
    (hall : Speaker.allowed store options.questSchemaId = .ok speakers)
    (hmem : speaker ∈ speakers) (hc : c.value = speaker.id) :
    (∃ before found after, speakers = before ++ found :: after ∧
      (found.id = speaker.id ∨ found.BearsName speaker.id) ∧
      (∀ other ∈ before, other.id ≠ speaker.id ∧ ¬ other.BearsName speaker.id) ∧
      s.resolveSpeaker (.ofStore store options) c
        = .done (s.recognise speakers c found) (.resolved found.id)) ∧
    (store.Reachable →
      (s.resolveSpeaker (.ofStore store options) c
          = .done (s.recognise speakers c speaker) (.resolved speaker.id) ↔
        ∀ other ∈ speakers, other.id < speaker.id → ¬ other.BearsName speaker.id)) := by
  have hsome : (speakers.find? fun other => other.isNamed c.value).isSome = true := by
    rw [hc]
    exact List.find?_isSome.2 ⟨speaker, hmem, speaker.isNamed_id⟩
  obtain ⟨found, hfind⟩ := Option.isSome_iff_exists.1 hsome
  have hresolve := resolveSpeaker_of_find? s hall hfind
  rw [hc] at hfind
  constructor
  · obtain ⟨hnamed, before, after, hsplit, hbefore⟩ := List.find?_eq_some_iff_append.1 hfind
    refine ⟨before, found, after, hsplit, Speaker.isNamed_iff.1 hnamed, fun other hother => ?_,
      hresolve⟩
    have hno : ¬ other.isNamed speaker.id = true := by simpa using hbefore other hother
    rw [Speaker.isNamed_iff, not_or] at hno
    exact hno
  · intro hs
    have hasc := Speaker.ascending_allowed hs hall
    have hids : (speakers.map Speaker.id).Nodup :=
      List.pairwise_map.2 (hasc.imp fun hlt => Std.ne_of_lt hlt)
    rw [← find?_isNamed_id hasc hmem, hfind, hresolve]
    constructor
    · intro h
      injection h with _ hvalue
      rw [List.inj_on_of_nodup_map hids (List.mem_of_find?_eq_some hfind) hmem
        (SpeakerCheck.resolved.inj hvalue)]
    · intro h
      cases h
      rfl

/-! ## A namesake -/

open Store (gladeSchema npcSchema named canonical_named)

/-- The display name of one mote is the id of another one, which has no name of its own. -/
def cairnStore : Store :=
  ((({} : Store).insertSchema gladeSchema).insertSchema npcSchema).insertMote
      (named "npc_ada" "npc" "npc_bo")
    |>.insertMote { id := "npc_bo", schemaId := "npc", data := .obj [] }

def cairnSpeakers : List Speaker :=
  [⟨"npc_ada", some "npc_bo"⟩, ⟨"npc_bo", none⟩]

theorem reachable_cairnStore : cairnStore.Reachable :=
  .insertMote Json.canonical_emptyObject (.insertMote (canonical_named ..)
    (.insertSchema npcSchema (.insertSchema gladeSchema .empty)))

theorem allowed_cairnStore : Speaker.allowed cairnStore Schema.questId = .ok cairnSpeakers := by
  decide +kernel

/-- A third mote with a name that is no id. -/
def moorStore : Store :=
  cairnStore.insertMote (named "npc_cy" "npc" "Cyrus")

def moorSpeakers : List Speaker :=
  cairnSpeakers ++ [⟨"npc_cy", some "Cyrus"⟩]

theorem allowed_moorStore : Speaker.allowed moorStore Schema.questId = .ok moorSpeakers := by
  decide +kernel

/-- The first of the two is meant by its id, which nobody else bears, and so is a third one behind
them. -/
theorem resolveSpeaker_of_id_cairn :
    (ofText []).resolveSpeaker (.ofStore cairnStore {}) ⟨"npc_ada", ⟨0, 7⟩⟩
      = .done ((ofText []).recognise cairnSpeakers ⟨"npc_ada", ⟨0, 7⟩⟩ ⟨"npc_ada", some "npc_bo"⟩)
          (.resolved "npc_ada") ∧
    (ofText []).resolveSpeaker (.ofStore moorStore {}) ⟨"npc_cy", ⟨0, 6⟩⟩
      = .done ((ofText []).recognise moorSpeakers ⟨"npc_cy", ⟨0, 6⟩⟩ ⟨"npc_cy", some "Cyrus"⟩)
          (.resolved "npc_cy") := by
  constructor
  · refine ((resolveSpeaker_of_id (ofText []) allowed_cairnStore List.mem_cons_self rfl).2
      reachable_cairnStore).2 fun other hother hlt => ?_
    obtain rfl | hother := List.mem_cons.1 hother
    · exact absurd hlt (String.lt_irrefl _)
    · rw [List.mem_singleton.1 hother] at hlt
      exact absurd hlt (by decide)
  · have hmem : ⟨"npc_cy", some "Cyrus"⟩ ∈ moorSpeakers := by decide
    have hreachable : moorStore.Reachable :=
      .insertMote (canonical_named ..) reachable_cairnStore
    refine ((resolveSpeaker_of_id (ofText []) allowed_moorStore hmem rfl).2
      hreachable).2 fun other hother hlt => ?_
    -- Both others have smaller ids; one has another name, and one has none.
    obtain rfl | hother := List.mem_cons.1 hother
    · rintro ⟨name, hname, hsame⟩
      cases hname
      exact absurd hsame (by decide)
    · obtain rfl | hother := List.mem_cons.1 hother
      · rintro ⟨name, hname, -⟩
        cases hname
      · rw [List.mem_singleton.1 hother] at hlt
        exact absurd hlt (String.lt_irrefl _)

/-- The id of the second one means the first one. -/
theorem not_resolves_namesake :
    ¬ ∀ (store : Store) (options : ParseOptions) (speakers : List Speaker) (speaker : Speaker)
      (s : Session) (c : Capture), store.Reachable →
      Speaker.allowed store options.questSchemaId = .ok speakers → speaker ∈ speakers →
      c.value = speaker.id →
      s.resolveSpeaker (.ofStore store options) c
        = .done (s.recognise speakers c speaker) (.resolved speaker.id) := by
  intro h
  have hclaimed := h cairnStore {} cairnSpeakers ⟨"npc_bo", none⟩ (ofText []) ⟨"npc_bo", ⟨0, 6⟩⟩
    reachable_cairnStore allowed_cairnStore (List.mem_cons_of_mem _ List.mem_cons_self) rfl
  have hfind : cairnSpeakers.find? (fun other => other.isNamed "npc_bo")
      = some ⟨"npc_ada", some "npc_bo"⟩ := rfl
  rw [resolveSpeaker_of_find? (ofText []) allowed_cairnStore hfind] at hclaimed
  injection hclaimed with _ hvalue
  exact absurd (SpeakerCheck.resolved.inj hvalue) (by decide)

end Session
end Comfort
