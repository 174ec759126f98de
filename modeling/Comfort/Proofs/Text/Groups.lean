import Comfort.Proofs.Text.Piece
import Mathlib.Logic.Relation

/-!
The words of a text as groups of letters.

Two letters are linked when they stand side by side, or on both sides of a single apostrophe.  A
group is what can be reached from a letter by links, in either direction, and the words of a text
are its groups of more than one character: `wordsOf_words`.

The scan is followed from cut to cut.  No link leads across the place where it stands, so a group
lies on one side of that place, and what is read at a letter is the whole group of that letter.
-/

namespace Comfort
namespace Text

variable {cs before after tail : List Char} {i j k n first last : Nat} {c : Char}

/-! ## Groups -/

def LetterAt (cs : List Char) (i : Nat) : Prop :=
  cs[i]?.any isAlphabetic = true

def ApostropheAt (cs : List Char) (i : Nat) : Prop :=
  cs[i]?.any isApostrophe = true

inductive Linked (cs : List Char) : Nat → Nat → Prop where
  | adjacent {i : Nat} (h : LetterAt cs i) (h' : LetterAt cs (i + 1)) : Linked cs i (i + 1)
  | joined {i : Nat} (h : LetterAt cs i) (ha : ApostropheAt cs (i + 1))
      (h' : LetterAt cs (i + 2)) : Linked cs i (i + 2)

def Connected (cs : List Char) : Nat → Nat → Prop :=
  Relation.EqvGen (Linked cs)

/-- The group of the letters that are connected to the first one, which ends with the last one. -/
structure IsGroup (cs : List Char) (first last : Nat) : Prop where
  letter : LetterAt cs first
  connected : Connected cs first last
  bounds : ∀ k, Connected cs first k → first ≤ k ∧ k ≤ last

/-- The characters of the group of a letter: the letters, and the apostrophes that join two of
them. -/
inductive InGroup (cs : List Char) (i : Nat) : Nat → Prop where
  | letter {k : Nat} (h : Connected cs i k) : InGroup cs i k
  | joint {k : Nat} (h : Connected cs i k) (hl : Linked cs k (k + 2)) : InGroup cs i (k + 1)

theorem InGroup.of_connected (h : Connected cs i j) (hk : InGroup cs j k) : InGroup cs i k := by
  cases hk with
  | letter hc => exact .letter (h.trans _ _ _ hc)
  | joint hc hl => exact .joint (h.trans _ _ _ hc) hl

/-- What stands between two connected letters belongs to their group. -/
theorem inGroup_of_connected (h : Connected cs i j) (hk : i ≤ k ∧ k ≤ j ∨ j ≤ k ∧ k ≤ i) :
    InGroup cs i k := by
  induction h generalizing k with
  | rel i j hl =>
    cases hl with
    | adjacent h h' =>
      obtain rfl | rfl : k = i ∨ k = i + 1 := by omega
      · exact .letter (.refl k)
      · exact .letter (.rel _ _ (.adjacent h h'))
    | joined h ha h' =>
      obtain rfl | rfl | rfl : k = i ∨ k = i + 1 ∨ k = i + 2 := by omega
      · exact .letter (.refl k)
      · exact .joint (.refl i) (.joined h ha h')
      · exact .letter (.rel _ _ (.joined h ha h'))
  | refl i =>
    obtain rfl : k = i := by omega
    exact .letter (.refl k)
  | symm i j h ih => exact .of_connected (h.symm _ _) (ih hk.symm)
  | trans i j l h _ ih ih' =>
    by_cases hij : i ≤ k ∧ k ≤ j ∨ j ≤ k ∧ k ≤ i
    · exact ih hij
    · exact .of_connected h (ih' (by omega))

/-- A group takes up all places from its first letter to its last one, and no other places. -/
theorem IsGroup.inGroup_iff (h : IsGroup cs first last) :
    InGroup cs first k ↔ first ≤ k ∧ k ≤ last := by
  constructor
  · intro hk
    cases hk with
    | letter hc => exact h.bounds k hc
    | @joint k hc hl =>
      have hleft := h.bounds k hc
      have hright := h.bounds (k + 2) (hc.trans _ _ _ (.rel _ _ hl))
      omega
  · exact fun hk => inGroup_of_connected h.connected (.inl hk)

theorem IsGroup.last_unique {last' : Nat} (h : IsGroup cs first last)
    (h' : IsGroup cs first last') : last' = last := by
  have hle := (h.bounds last' h'.connected).2
  have hge := (h'.bounds last h.connected).2
  omega

/-! ## Places -/

theorem letterAt_append (before cs : List Char) (i : Nat) :
    LetterAt (before ++ cs) (before.length + i) ↔ LetterAt cs i := by
  rw [LetterAt, LetterAt, List.getElem?_append_right (Nat.le_add_right _ _),
    Nat.add_sub_cancel_left]

theorem apostropheAt_append (before cs : List Char) (i : Nat) :
    ApostropheAt (before ++ cs) (before.length + i) ↔ ApostropheAt cs i := by
  rw [ApostropheAt, ApostropheAt, List.getElem?_append_right (Nat.le_add_right _ _),
    Nat.add_sub_cancel_left]

theorem LetterAt.lt_length (h : LetterAt cs i) : i < cs.length := by
  refine Nat.lt_of_not_le fun hle => ?_
  rw [LetterAt, List.getElem?_eq_none hle] at h
  cases h

theorem isAlphabetic_of_isApostrophe (h : isApostrophe c = true) : isAlphabetic c = false := by
  rw [isApostrophe, Bool.or_eq_true, beq_iff_eq, beq_iff_eq] at h
  rcases h with rfl | rfl <;> decide +kernel

theorem ApostropheAt.not_letterAt (h : ApostropheAt cs i) : ¬ LetterAt cs i := by
  unfold ApostropheAt at h
  unfold LetterAt
  cases hc : cs[i]? with
  | none => exact nofun
  | some c =>
    rw [hc] at h
    rw [Option.any_some, isAlphabetic_of_isApostrophe h]
    exact nofun

theorem IsGroup.connected_of_letterAt (h : IsGroup cs first last) (hk : first ≤ k ∧ k ≤ last)
    (hletter : LetterAt cs k) : Connected cs first k := by
  cases h.inGroup_iff.2 hk with
  | letter hc => exact hc
  | joint _ hl =>
    cases hl with
    | joined _ ha _ => exact absurd hletter ha.not_letterAt

/-! ## Cuts -/

/-- No link leads across the place. -/
def Apart (cs : List Char) (n : Nat) : Prop :=
  ∀ i j, Linked cs i j → (i < n ↔ j < n)

theorem Apart.lt_iff_of_connected (ha : Apart cs n) (h : Connected cs i j) : i < n ↔ j < n := by
  induction h with
  | rel i j hl => exact ha i j hl
  | refl i => exact Iff.rfl
  | symm i j _ ih => exact ih.symm
  | trans i j l _ _ ih ih' => exact ih.trans ih'

theorem apart_zero (cs : List Char) : Apart cs 0 :=
  fun i j _ => iff_of_false (Nat.not_lt_zero i) (Nat.not_lt_zero j)

/-- The place behind a character that is no letter. -/
theorem Apart.succ_of_not_letterAt (ha : Apart cs n) (hn : ¬ LetterAt cs n) : Apart cs (n + 1) := by
  intro i j hl
  have hcut := ha i j hl
  cases hl with
  | adjacent h h' =>
    have hi : i ≠ n := fun heq => hn (heq ▸ h)
    omega
  | joined h _ h' =>
    have hi : i ≠ n := fun heq => hn (heq ▸ h)
    omega

/-- The place behind a letter that is linked to none behind it. -/
theorem apart_of_last (hn : LetterAt cs n) (hlast : ∀ j, ¬ Linked cs n j) : Apart cs (n + 1) := by
  intro i j hl
  have hi : i ≠ n := fun heq => hlast j (heq ▸ hl)
  cases hl with
  | adjacent h h' => omega
  | joined h hapostrophe h' =>
    have hi' : i + 1 ≠ n := fun heq => hapostrophe.not_letterAt (heq ▸ hn)
    omega

/-! ## The letters of one word -/

/-- How a text goes on behind a letter, up to the end of the word. -/
inductive Tail : List Char → List Char → Prop where
  | stop {cs : List Char} (h : startsAlphabetic cs = false)
      (h' : ∀ a rest, cs = a :: rest → isApostrophe a = true → startsAlphabetic rest = false) :
      Tail cs []
  | letter {c : Char} {cs tail : List Char} (hc : isAlphabetic c = true) (h : Tail cs tail) :
      Tail (c :: cs) (c :: tail)
  | joined {a c : Char} {cs tail : List Char} (ha : isApostrophe a = true)
      (hc : isAlphabetic c = true) (h : Tail cs tail) : Tail (a :: c :: cs) (a :: c :: tail)

theorem wordTail_cons_of_letter (hc : isAlphabetic c = true) (cs : List Char) :
    wordTail (c :: cs) = c :: wordTail cs := by
  rw [wordTail, hc, Bool.true_or, if_pos rfl]

theorem tail_wordTail : ∀ cs : List Char, Tail cs (wordTail cs)
  | [] => .stop rfl nofun
  | c :: cs => by
    by_cases hc : isAlphabetic c = true
    · rw [wordTail_cons_of_letter hc]
      exact .letter hc (tail_wordTail cs)
    · by_cases hjoin : (isApostrophe c && startsAlphabetic cs) = true
      · obtain ⟨ha, hs⟩ := (Bool.and_eq_true _ _).mp hjoin
        cases cs with
        | nil => cases hs
        | cons d cs =>
          have hd : isAlphabetic d = true := hs
          rw [wordTail, hjoin, Bool.or_true, if_pos rfl, wordTail_cons_of_letter hd]
          exact .joined ha hd (tail_wordTail cs)
      · rw [wordTail, if_neg (by rw [Bool.or_eq_true]; exact not_or.2 ⟨hc, hjoin⟩)]
        refine .stop (Bool.eq_false_iff.2 hc) fun a rest heq ha => ?_
        cases heq
        exact Bool.eq_false_iff.2 fun hs => hjoin (by rw [ha, hs]; rfl)

/-- The group of the one letter goes on to the other letter, and not beyond. -/
structure GoesTo (cs : List Char) (first last : Nat) : Prop where
  connected : Connected cs first last
  letter : LetterAt cs last
  last : ∀ j, ¬ Linked cs last j

theorem GoesTo.of_linked (h : GoesTo cs j last) (hl : Linked cs i j) : GoesTo cs i last where
  connected := .trans _ _ _ (.rel _ _ hl) h.connected
  letter := h.letter
  last := h.last

theorem not_linked_of_stop (hstop : startsAlphabetic after = false)
    (hstop' : ∀ a rest, after = a :: rest → isApostrophe a = true → startsAlphabetic rest = false)
    (j : Nat) : ¬ Linked (before ++ c :: after) before.length j := by
  intro hl
  cases hl with
  | adjacent _ h' =>
    rw [startsAlphabetic, List.head?_eq_getElem?] at hstop
    exact Bool.eq_false_iff.1 hstop ((letterAt_append before _ 1).1 h')
  | joined _ ha h' =>
    have hapostrophe := (apostropheAt_append before _ 1).1 ha
    have hletter := (letterAt_append before _ 2).1 h'
    cases after with
    | nil => cases hapostrophe
    | cons a rest =>
      have hrest := hstop' a rest rfl hapostrophe
      rw [startsAlphabetic, List.head?_eq_getElem?] at hrest
      exact Bool.eq_false_iff.1 hrest hletter

theorem goesTo_of_tail (h : Tail after tail) (hc : isAlphabetic c = true)
    (ht : cs = before ++ c :: after) :
    GoesTo cs before.length (before.length + tail.length) := by
  have hfirst : LetterAt cs before.length := by
    rw [ht]
    exact (letterAt_append before _ 0).2 hc
  induction h generalizing before c with
  | stop hstop hstop' =>
    refine ⟨.refl _, hfirst, fun j => ?_⟩
    rw [ht]
    exact not_linked_of_stop hstop hstop' j
  | @letter d after tail hd _ ih =>
    have hcut : cs = (before ++ [c]) ++ d :: after := by rw [ht, List.append_assoc]; rfl
    have hsecond : LetterAt cs (before ++ [c]).length := by
      rw [hcut]
      exact (letterAt_append (before ++ [c]) _ 0).2 hd
    have hlength : (before ++ [c]).length = before.length + 1 := List.length_append
    have hend : before.length + (d :: tail).length = before.length + 1 + tail.length := by
      rw [List.length_cons]
      omega
    have hgoes := ih hd hcut hsecond
    rw [hlength] at hsecond hgoes
    rw [hend]
    exact hgoes.of_linked (.adjacent hfirst hsecond)
  | @joined a d after tail ha hd _ ih =>
    have hcut : cs = (before ++ [c, a]) ++ d :: after := by rw [ht, List.append_assoc]; rfl
    have hjoint : ApostropheAt cs (before.length + 1) := by
      rw [ht]
      exact (apostropheAt_append before _ 1).2 ha
    have hsecond : LetterAt cs (before ++ [c, a]).length := by
      rw [hcut]
      exact (letterAt_append (before ++ [c, a]) _ 0).2 hd
    have hlength : (before ++ [c, a]).length = before.length + 2 := List.length_append
    have hend : before.length + (a :: d :: tail).length = before.length + 2 + tail.length := by
      rw [List.length_cons, List.length_cons]
      omega
    have hgoes := ih hd hcut hsecond
    rw [hlength] at hsecond hgoes
    rw [hend]
    exact hgoes.of_linked (.joined hfirst hjoint hsecond)

/-! ## The words -/

/-- The word from one place to another, both included, of a text that begins at offset `base`. -/
def wordOver (base : Nat) (cs : List Char) (place : Nat × Nat) : Word :=
  { text := String.ofList ((cs.take (place.2 + 1)).drop place.1)
    range :=
      { start := base + byteLength (cs.take place.1)
        stop := base + byteLength (cs.take (place.2 + 1)) } }

/-- All groups from a place on, in order. -/
structure GroupsFrom (cs : List Char) (n : Nat) (groups : List (Nat × Nat)) : Prop where
  mem : ∀ g, g ∈ groups ↔ n ≤ g.1 ∧ IsGroup cs g.1 g.2
  ordered : groups.Pairwise fun a b => a.2 < b.1
  all : ∀ k, n ≤ k → LetterAt cs k → ∃ g ∈ groups, Connected cs g.1 k

theorem groupsFrom_length (cs : List Char) : GroupsFrom cs cs.length [] where
  mem g := by
    refine ⟨nofun, fun ⟨hn, hg⟩ => ?_⟩
    have hlt := hg.letter.lt_length
    omega
  ordered := .nil
  all k hn hk := by
    have hlt := hk.lt_length
    omega

theorem GroupsFrom.of_not_letterAt {groups : List (Nat × Nat)} (h : GroupsFrom cs (n + 1) groups)
    (hn : ¬ LetterAt cs n) : GroupsFrom cs n groups where
  mem g := by
    rw [h.mem]
    refine and_congr_left fun hg => ?_
    have hne : g.1 ≠ n := fun heq => hn (heq ▸ hg.letter)
    omega
  ordered := h.ordered
  all k hk hletter := by
    have hne : k ≠ n := fun heq => hn (heq ▸ hletter)
    exact h.all k (by omega) hletter

/-- A group comes before all groups behind it. -/
theorem GroupsFrom.cons {groups : List (Nat × Nat)} (h : GroupsFrom cs (last + 1) groups)
    (hg : IsGroup cs n last) : GroupsFrom cs n ((n, last) :: groups) where
  mem g := by
    have hfirst := hg.bounds last hg.connected
    rw [List.mem_cons, h.mem]
    constructor
    · rintro (rfl | ⟨hle, hgroup⟩)
      · exact ⟨Nat.le_refl n, hg⟩
      · exact ⟨by omega, hgroup⟩
    · rintro ⟨hle, hgroup⟩
      by_cases hbehind : last + 1 ≤ g.1
      · exact .inr ⟨hbehind, hgroup⟩
      · -- The group begins at a letter of the first one, so it is the first one.
        have hc := hg.connected_of_letterAt ⟨hle, by omega⟩ hgroup.letter
        have hback := (hgroup.bounds n (hc.symm _ _)).1
        obtain ⟨first, stop⟩ := g
        obtain rfl : first = n := by omega
        exact .inl (congrArg (first, ·) (hg.last_unique hgroup))
  ordered := by
    refine List.pairwise_cons.2 ⟨fun g hmem => ?_, h.ordered⟩
    exact ((h.mem g).1 hmem).1
  all k hk hletter := by
    by_cases hbehind : last + 1 ≤ k
    · obtain ⟨g, hmem, hc⟩ := h.all k hbehind hletter
      exact ⟨g, List.mem_cons_of_mem _ hmem, hc⟩
    · exact ⟨(n, last), List.mem_cons_self, hg.connected_of_letterAt ⟨hk, by omega⟩ hletter⟩

/-- The word that is read at a letter is the group of the letter. -/
theorem isGroup_of_wordTail (ha : Apart cs before.length) (hc : isAlphabetic c = true)
    (ht : cs = before ++ c :: after) :
    IsGroup cs before.length (before.length + (wordTail after).length) ∧
      Apart cs (before.length + (wordTail after).length + 1) := by
  have hgoes := goesTo_of_tail (tail_wordTail after) hc ht
  have hbehind := apart_of_last hgoes.letter hgoes.last
  refine ⟨⟨?_, hgoes.connected, fun k hk => ?_⟩, hbehind⟩
  · rw [ht]
    exact (letterAt_append before _ 0).2 hc
  · have hleft := ha.lt_iff_of_connected hk
    have hright := hbehind.lt_iff_of_connected hk
    omega

theorem wordAt_eq_map {word : List Char} (base : Nat) (hw : word ≠ [])
    (ht : cs = before ++ (word ++ after)) (hlast : before.length + word.length = last + 1) :
    wordAt (base + byteLength before) word
      = ([(before.length, last)].filter fun g => g.1 < g.2).map (wordOver base cs) := by
  have hpos := List.length_pos_iff.2 hw
  have hfront : cs.take before.length = before := by rw [ht, List.take_left]
  have hboth : cs.take (last + 1) = before ++ word := by
    rw [ht, ← List.append_assoc, ← hlast, ← List.length_append, List.take_left]
  have hword : wordOver base cs (before.length, last)
      = { text := String.ofList word
          range := ⟨base + byteLength before, base + byteLength before + byteLength word⟩ } := by
    rw [wordOver, hboth, hfront, List.drop_left, byteLength_append, Nat.add_assoc]
  unfold wordAt
  by_cases hlong : minWordLength ≤ word.length
  · have hlt : before.length < last := by
      unfold minWordLength at hlong
      omega
    have hkeep : decide (before.length < last) = true := decide_eq_true hlt
    rw [if_pos hlong, List.filter_cons, if_pos hkeep, List.filter_nil, List.map_cons, List.map_nil,
      hword]
  · have hlt : ¬ before.length < last := by
      unfold minWordLength at hlong
      omega
    have hskip : ¬ decide (before.length < last) = true := by rwa [decide_eq_true_iff]
    rw [if_neg hlong, List.filter_cons, if_neg hskip]
    rfl

/-- The words from a place on that no link leads across. -/
theorem words_eq_map_groups (base : Nat) (ht : cs = before ++ after)
    (ha : Apart cs before.length) :
    ∃ groups, GroupsFrom cs before.length groups ∧
      words (base + byteLength before) after
        = (groups.filter fun g => g.1 < g.2).map (wordOver base cs) := by
  generalize hstart : base + byteLength before = start
  fun_induction words start after generalizing before
  case case1 start =>
    rw [List.append_nil] at ht
    rw [ht]
    exact ⟨[], groupsFrom_length before, rfl⟩
  case case2 start c after hc word ih =>
    obtain ⟨hgroup, hbehind⟩ := isGroup_of_wordTail ha hc ht
    have hcut : cs = before ++ (word ++ after.drop (wordTail after).length) := by
      rw [ht]
      show _ = before ++ c :: (wordTail after ++ after.drop (wordTail after).length)
      rw [wordTail_append_drop]
    have hlength : (before ++ word).length = before.length + (wordTail after).length + 1 :=
      List.length_append
    have hoffset : base + byteLength (before ++ word) = start + byteLength word := by
      rw [byteLength_append, ← hstart, Nat.add_assoc]
    rw [← hlength] at hbehind
    obtain ⟨groups, hgroups, hwords⟩ :=
      ih (hcut.trans (List.append_assoc ..).symm) hbehind hoffset
    rw [hlength] at hgroups
    refine ⟨_, hgroups.cons hgroup, ?_⟩
    have hword := wordAt_eq_map base (List.cons_ne_nil c _) hcut rfl
    rw [hwords, ← hstart, hword, ← List.map_append, ← List.filter_append]
    rfl
  case case3 start c after hc ih =>
    have hnot : ¬ LetterAt cs before.length := by
      rw [ht]
      exact fun h => hc ((letterAt_append before _ 0).1 h)
    have hcut : cs = (before ++ [c]) ++ after := by rw [ht, List.append_assoc]; rfl
    have hlength : (before ++ [c]).length = before.length + 1 := List.length_append
    have hbehind := ha.succ_of_not_letterAt hnot
    rw [← hlength] at hbehind
    obtain ⟨groups, hgroups, hwords⟩ := ih hcut hbehind (by
      rw [byteLength_append, byteLength_cons, byteLength_nil]
      omega)
    rw [hlength] at hgroups
    exact ⟨groups, hgroups.of_not_letterAt hnot, hwords⟩

/-- A word is what stands at its range, which is moved by the offset of the text. -/
theorem exists_slice_of_mem_words {base : Nat} {w : Word} (h : w ∈ words base cs) :
    ∃ r : TextRange, w.range = r.shift base ∧ w.text.toList = r.slice cs := by
  obtain ⟨t, ⟨before, after, hchars, hstart⟩, htext, hrange⟩ := shows_of_mem_words h
  dsimp only at hchars hstart
  refine ⟨⟨byteLength before, byteLength before + byteLength t.chars⟩, ?_, ?_⟩
  · rw [hrange, Span.range, TextRange.shift, TextRange.mk.injEq, hstart]
    dsimp only
    omega
  · rw [htext, Span.text, String.toList_ofList, hchars, TextRange.slice_append]

/-- The words of a text are its groups of more than one character, in order. -/
structure WordsOf (base : Nat) (cs : List Char) (groups : List (Nat × Nat)) (ws : List Word) :
    Prop where
  words : ws = groups.map (wordOver base cs)
  mem : ∀ g, g ∈ groups ↔ IsGroup cs g.1 g.2 ∧ g.1 < g.2
  places : ∀ g ∈ groups, ∀ k, InGroup cs g.1 k ↔ g.1 ≤ k ∧ k ≤ g.2
  alone : ∀ k, LetterAt cs k → (∃ g ∈ groups, InGroup cs g.1 k) ∨ IsGroup cs k k
  slices : ∀ w ∈ ws, ∃ r : TextRange, w.range = r.shift base ∧ w.text.toList = r.slice cs
  ranges : ∀ w ∈ ws, w.range.start < w.range.stop
  ordered : ws.Pairwise fun v w => v.range.stop ≤ w.range.start

theorem wordsOf_words (base : Nat) (cs : List Char) :
    ∃ groups, WordsOf base cs groups (words base cs) := by
  obtain ⟨all, hall, hwords⟩ := words_eq_map_groups base (List.nil_append cs).symm (apart_zero cs)
  have hmem (g : Nat × Nat) :
      g ∈ all.filter (fun g => g.1 < g.2) ↔ IsGroup cs g.1 g.2 ∧ g.1 < g.2 := by
    rw [List.mem_filter, hall.mem, decide_eq_true_iff, List.length_nil,
      and_iff_right (Nat.zero_le _)]
  refine ⟨_, hwords, hmem, fun g hg k => ((hmem g).1 hg).1.inGroup_iff, fun k hk => ?_,
    fun w hw => exists_slice_of_mem_words hw, ?_, ?_⟩
  · obtain ⟨⟨first, last⟩, hg, hc⟩ := hall.all k (Nat.zero_le k) hk
    have hgroup : IsGroup cs first last := ((hall.mem _).1 hg).2
    by_cases hlt : first < last
    · exact .inl ⟨(first, last), (hmem _).2 ⟨hgroup, hlt⟩, .letter hc⟩
    · have hplace := hgroup.bounds k hc
      obtain rfl : first = k := by omega
      obtain rfl : last = first := by omega
      exact .inr hgroup
  · intro w hw
    rw [← Nat.add_zero base, ← byteLength_nil, hwords] at hw
    obtain ⟨g, hg, rfl⟩ := List.mem_map.1 hw
    obtain ⟨hgroup, hlt⟩ := (hmem g).1 hg
    exact Nat.add_lt_add_left (byteLength_take_lt hgroup.letter.lt_length (by omega)) base
  · rw [← Nat.add_zero base, ← byteLength_nil, hwords]
    refine List.pairwise_map.2 ((hall.ordered.filter _).imp fun hab => ?_)
    exact Nat.add_le_add_left (byteLength_take_le hab cs) base

end Text
end Comfort
