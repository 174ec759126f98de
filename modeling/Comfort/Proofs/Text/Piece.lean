import Comfort.Proofs.Text.Trim
import Comfort.Text.Span
import Comfort.Text.Words

/-!
Pieces of a span.

A span holds another one when the characters of the other stand in it, at the place that the offset
of the other says.  Every move that narrows a span leaves a piece of it, so the range of what it
leaves lies in the range of the whole, and is the range of what stands there.
-/

namespace Comfort

theorem TextRange.contains_iff {outer inner : TextRange} :
    outer.contains inner = true ↔
      outer.start ≤ inner.start ∧ inner.stop ≤ outer.stop ∧ inner.start ≤ inner.stop := by
  simp only [TextRange.contains, Bool.and_eq_true, decide_eq_true_eq, and_assoc]

namespace Text

variable {i j : Nat} {cs : List Char}

theorem byteLength_take_le (h : i ≤ j) (cs : List Char) :
    byteLength (cs.take i) ≤ byteLength (cs.take j) := by
  obtain ⟨n, rfl⟩ := Nat.le.dest h
  rw [List.take_add, byteLength_append]
  exact Nat.le_add_right _ _

theorem byteLength_take_lt (hi : i < cs.length) (h : i < j) :
    byteLength (cs.take i) < byteLength (cs.take j) := by
  have hsucc : byteLength (cs.take (i + 1)) = byteLength (cs.take i) + cs[i].utf8Size := by
    rw [List.take_add_one, List.getElem?_eq_getElem hi, Option.toList_some, byteLength_append,
      byteLength_cons, byteLength_nil, Nat.add_zero]
  have hle : byteLength (cs.take (i + 1)) ≤ byteLength (cs.take j) := byteLength_take_le h cs
  have hpos := cs[i].utf8Size_pos
  omega

end Text

namespace Span

def Holds (s t : Span) : Prop :=
  ∃ before after, s.chars = before ++ (t.chars ++ after) ∧
    t.start = s.start + Text.byteLength before

variable {s t u : Span}

theorem holds_refl (s : Span) : s.Holds s :=
  ⟨[], [], by simp, rfl⟩

theorem Holds.trans (h : s.Holds t) (h' : t.Holds u) : s.Holds u := by
  obtain ⟨a, b, hchars, hstart⟩ := h
  obtain ⟨c, d, hchars', hstart'⟩ := h'
  refine ⟨a ++ c, d ++ b, ?_, ?_⟩
  · rw [hchars, hchars']
    simp
  · rw [hstart', hstart, Text.byteLength_append]
    omega

theorem Holds.contains_range (h : s.Holds t) : s.range.contains t.range = true := by
  obtain ⟨a, b, hchars, hstart⟩ := h
  have hlength : Text.byteLength s.chars
      = Text.byteLength a + (Text.byteLength t.chars + Text.byteLength b) := by
    rw [hchars, Text.byteLength_append, Text.byteLength_append]
  have hle : s.start ≤ t.start := by omega
  have hstop : t.start + Text.byteLength t.chars ≤ s.start + Text.byteLength s.chars := by omega
  exact TextRange.contains_iff.2 ⟨hle, hstop, Nat.le_add_right _ _⟩

/-! ## Moves that narrow a span -/

theorem holds_front {a b : List Char} (h : s.chars = a ++ b) : s.Holds { s with chars := a } :=
  ⟨[], b, h, rfl⟩

theorem holds_back {a b : List Char} (h : s.chars = a ++ b) :
    s.Holds { start := s.start + Text.byteLength a, chars := b } :=
  ⟨a, [], by rw [h, List.append_nil], rfl⟩

/-- The run at the front ends where the first other character stands. -/
theorem takeWhile_append_of_head? {p : Char → Bool} {a b : List Char} (ha : ∀ c ∈ a, p c = true)
    (hb : b.head?.any p = false) : (a ++ b).takeWhile p = a ∧ (a ++ b).dropWhile p = b := by
  rw [List.takeWhile_append_of_pos ha, List.dropWhile_append_of_pos ha]
  cases b with
  | nil => exact ⟨List.append_nil a, rfl⟩
  | cons c b =>
    have hc : ¬ p c = true := by simpa using hb
    rw [List.takeWhile_cons_of_neg hc, List.dropWhile_cons_of_neg hc]
    exact ⟨List.append_nil a, rfl⟩

theorem dropWhile_of_eq {p : Char → Bool} {a b : List Char} (h : s.chars = a ++ b)
    (ha : ∀ c ∈ a, p c = true) (hb : b.head?.any p = false) :
    s.dropWhile p = { start := s.start + Text.byteLength a, chars := b } := by
  obtain ⟨htake, hdrop⟩ := takeWhile_append_of_head? ha hb
  rw [dropWhile, h, htake, hdrop]

theorem take_of_eq {a b : List Char} (h : s.chars = a ++ b) :
    s.take a.length = { s with chars := a } := by
  rw [take, h, List.take_left]

theorem drop_of_eq {a b : List Char} (h : s.chars = a ++ b) :
    s.drop a.length = { start := s.start + Text.byteLength a, chars := b } := by
  rw [drop, h, List.take_left, List.drop_left]

theorem drop_drop (s : Span) (m n : Nat) : (s.drop m).drop n = s.drop (m + n) := by
  simp only [drop, List.take_add, Text.byteLength_append, List.drop_drop, Nat.add_assoc]

/-- A span splits at a character that does not stand earlier in it. -/
theorem splitFirst?_of_eq {c : Char} {a b : List Char} (h : s.chars = a ++ c :: b) (ha : c ∉ a) :
    s.splitFirst? c
      = some ({ s with chars := a },
          { start := s.start + Text.byteLength (a ++ [c]), chars := b }) := by
  have htake : s.chars.takeWhile (· != c) = a := by
    rw [h, List.takeWhile_append_of_pos, List.takeWhile_cons_of_neg, List.append_nil]
    · simp
    · intro d hd
      simp only [bne_iff_ne]
      rintro rfl
      exact ha hd
  have hmem : s.chars.contains c = true := by simp [h]
  have hcut : s.chars = (a ++ [c]) ++ b := by simp [h]
  have hlength : a.length + 1 = (a ++ [c]).length := by simp
  unfold splitFirst?
  rw [if_pos hmem]
  dsimp only
  rw [htake, take_of_eq h, hlength, drop_of_eq hcut]

/-- A span splits at a character that does not stand later in it. -/
theorem splitLast?_of_eq {c : Char} {a b : List Char} (h : s.chars = a ++ c :: b) (hb : c ∉ b) :
    s.splitLast? c
      = some ({ s with chars := a },
          { start := s.start + Text.byteLength (a ++ [c]), chars := b }) := by
  have hrev : s.chars.reverse = b.reverse ++ c :: a.reverse := by simp [h]
  have htake : s.chars.reverse.takeWhile (· != c) = b.reverse := by
    rw [hrev, List.takeWhile_append_of_pos, List.takeWhile_cons_of_neg, List.append_nil]
    · simp
    · intro d hd
      simp only [bne_iff_ne]
      rintro rfl
      exact hb (List.mem_reverse.1 hd)
  have hmem : s.chars.contains c = true := by simp [h]
  have hcut : s.chars = (a ++ [c]) ++ b := by simp [h]
  have hlength : a.length + 1 = (a ++ [c]).length := by simp
  have hbefore : s.chars.length - b.reverse.length - 1 = a.length := by
    rw [h, List.length_append, List.length_cons, List.length_reverse]
    omega
  unfold splitLast?
  rw [if_pos hmem]
  dsimp only
  rw [htake, hbefore, take_of_eq h, hlength, drop_of_eq hcut]

theorem splitFirst?_of_notMem {c : Char} (h : c ∉ s.chars) : s.splitFirst? c = none := by
  unfold splitFirst?
  rw [if_neg (by simpa using h)]

theorem splitLast?_of_notMem {c : Char} (h : c ∉ s.chars) : s.splitLast? c = none := by
  unfold splitLast?
  rw [if_neg (by simpa using h)]

theorem holds_dropWhile (s : Span) (p : Char → Bool) : s.Holds (s.dropWhile p) :=
  holds_back List.takeWhile_append_dropWhile.symm

theorem holds_drop (s : Span) (n : Nat) : s.Holds (s.drop n) :=
  holds_back (List.take_append_drop n s.chars).symm

theorem holds_take (s : Span) (n : Nat) : s.Holds (s.take n) :=
  holds_front (List.take_append_drop n s.chars).symm

theorem holds_trimStart (s : Span) : s.Holds s.trimStart :=
  holds_dropWhile s Text.isBlank

theorem holds_trimEnd (s : Span) : s.Holds s.trimEnd :=
  holds_front (Text.trimEnd_append_trailing s.chars).symm

theorem holds_trim (s : Span) : s.Holds s.trim :=
  (holds_trimStart s).trans (holds_trimEnd s.trimStart)

theorem holds_splitFirst? {c : Char} (h : s.splitFirst? c = some (t, u)) :
    s.Holds t ∧ s.Holds u := by
  unfold splitFirst? at h
  split at h
  · cases h
    exact ⟨holds_take s _, holds_drop s _⟩
  · cases h

theorem holds_splitLast? {c : Char} (h : s.splitLast? c = some (t, u)) :
    s.Holds t ∧ s.Holds u := by
  unfold splitLast? at h
  split at h
  · cases h
    exact ⟨holds_take s _, holds_drop s _⟩
  · cases h

/-! ## Texts that stand at their range -/

/-- The text stands in the span, at the range. -/
def Shows (s : Span) (text : String) (range : TextRange) : Prop :=
  ∃ t, s.Holds t ∧ text = t.text ∧ range = t.range

theorem Holds.shows (h : s.Holds t) : s.Shows t.text t.range :=
  ⟨t, h, rfl, rfl⟩

theorem Shows.of_holds {text : String} {range : TextRange} (h : t.Shows text range)
    (hs : s.Holds t) : s.Shows text range := by
  obtain ⟨u, hu, htext, hrange⟩ := h
  exact ⟨u, hs.trans hu, htext, hrange⟩

theorem Shows.contains_range {text : String} {range : TextRange} (h : s.Shows text range) :
    s.range.contains range = true := by
  obtain ⟨t, ht, _, rfl⟩ := h
  exact ht.contains_range

/-- What is shown can be shown by the text alone. -/
theorem Shows.holds {text : String} {range : TextRange} (h : s.Shows text range) :
    s.Holds { start := range.start, chars := text.toList } := by
  obtain ⟨t, ht, rfl, rfl⟩ := h
  rw [Span.text, String.toList_ofList]
  exact ht

end Span

/-- The words of a text stand in it. -/
theorem Text.shows_of_mem_words {base : Nat} {cs : List Char} {w : Word}
    (h : w ∈ words base cs) : Span.Shows { start := base, chars := cs } w.text w.range := by
  fun_induction words base cs with
  | case1 => cases h
  | case2 base c cs hc word ih =>
    have hcut : c :: cs = word ++ cs.drop (wordTail cs).length := by
      show c :: cs = c :: (wordTail cs ++ cs.drop (wordTail cs).length)
      rw [wordTail_append_drop]
    rcases List.mem_append.1 h with h | h
    · unfold wordAt at h
      split at h
      · cases List.mem_singleton.1 h
        exact (Span.holds_front (s := { start := base, chars := c :: cs }) hcut).shows
      · cases h
    · exact (ih h).of_holds (Span.holds_back (s := { start := base, chars := c :: cs }) hcut)
  | case3 base c cs hc ih =>
    have hcut : c :: cs = [c] ++ cs := rfl
    exact (ih h).of_holds (Span.holds_back (s := { start := base, chars := c :: cs }) hcut)

end Comfort
