import Comfort.Proofs.Line.Productions
import Comfort.Proofs.Line.Regex

/-!
Parts of the line patterns.

A run of blanks gives none of them back, a lazy text stops in front of the blanks that end it, and
an id is taken from the text whenever one can be.
-/

namespace Comfort
namespace Regex

open Text (IsId Solid leading trailing trim trimStart trimEnd)

def blanks : Regex :=
  many Text.isBlank

def char (c : Char) : Regex :=
  one (· == c)

/-- Any characters but line feeds, as few as possible. -/
def text : Regex :=
  group .text (few (· != '\n'))

def written : Regex :=
  seq (one LineForm.isIdChar) (many LineForm.isIdChar)

/-- An id behind its mark. -/
def mark : Regex :=
  seq blanks (seq (char '#') (group .id written))

/-! ## Blanks and single characters -/

variable {s t u : Span} {b : Regex} {found : List (Group × Capture)}

/-- No blank is given back when the rest does not begin with one. -/
theorem captures?_seq_blanks
    (h : ∀ t : Span, t.chars.head?.any Text.isBlank = true → b.captures? t = none) (s : Span) :
    (seq blanks b).captures? s = b.captures? s.trimStart :=
  captures?_seq_many h

theorem captures?_seq_char {c : Char} {rest : List Char} (h : s.chars = c :: rest) :
    (seq (char c) b).captures? s
      = b.captures? { start := s.start + Text.byteLength [c], chars := rest } := by
  have hdrop : s.drop 1 = { start := s.start + Text.byteLength [c], chars := rest } :=
    Span.drop_of_eq (a := [c]) h
  rw [char, captures?_seq_one (by simp [h]), hdrop]

theorem captures?_seq_char_of_ne {c : Char} (h : s.chars.head? ≠ some c) :
    (seq (char c) b).captures? s = none := by
  refine captures?_seq_one_of_not (Bool.eq_false_iff.2 fun hany => h ?_)
  obtain ⟨d, hd, heq⟩ := (Option.any_eq_true ..).1 hany
  rw [hd, beq_iff_eq.1 heq]

theorem captures?_seq_char_of_blank {c : Char} (hc : Text.isBlank c = false)
    (h : t.chars.head?.any Text.isBlank = true) : (seq (char c) b).captures? t = none := by
  refine captures?_seq_char_of_ne fun heq => ?_
  rw [heq, Option.any_some, hc] at h
  cases h

/-! ## Ends of lines -/

theorem captures?_blanks_toEnd (s : Span) :
    (toEnd [blanks]).captures? s = if Text.allBlank s.chars then some [] else none := by
  have hend : ∀ t : Span, t.chars.head?.any Text.isBlank = true → atEnd.captures? t = none := by
    intro t ht
    refine captures?_atEnd_of_ne_nil fun hnil => ?_
    rw [hnil] at ht
    cases ht
  show (seq (many Text.isBlank) atEnd).captures? s = _
  rw [captures?_seq_many hend]
  by_cases hb : Text.allBlank s.chars = true
  · have hnil : (s.dropWhile Text.isBlank).chars = [] :=
      List.dropWhile_eq_nil_iff.2 (List.all_eq_true.1 hb)
    rw [if_pos hb, captures?_atEnd hnil]
  · rw [if_neg hb]
    refine captures?_atEnd_of_ne_nil fun hnil => hb (List.all_eq_true.2 ?_)
    exact List.dropWhile_eq_nil_iff.1 hnil

theorem captures?_blanks_of_isIdChar (h : u.chars.head?.any LineForm.isIdChar = true) :
    (toEnd [blanks]).captures? u = none := by
  obtain ⟨c, hc, hid⟩ := (Option.any_eq_true ..).1 h
  have hmem : c ∈ u.chars := List.mem_of_mem_head? hc
  have hall : ¬ Text.allBlank u.chars = true := by
    intro hall
    have hblank := List.all_eq_true.1 hall c hmem
    rw [Text.isBlank_of_isIdChar hid] at hblank
    cases hblank
  rw [captures?_blanks_toEnd, if_neg hall]

/-- An id can stop behind each of its characters, and would rather stop behind the last one. -/
theorem passes_written (u : Span) :
    written.Passes u
      ((List.range (u.chars.takeWhile LineForm.isIdChar).length).reverse.map (1 + ·)) := by
  cases hchars : u.chars with
  | nil => exact passes_seq_one_of_not (by rw [hchars]; rfl)
  | cons c cs =>
    by_cases hc : LineForm.isIdChar c = true
    · have htail : (u.drop 1).chars = cs := by
        show u.chars.drop 1 = cs
        rw [hchars]
        rfl
      have hrest := passes_many LineForm.isIdChar (u.drop 1)
      rw [runs, htail] at hrest
      rw [List.takeWhile_cons_of_pos hc, List.length_cons]
      exact passes_seq_one (by rw [hchars]; exact hc) hrest
    · rw [List.takeWhile_cons_of_neg hc]
      exact passes_seq_one_of_not (by rw [hchars]; exact Bool.eq_false_iff.2 hc)

/-- An id that stops early is followed by one of its own characters and not by a blank. -/
theorem captures?_id_early {n : Nat} (h : n < (u.chars.takeWhile LineForm.isIdChar).length) :
    ((List.range n).reverse.map (1 + ·)).findSome? (fun m =>
      ((toEnd [blanks]).captures? (u.drop m)).map ((Group.id, (u.take m).capture) :: ·))
        = none := by
  rw [List.findSome?_eq_none_iff]
  intro m hm
  obtain ⟨k, hk, rfl⟩ := List.mem_map.1 hm
  have hlt := List.mem_range.1 (List.mem_reverse.1 hk)
  have hnext := chars_drop_head? (s := u) (p := LineForm.isIdChar) (n := 1 + k) (by omega)
  rw [captures?_blanks_of_isIdChar hnext]
  rfl

/-- What the group of an id holds when nothing but blanks follows the id. -/
theorem captures?_id (u : Span) :
    (seq (group .id written) (toEnd [blanks])).captures? u
      = if u.chars.takeWhile LineForm.isIdChar ≠ [] ∧
            Text.allBlank (u.chars.dropWhile LineForm.isIdChar) = true then
          some [(.id, Span.capture { u with chars := u.chars.takeWhile LineForm.isIdChar })]
        else none := by
  have hcut : u.chars
      = u.chars.takeWhile LineForm.isIdChar ++ u.chars.dropWhile LineForm.isIdChar :=
    List.takeWhile_append_dropWhile.symm
  have hbound : ∀ n ∈ (List.range (u.chars.takeWhile LineForm.isIdChar).length).reverse.map (1 + ·),
      n ≤ u.chars.length := by
    intro n hn
    obtain ⟨k, hk, rfl⟩ := List.mem_map.1 hn
    have hlt := List.mem_range.1 (List.mem_reverse.1 hk)
    have hle := (List.takeWhile_prefix (l := u.chars) LineForm.isIdChar).length_le
    omega
  rw [captures?_seq_group (passes_written u) hbound]
  generalize hlen : (u.chars.takeWhile LineForm.isIdChar).length = len
  cases len with
  | zero =>
    rw [if_neg fun h => h.1 (List.length_eq_zero_iff.1 hlen)]
    rfl
  | succ len =>
    have hearly := captures?_id_early (u := u) (n := len) (by omega)
    have hne : u.chars.takeWhile LineForm.isIdChar ≠ [] := by
      intro hnil
      rw [hnil] at hlen
      cases hlen
    rw [List.range_succ, List.reverse_append, List.reverse_singleton, List.singleton_append,
      List.map_cons, List.findSome?_cons, hearly, Nat.add_comm 1 len, ← hlen,
      Span.drop_of_eq hcut, Span.take_of_eq hcut, captures?_blanks_toEnd]
    by_cases hblank : Text.allBlank (u.chars.dropWhile LineForm.isIdChar) = true
    · rw [if_pos hblank, if_pos ⟨hne, hblank⟩]
      rfl
    · rw [if_neg hblank, if_neg fun h => hblank h.2]
      rfl

theorem captures?_id_eq_some (u : Span) :
    (seq (group .id written) (toEnd [blanks])).captures? u = some found ↔
      ∃ id b, u.chars = id ++ b ∧ IsId id ∧ (∀ c ∈ b, Text.isBlank c = true) ∧
        found = [(.id, Span.capture { u with chars := id })] := by
  rw [captures?_id, Option.ite_none_right_eq_some, Option.some.injEq]
  constructor
  · rintro ⟨⟨hne, hblank⟩, rfl⟩
    refine ⟨_, _, List.takeWhile_append_dropWhile.symm, ⟨hne, fun c hc => ?_⟩, ?_, rfl⟩
    · exact List.mem_takeWhile_imp hc
    · exact List.all_eq_true.1 hblank
  · rintro ⟨id, b, hchars, hid, hb, rfl⟩
    have hstop : b.head?.any LineForm.isIdChar = false := by
      cases b with
      | nil => rfl
      | cons c b =>
        have hblank : Text.isBlank c = true := hb c List.mem_cons_self
        refine Bool.eq_false_iff.2 fun hidChar => ?_
        rw [Text.isBlank_of_isIdChar hidChar] at hblank
        cases hblank
    obtain ⟨htake, hdrop⟩ := Span.takeWhile_append_of_head? hid.chars hstop
    rw [← hchars] at htake hdrop
    rw [htake, hdrop]
    exact ⟨⟨hid.ne_nil, List.all_eq_true.2 hb⟩, rfl⟩

/-- A mark and an id that nothing but blanks stands around. -/
theorem captures?_mark_eq_some (s : Span) :
    (seq mark (toEnd [blanks])).captures? s = some found ↔
      ∃ gap id b, s.chars = gap ++ '#' :: (id ++ b) ∧ (∀ c ∈ gap, Text.isBlank c = true) ∧
        IsId id ∧ (∀ c ∈ b, Text.isBlank c = true) ∧
        found = [(.id, Span.capture
          { start := s.start + Text.byteLength (gap ++ ['#']), chars := id })] := by
  have hback : ∀ t : Span, t.chars.head?.any Text.isBlank = true →
      (seq (seq (char '#') (group .id written)) (toEnd [blanks])).captures? t = none := by
    intro t ht
    rw [captures?_seq_assoc]
    exact captures?_seq_char_of_blank (by decide) ht
  rw [mark, captures?_seq_assoc, captures?_seq_blanks hback, captures?_seq_assoc]
  constructor
  · intro h
    by_cases hmark : s.trimStart.chars.head? = some '#'
    · obtain ⟨rest, hrest⟩ := List.head?_eq_some_iff.1 hmark
      rw [captures?_seq_char hrest] at h
      obtain ⟨id, b, rfl, hid, hb, rfl⟩ := (captures?_id_eq_some _).1 h
      refine ⟨leading s.chars, id, b, ?_, fun c hc => List.mem_takeWhile_imp hc, hid, hb, ?_⟩
      · rw [← hrest]
        exact (Text.leading_append_trimStart s.chars).symm
      · rw [Text.byteLength_append, ← Nat.add_assoc]
        rfl
    · rw [captures?_seq_char_of_ne hmark] at h
      cases h
  · rintro ⟨gap, id, b, hchars, hgap, hid, hb, rfl⟩
    have hcut : s.trimStart
        = { start := s.start + Text.byteLength gap, chars := '#' :: (id ++ b) } :=
      Span.dropWhile_of_eq hchars hgap rfl
    rw [hcut, captures?_seq_char rfl, captures?_id_eq_some]
    exact ⟨id, b, rfl, hid, hb, by rw [Text.byteLength_append, ← Nat.add_assoc]⟩

/-! ## Texts -/

/-- A lazy text ends where the rest matches for the first time. -/
theorem captures?_seq_text (hn : '\n' ∉ s.chars) {piece rest : List Char}
    (hs : s.chars = piece ++ rest)
    (hrest : b.captures? { start := s.start + Text.byteLength piece, chars := rest } = some found)
    (hlt : ∀ m < piece.length, b.captures? (s.drop m) = none) :
    (seq text b).captures? s = some ((.text, Span.capture { s with chars := piece }) :: found) := by
  have hall : s.chars.takeWhile (· != '\n') = s.chars := by
    rw [List.takeWhile_eq_self_iff]
    intro c hc
    rw [bne_iff_ne]
    rintro rfl
    exact hn hc
  have hpasses : (few (· != '\n')).Passes s (List.range (s.chars.length + 1)) := by
    have hruns := passes_few (· != '\n') s
    rw [runs, hall] at hruns
    exact hruns
  have hbound : ∀ n ∈ List.range (s.chars.length + 1), n ≤ s.chars.length := by
    intro n hmem
    have := List.mem_range.1 hmem
    omega
  have hpiece : piece.length ∈ List.range (s.chars.length + 1) := by
    rw [hs, List.length_append, List.mem_range]
    omega
  rw [text, captures?_seq_group hpasses hbound]
  refine findSome?_of_sorted List.pairwise_lt_range hpiece ?_ ?_
  · rw [Span.drop_of_eq hs, Span.take_of_eq hs, hrest]
    rfl
  · intro m _ hm
    rw [hlt m hm]
    rfl

theorem exists_nonblank_of_lt {cs : List Char} {m : Nat} (h : m < (trimEnd cs).length) :
    ∃ c ∈ (trimEnd cs).drop m, Text.isBlank c = false := by
  have hsolid : Solid (trimEnd cs) := by
    refine Text.solid_trimEnd (Bool.eq_false_iff.2 fun hall => ?_)
    have hnil : trimEnd ([] ++ cs) = [] := Text.trimEnd_append_of_blank (List.all_eq_true.1 hall)
    rw [← List.nil_append cs, hnil] at h
    cases h
  have hne : (trimEnd cs).drop m ≠ [] := by
    rw [Ne, List.drop_eq_nil_iff]
    omega
  rw [← List.take_append_drop m (trimEnd cs)] at hsolid
  exact (hsolid.of_append hne).exists_nonblank

/-- Blanks do not match before the text has ended. -/
theorem captures?_blanks_of_lt {m : Nat} (h : m < (trimEnd s.chars).length) :
    (toEnd [blanks]).captures? (s.drop m) = none := by
  obtain ⟨c, hc, hblank⟩ := exists_nonblank_of_lt h
  have hmem : c ∈ s.chars.drop m := by
    rw [← Text.trimEnd_append_trailing s.chars, List.drop_append_of_le_length (Nat.le_of_lt h)]
    exact List.mem_append_left _ hc
  rw [captures?_blanks_toEnd, if_neg]
  intro hall
  have := List.all_eq_true.1 hall c hmem
  rw [hblank] at this
  cases this

theorem captures?_text_toEnd (hn : '\n' ∉ s.chars) :
    (toEnd [text, blanks]).captures? s
      = some [(.text, Span.capture { s with chars := trimEnd s.chars })] := by
  refine captures?_seq_text hn (Text.trimEnd_append_trailing s.chars).symm ?_ ?_
  · rw [captures?_blanks_toEnd, if_pos]
    exact List.all_eq_true.2 fun c hc => Text.isBlank_of_mem_trailing hc
  · exact fun m hm => captures?_blanks_of_lt hm

/-- What the group of an id holds, if there is one. -/
def heldId (s : Span) (id : Option (List Char × List Char)) : List (Group × Capture) :=
  (id.map fun (front, id) =>
    (Group.id, Span.capture { start := s.start + Text.byteLength front, chars := id })).toList

theorem captures?_tail (t : Span) :
    (toEnd [maybe mark, blanks]).captures? t
      = ((seq mark (toEnd [blanks])).captures? t).or ((toEnd [blanks]).captures? t) :=
  captures?_seq_maybe mark (toEnd [blanks]) t

theorem captures?_tail_of_lt {m : Nat} (h : m < (trimEnd s.chars).length)
    (hmark : ∀ gap id b, s.chars.drop m = gap ++ '#' :: (id ++ b) →
      (∀ c ∈ gap, Text.isBlank c = true) → IsId id → ¬ ∀ c ∈ b, Text.isBlank c = true) :
    (toEnd [maybe mark, blanks]).captures? (s.drop m) = none := by
  rw [captures?_tail, captures?_blanks_of_lt h, Option.or_none]
  refine Option.eq_none_iff_forall_ne_some.2 fun found hfound => ?_
  obtain ⟨gap, id, b, hchars, hgap, hid, hb, -⟩ := (captures?_mark_eq_some _).1 hfound
  exact hmark gap id b hchars hgap hid hb

/-- A mark with blanks before it, and an id and blanks behind it, is the only mark there is. -/
theorem front_eq_of_mark {front rest gap id b : List Char}
    (hgap : ∀ c ∈ gap, Text.isBlank c = true) (hid : IsId id) (hb : ∀ c ∈ b, Text.isBlank c = true)
    (h : front ++ '#' :: rest = gap ++ '#' :: (id ++ b)) : front = gap := by
  have hbefore : '#' ∉ gap := fun hmem => absurd (hgap '#' hmem) (by decide)
  have hbehind : '#' ∉ id ++ b := by
    rw [List.mem_append, not_or]
    exact ⟨hid.not_mem (by decide), fun hmem => absurd (hb '#' hmem) (by decide)⟩
  exact ((List.append_cons_inj_of_notMem hbefore hbehind).1 h.symm).1.symm

/-- A lazy text ends before the mark of an id. -/
theorem captures?_text_written (hn : '\n' ∉ s.chars) {front id tail : List Char}
    (hs : s.chars = front ++ '#' :: (id ++ tail)) (hid : IsId id)
    (htail : ∀ c ∈ tail, Text.isBlank c = true) :
    (toEnd [text, maybe mark, blanks]).captures? s
      = some ((.text, Span.capture { s with chars := trimEnd front }) ::
          heldId s (some (front ++ ['#'], id))) := by
  have hfront := Text.trimEnd_append_trailing front
  have hcut : s.chars = trimEnd front ++ (trailing front ++ '#' :: (id ++ tail)) := by
    rw [← List.append_assoc, hfront, hs]
  have hsaid : trimEnd s.chars = front ++ '#' :: id := by
    have hassoc : s.chars = (front ++ '#' :: id) ++ tail := by simp [hs]
    rw [hassoc, Text.trimEnd_append_of_blank htail]
    exact ((hid.solid.append ['#']).append front).trimEnd
  refine captures?_seq_text hn hcut ?_ fun m hm => captures?_tail_of_lt ?_ ?_
  · rw [captures?_tail, (captures?_mark_eq_some _).2 ⟨trailing front, id, tail, rfl,
      fun c hc => Text.isBlank_of_mem_trailing hc, hid, htail, rfl⟩]
    have hplace : s.start + Text.byteLength (trimEnd front)
          + Text.byteLength (trailing front ++ ['#'])
        = s.start + Text.byteLength (front ++ ['#']) := by
      rw [Nat.add_assoc, ← Text.byteLength_append, ← List.append_assoc, hfront]
    rw [Option.some_or, heldId, Option.map_some, Option.toList_some, hplace]
  · have hlength := congrArg List.length hfront
    rw [List.length_append] at hlength
    rw [hsaid, List.length_append]
    omega
  · -- There is one mark only in what could be matched, and more than blanks in front of it.
    intro gap id' b hchars hgap hid' hb
    obtain ⟨c, hc, hblank⟩ := exists_nonblank_of_lt hm
    have hdrop : ((trimEnd front).drop m ++ trailing front) ++ '#' :: (id ++ tail)
        = gap ++ '#' :: (id' ++ b) := by
      rw [← hchars, hcut, List.drop_append_of_le_length (Nat.le_of_lt hm), List.append_assoc]
    have hmem : c ∈ gap := by
      rw [← front_eq_of_mark hgap hid' hb hdrop]
      exact List.mem_append_left _ hc
    rw [hgap c hmem] at hblank
    cases hblank

/-- A lazy text ends where nothing more is said when there is no id. -/
theorem captures?_text_absent (hn : '\n' ∉ s.chars)
    (h : ∀ front id, trimEnd s.chars = front ++ '#' :: id → ¬ IsId id) :
    (toEnd [text, maybe mark, blanks]).captures? s
      = some [(.text, Span.capture { s with chars := trimEnd s.chars })] := by
  have hcut : s.chars = trimEnd s.chars ++ trailing s.chars :=
    (Text.trimEnd_append_trailing s.chars).symm
  refine captures?_seq_text hn hcut ?_ fun m hm => captures?_tail_of_lt hm ?_
  · have hmark : ∀ found, (seq mark (toEnd [blanks])).captures?
        { start := s.start + Text.byteLength (trimEnd s.chars), chars := trailing s.chars }
          ≠ some found := by
      intro found hfound
      obtain ⟨gap, id, b, hchars, -⟩ := (captures?_mark_eq_some _).1 hfound
      have hmem : '#' ∈ trailing s.chars := by
        rw [show trailing s.chars = gap ++ '#' :: (id ++ b) from hchars]
        simp
      exact absurd (Text.isBlank_of_mem_trailing hmem) (by decide)
    rw [captures?_tail, Option.eq_none_iff_forall_ne_some.2 hmark, Option.none_or,
      captures?_blanks_toEnd, if_pos]
    exact List.all_eq_true.2 fun c hc => Text.isBlank_of_mem_trailing hc
  · intro gap id b hchars hgap hid hb
    have hassoc : s.chars = ((s.chars.take m ++ gap) ++ '#' :: id) ++ b := by
      conv_lhs => rw [← List.take_append_drop m s.chars, hchars]
      simp
    have hsolid : Solid ((s.chars.take m ++ gap) ++ '#' :: id) :=
      (hid.solid.append ['#']).append _
    refine h (s.chars.take m ++ gap) id ?_ hid
    conv_lhs => rw [hassoc]
    rw [Text.trimEnd_append_of_blank hb, hsolid.trimEnd]

theorem captures?_text_mark (hn : '\n' ∉ s.chars) {piece : List Char}
    {id : Option (List Char × List Char)} (hid : SplitsId (trimEnd s.chars) piece id) :
    (toEnd [text, maybe mark, blanks]).captures? s
      = some ((.text, Span.capture { s with chars := piece }) :: heldId s id) := by
  have hcut := Text.trimEnd_append_trailing s.chars
  generalize hbody : trimEnd s.chars = body at hid hcut
  cases hid with
  | @written front id heq hid =>
    have hs : s.chars = front ++ '#' :: (id ++ trailing s.chars) := by
      conv_lhs => rw [← hcut, heq]
      simp
    exact captures?_text_written hn hs hid fun c hc => Text.isBlank_of_mem_trailing hc
  | absent h =>
    rw [← hbody] at h ⊢
    exact captures?_text_absent hn h

/-! ## Bodies

The blanks in front of a body are passed over at once, as the rest of the pattern always matches. -/

theorem newline_not_mem_trimStart (hn : '\n' ∉ s.chars) : '\n' ∉ s.trimStart.chars :=
  fun hm => hn ((List.dropWhile_suffix Text.isBlank).mem hm)

theorem captures?_body (hn : '\n' ∉ s.chars) :
    (toEnd [blanks, text, blanks]).captures? s = some [(.text, s.trim.capture)] :=
  captures?_seq_many_of_some (captures?_text_toEnd (newline_not_mem_trimStart hn))

theorem captures?_body_mark (hn : '\n' ∉ s.chars) {piece : List Char}
    {id : Option (List Char × List Char)} (hid : SplitsId (trim s.chars) piece id) :
    (toEnd [blanks, text, maybe mark, blanks]).captures? s
      = some ((.text, Span.capture { s.trimStart with chars := piece }) :: heldId s.trimStart id) :=
  captures?_seq_many_of_some (captures?_text_mark (newline_not_mem_trimStart hn) hid)

end Regex
end Comfort
