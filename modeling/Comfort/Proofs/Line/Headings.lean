import Comfort.Proofs.Line.Parts

/-!
Headings in the line patterns.

A heading is what stands in front of the first colon, without the blanks behind it.  The pattern of
a heading is lazy, so it stops in front of those blanks, and it can stop no earlier: the rest of the
pattern does not match there, as no colon follows.
-/

namespace Comfort
namespace Regex

open Text (leading trailing trimStart trimEnd)

/-- A heading begins with an ASCII letter. -/
def heading (p : Char → Bool) : Regex :=
  seq (one Char.isAlpha) (few p)

/-- One character of each class. -/
def letters (p : Char → Bool) : List (Char → Bool) → Regex
  | [] => one p
  | q :: rest => seq (one p) (letters q rest)

/-- The letter in any case. -/
def ignoringCase (letter c : Char) : Bool :=
  c.toLower == letter

/-- A long s folds to an s. -/
def stageInitial (c : Char) : Bool :=
  ignoringCase 's' c || c == 'ſ'

/-- The word `stage` in any case. -/
def stageWord : Regex :=
  letters stageInitial [ignoringCase 't', ignoringCase 'a', ignoringCase 'g', ignoringCase 'e']

variable {s t : Span} {b : Regex} {found : List (Group × Capture)}

/-! ## The first colon -/

/-- Where something is left of a heading, no colon follows the blanks. -/
theorem head?_ne_colon {before after : List Char} (hfirst : ':' ∉ before) {n : Nat}
    (hn : n < (trimEnd before).length) :
    (trimStart (before.drop n ++ ':' :: after)).head? ≠ some ':' := by
  obtain ⟨c, hc, hblank⟩ := exists_nonblank_of_lt hn
  have hmem : c ∈ before.drop n := by
    rw [← Text.trimEnd_append_trailing before,
      List.drop_append_of_le_length (Nat.le_of_lt hn)]
    exact List.mem_append_left _ hc
  have hne : trimStart (before.drop n) ≠ [] := by
    intro hnil
    rw [List.dropWhile_eq_nil_iff.1 hnil c hmem] at hblank
    cases hblank
  have hsplit : trimStart (before.drop n ++ ':' :: after)
      = trimStart (before.drop n) ++ ':' :: after := by
    show (before.drop n ++ ':' :: after).dropWhile Text.isBlank = _
    have hkept : ¬ (List.dropWhile Text.isBlank (before.drop n)).isEmpty = true :=
      fun hempty => hne (List.isEmpty_iff.1 hempty)
    rw [List.dropWhile_append, if_neg hkept]
    rfl
  rw [hsplit, List.head?_append_of_ne_nil _ hne]
  intro hhead
  have hcolon : ':' ∈ before.drop n :=
    (List.dropWhile_suffix Text.isBlank).mem (List.mem_of_mem_head? hhead)
  exact hfirst (List.mem_of_mem_drop hcolon)

section Headed

variable {before after : List Char} (h : t.chars = before ++ ':' :: after) (hfirst : ':' ∉ before)

include h

theorem exists_rest : ∃ rest, t.chars = trimEnd before ++ rest := by
  refine ⟨trailing before ++ ':' :: after, ?_⟩
  rw [← List.append_assoc, Text.trimEnd_append_trailing, h]

/-- What has no colon in it stands in front of the first one. -/
theorem le_length_of_notMem {n : Nat} (hn : n ≤ t.chars.length) (hc : ':' ∉ t.chars.take n) :
    n ≤ before.length := by
  refine Nat.le_of_not_lt fun hlt => hc ?_
  obtain ⟨k, rfl⟩ : ∃ k, n = before.length + (k + 1) := ⟨n - before.length - 1, by omega⟩
  rw [h, List.take_length_add_append]
  exact List.mem_append_right _ List.mem_cons_self

include hfirst

/-- A colon follows where nothing but blanks is left of what stands before the first one. -/
theorem captures?_colon {n : Nat} (hn : n ≤ before.length) :
    (seq blanks (seq (char ':') b)).captures? (t.drop n)
      = if (trimEnd before).length ≤ n then
          b.captures? { start := t.start + Text.byteLength (before ++ [':']), chars := after }
        else none := by
  have hcolon : ∀ u : Span, u.chars.head?.any Text.isBlank = true →
      (seq (char ':') b).captures? u = none :=
    fun u hu => captures?_seq_char_of_blank (by decide) hu
  have hcut : t.chars = before.take n ++ (before.drop n ++ ':' :: after) := by
    rw [← List.append_assoc, List.take_append_drop, h]
  have hdrop : t.drop n
      = { start := t.start + Text.byteLength (before.take n),
          chars := before.drop n ++ ':' :: after } := by
    have hlength : (before.take n).length = n := List.length_take_of_le hn
    have hall := Span.drop_of_eq hcut
    rw [hlength] at hall
    exact hall
  rw [captures?_seq_blanks hcolon, hdrop]
  by_cases hle : (trimEnd before).length ≤ n
  · have hblank : ∀ c ∈ before.drop n, Text.isBlank c = true := by
      intro c hc
      rw [← Text.trimEnd_append_trailing before, List.drop_append, List.drop_of_length_le hle,
        List.nil_append] at hc
      exact Text.isBlank_of_mem_trailing (List.mem_of_mem_drop hc)
    have htrim : Span.trimStart
          { start := t.start + Text.byteLength (before.take n),
            chars := before.drop n ++ ':' :: after }
        = { start := t.start + Text.byteLength (before.take n) + Text.byteLength (before.drop n),
            chars := ':' :: after } :=
      Span.dropWhile_of_eq rfl hblank rfl
    rw [if_pos hle, htrim, captures?_seq_char rfl, Nat.add_assoc t.start, ← Text.byteLength_append,
      List.take_append_drop, Nat.add_assoc, ← Text.byteLength_append]
  · rw [if_neg hle]
    exact captures?_seq_char_of_ne (head?_ne_colon hfirst (Nat.lt_of_not_le hle))

/-- The group in front of the first colon holds what stands there, trimmed at the end, when the
pattern can pass over just that. -/
theorem captures?_headed {a : Regex} {name : Group} {ns : List Nat} (hpasses : a.Passes t ns)
    (hsorted : ns.Pairwise (· < ·)) (hbound : ∀ n ∈ ns, n ≤ before.length)
    (hstop : ∀ n ∈ ns, (trimEnd before).length ≤ n → (trimEnd before).length ∈ ns)
    (hb : b.captures? { start := t.start + Text.byteLength (before ++ [':']), chars := after }
      = some found) :
    (seq (group name a) (seq blanks (seq (char ':') b))).captures? t
      = if (trimEnd before).length ∈ ns then
          some ((name, Span.capture { t with chars := trimEnd before }) :: found)
        else none := by
  have hlength : ∀ n ∈ ns, n ≤ t.chars.length := by
    intro n hn
    have hle := hbound n hn
    rw [h, List.length_append]
    omega
  rw [captures?_seq_group hpasses hlength]
  by_cases hmem : (trimEnd before).length ∈ ns
  · rw [if_pos hmem]
    refine findSome?_of_sorted hsorted hmem ?_ fun m hm hlt => ?_
    · obtain ⟨rest, hrest⟩ := exists_rest h
      rw [captures?_colon h hfirst (hbound _ hmem), if_pos (Nat.le_refl _), hb,
        Span.take_of_eq hrest]
      rfl
    · rw [captures?_colon h hfirst (hbound m hm), if_neg (Nat.not_le_of_lt hlt)]
      rfl
  · rw [if_neg hmem, List.findSome?_eq_none_iff]
    intro n hn
    rw [captures?_colon h hfirst (hbound n hn), if_neg fun hle => hmem (hstop n hn hle)]
    rfl

end Headed

/-- There is nothing to match where there is no colon. -/
theorem captures?_of_no_colon {a : Regex} {name : Group} {ns : List Nat} (hpasses : a.Passes t ns)
    (hbound : ∀ n ∈ ns, n ≤ t.chars.length) (h : ':' ∉ t.chars) :
    (seq (group name a) (seq blanks (seq (char ':') b))).captures? t = none := by
  have hcolon : ∀ u : Span, u.chars.head?.any Text.isBlank = true →
      (seq (char ':') b).captures? u = none :=
    fun u hu => captures?_seq_char_of_blank (by decide) hu
  rw [captures?_seq_group hpasses hbound, List.findSome?_eq_none_iff]
  intro n hn
  rw [captures?_seq_blanks hcolon, captures?_seq_char_of_ne]
  · rfl
  · intro hhead
    have hmem : ':' ∈ t.chars.drop n :=
      (List.dropWhile_suffix Text.isBlank).mem (List.mem_of_mem_head? hhead)
    exact h (List.mem_of_mem_drop hmem)

/-! ## Headings of a class -/

variable {p : Char → Bool} {name : Group} {before after : List Char}

/-- How much can be passed over when `cs` follows the letter. -/
def headingLengths (p : Char → Bool) (cs : List Char) : List Nat :=
  (List.range ((cs.takeWhile p).length + 1)).map (1 + ·)

theorem mem_headingLengths {cs : List Char} {n : Nat} :
    n ∈ headingLengths p cs ↔ 1 ≤ n ∧ n ≤ 1 + (cs.takeWhile p).length := by
  simp only [headingLengths, List.mem_map, List.mem_range]
  constructor
  · rintro ⟨k, hk, rfl⟩
    omega
  · rintro ⟨hpos, hle⟩
    exact ⟨n - 1, by omega, by omega⟩

theorem sorted_headingLengths (p : Char → Bool) (cs : List Char) :
    (headingLengths p cs).Pairwise (· < ·) :=
  List.pairwise_lt_range.map _ fun _ _ hlt => Nat.add_lt_add_left hlt 1

theorem le_length_of_mem_headingLengths {c : Char} {cs : List Char} (h : t.chars = c :: cs) {n : Nat}
    (hn : n ∈ headingLengths p cs) : n ≤ t.chars.length := by
  have hle := (mem_headingLengths.1 hn).2
  have htake := (List.takeWhile_prefix (l := cs) p).length_le
  rw [h, List.length_cons]
  omega

theorem passes_heading {c : Char} {cs : List Char} (h : t.chars = c :: cs) (hc : c.isAlpha = true) :
    (heading p).Passes t (headingLengths p cs) := by
  have htail : (t.drop 1).chars = cs := by
    show t.chars.drop 1 = cs
    rw [h]
    rfl
  have hrest := passes_few p (t.drop 1)
  rw [runs, htail] at hrest
  exact passes_seq_one (by rw [h]; exact hc) hrest

theorem passes_heading_of_not (h : t.chars.head?.any Char.isAlpha = false) :
    (heading p).Passes t [] :=
  passes_seq_one_of_not h

/-- The characters that are passed over are letters and characters of the class. -/
theorem of_mem_take_heading {c d : Char} {cs : List Char} {n : Nat}
    (hp : ∀ c, c.isAlpha = true → p c = true) (hc : c.isAlpha = true)
    (hn : n ∈ headingLengths p cs) (hd : d ∈ (c :: cs).take n) : p d = true := by
  obtain ⟨hpos, hle⟩ := mem_headingLengths.1 hn
  obtain ⟨k, rfl⟩ : ∃ k, n = k + 1 := ⟨n - 1, by omega⟩
  rw [List.take_succ_cons, List.mem_cons] at hd
  rcases hd with rfl | hd
  · exact hp d hc
  · obtain ⟨rest, hrest⟩ := List.takeWhile_prefix (l := cs) p
    have hk : k ≤ (cs.takeWhile p).length := by omega
    rw [← hrest, List.take_append_of_le_length hk] at hd
    exact List.mem_takeWhile_imp (List.mem_of_mem_take hd)

/-- The first letter of a heading is the first character of the line. -/
theorem trimEnd_ne_nil_of_isAlpha {c : Char} {cs : List Char} (hcs : t.chars = c :: cs)
    (hc : c.isAlpha = true) (h : t.chars = before ++ ':' :: after) : trimEnd before ≠ [] := by
  have hmem : c ∈ before := by
    cases before with
    | nil =>
      rw [hcs, List.nil_append, List.cons.injEq] at h
      rw [h.1] at hc
      exact absurd hc (by decide)
    | cons d before =>
      rw [hcs, List.cons_append, List.cons.injEq] at h
      rw [h.1]
      exact List.mem_cons_self
  refine (Text.solid_trimEnd (Bool.eq_false_iff.2 fun hall => ?_)).ne_nil
  have hblank : Text.isBlank c = true := List.all_eq_true.1 hall c hmem
  rw [isBlank_of_isAlpha hc] at hblank
  cases hblank

theorem length_mem_headingLengths_iff {c : Char} {cs head rest : List Char}
    (hp : ∀ c, c.isAlpha = true → p c = true) (hc : c.isAlpha = true)
    (hrest : c :: cs = head ++ rest) :
    head.length ∈ headingLengths p cs ↔ LineForm.isHeading p head = true := by
  rw [LineForm.isHeading, Bool.and_eq_true]
  constructor
  · intro hmem
    have hhead : (c :: cs).take head.length = head := by rw [hrest, List.take_left]
    refine ⟨?_, List.all_eq_true.2 fun d hd => ?_⟩
    · obtain ⟨k, hk⟩ : ∃ k, head.length = k + 1 :=
        ⟨head.length - 1, by have := (mem_headingLengths.1 hmem).1; omega⟩
      rw [← hhead, hk, List.take_succ_cons]
      exact hc
    · rw [← hhead] at hd
      exact of_mem_take_heading hp hc hmem hd
  · rintro ⟨hletter, hall⟩
    cases head with
    | nil => cases hletter
    | cons d head =>
      obtain ⟨rfl, heq⟩ := List.cons.inj hrest
      have hcs : cs = head ++ rest := heq
      have htail : ∀ e ∈ head, p e = true :=
        fun e he => List.all_eq_true.1 hall e (List.mem_cons_of_mem _ he)
      rw [mem_headingLengths, hcs, List.takeWhile_append_of_pos htail, List.length_append,
        List.length_cons]
      omega

/-- No colon is passed over. -/
theorem le_length_before_of_mem_headingLengths {c : Char} {cs : List Char}
    (hp : ∀ c, c.isAlpha = true → p c = true) (hcolon : p ':' = false) (hc : c.isAlpha = true)
    (hcs : t.chars = c :: cs) (h : t.chars = before ++ ':' :: after) {n : Nat}
    (hn : n ∈ headingLengths p cs) : n ≤ before.length := by
  apply le_length_of_notMem h (le_length_of_mem_headingLengths hcs hn)
  intro hmem
  rw [hcs] at hmem
  have hclass := of_mem_take_heading hp hc hn hmem
  rw [hcolon] at hclass
  cases hclass

/-- A heading of a class, in front of the first colon. -/
theorem captures?_heading (hp : ∀ c, c.isAlpha = true → p c = true) (hcolon : p ':' = false)
    (h : t.chars = before ++ ':' :: after) (hfirst : ':' ∉ before)
    (hb : b.captures? { start := t.start + Text.byteLength (before ++ [':']), chars := after }
      = some found) :
    (seq (group name (heading p)) (seq blanks (seq (char ':') b))).captures? t
      = if LineForm.isHeading p (trimEnd before) = true then
          some ((name, Span.capture { t with chars := trimEnd before }) :: found)
        else none := by
  obtain ⟨rest, hrest⟩ := exists_rest h
  by_cases halpha : t.chars.head?.any Char.isAlpha = true
  · obtain ⟨c, hhead, hc⟩ := (Option.any_eq_true ..).1 halpha
    obtain ⟨cs, hcs⟩ := List.head?_eq_some_iff.1 hhead
    have hbound : ∀ n ∈ headingLengths p cs, n ≤ before.length :=
      fun n hn => le_length_before_of_mem_headingLengths hp hcolon hc hcs h hn
    have hstop : ∀ n ∈ headingLengths p cs, (trimEnd before).length ≤ n →
        (trimEnd before).length ∈ headingLengths p cs := by
      intro n hn hle
      have hmax := (mem_headingLengths.1 hn).2
      have hpos := List.length_pos_iff.2 (trimEnd_ne_nil_of_isAlpha hcs hc h)
      exact mem_headingLengths.2 ⟨by omega, by omega⟩
    rw [captures?_headed h hfirst (passes_heading hcs hc) (sorted_headingLengths p cs) hbound hstop
      hb]
    simp only [length_mem_headingLengths_iff hp hc (hcs.symm.trans hrest)]
  · have hnot : ¬ LineForm.isHeading p (trimEnd before) = true := by
      intro hheading
      rw [LineForm.isHeading, Bool.and_eq_true] at hheading
      obtain ⟨c, hc, hletter⟩ := (Option.any_eq_true ..).1 hheading.1
      refine halpha ((Option.any_eq_true ..).2 ⟨c, ?_, hletter⟩)
      rw [hrest, List.head?_append, hc]
      rfl
    rw [captures?_headed h hfirst (passes_heading_of_not (Bool.eq_false_iff.2 halpha)) .nil
      (List.forall_mem_nil _) (List.forall_mem_nil _) hb, if_neg List.not_mem_nil, if_neg hnot]

/-! ## The word of a stage -/

/-- Whether a text begins with one character of each class. -/
def spells : List (Char → Bool) → List Char → Bool
  | [], _ => true
  | p :: ps, c :: cs => p c && spells ps cs
  | _ :: _, [] => false

theorem spells_nil (cs : List Char) : spells [] cs = true := rfl

theorem spells_cons (p : Char → Bool) (ps : List (Char → Bool)) (c : Char) (cs : List Char) :
    spells (p :: ps) (c :: cs) = (p c && spells ps cs) := rfl

theorem passes_letters (p : Char → Bool) (ps : List (Char → Bool)) (t : Span) :
    (letters p ps).Passes t (if spells (p :: ps) t.chars = true then [ps.length + 1] else []) := by
  induction ps generalizing p t with
  | nil =>
    cases ht : t.chars with
    | nil => exact passes_one_of_not (by rw [ht]; rfl)
    | cons c cs =>
      rw [spells_cons, spells_nil, Bool.and_true]
      split
      · next hc => exact passes_one (by rw [ht]; exact hc)
      · next hc => exact passes_one_of_not (by rw [ht]; exact Bool.eq_false_iff.2 hc)
  | cons q ps ih =>
    cases ht : t.chars with
    | nil => exact passes_seq_one_of_not (by rw [ht]; rfl)
    | cons c cs =>
      have htail : (t.drop 1).chars = cs := by
        show t.chars.drop 1 = cs
        rw [ht]
        rfl
      rw [spells_cons]
      by_cases hc : p c = true
      · have hrest := passes_seq_one (p := p) (by rw [ht]; exact hc) (ih q (t.drop 1))
        rw [htail] at hrest
        rw [hc, Bool.true_and]
        split
        · next hs =>
          rw [if_pos hs] at hrest
          rw [List.length_cons, Nat.add_comm (ps.length + 1)]
          exact hrest
        · next hs =>
          rw [if_neg hs] at hrest
          exact hrest
      · rw [Bool.eq_false_iff.2 hc, Bool.false_and, if_neg Bool.false_ne_true]
        exact passes_seq_one_of_not (by rw [ht]; exact Bool.eq_false_iff.2 hc)

theorem spells_append {ps : List (Char → Bool)} {cs rest : List Char} (h : ps.length ≤ cs.length) :
    spells ps (cs ++ rest) = spells ps cs := by
  induction ps generalizing cs with
  | nil => rfl
  | cons p ps ih =>
    cases cs with
    | nil => exact absurd h (Nat.not_succ_le_zero _)
    | cons c cs =>
      rw [List.cons_append, spells_cons, spells_cons, ih (Nat.le_of_succ_le_succ h)]

theorem length_le_of_spells {ps : List (Char → Bool)} {cs : List Char} (h : spells ps cs = true) :
    ps.length ≤ cs.length := by
  induction ps generalizing cs with
  | nil => exact Nat.zero_le _
  | cons p ps ih =>
    cases cs with
    | nil => cases h
    | cons c cs =>
      rw [spells_cons, Bool.and_eq_true] at h
      exact Nat.succ_le_succ (ih h.2)

theorem exists_of_spells {ps : List (Char → Bool)} {cs : List Char} (h : spells ps cs = true)
    {c : Char} (hc : c ∈ cs.take ps.length) : ∃ p ∈ ps, p c = true := by
  induction ps generalizing cs with
  | nil => cases hc
  | cons p ps ih =>
    cases cs with
    | nil => cases hc
    | cons d cs =>
      rw [spells_cons, Bool.and_eq_true] at h
      rw [List.length_cons, List.take_succ_cons, List.mem_cons] at hc
      rcases hc with rfl | hc
      · exact ⟨p, List.mem_cons_self, h.1⟩
      · obtain ⟨q, hq, hqc⟩ := ih h.2 hc
        exact ⟨q, List.mem_cons_of_mem _ hq, hqc⟩

def stageLetters : List (Char → Bool) :=
  [stageInitial, ignoringCase 't', ignoringCase 'a', ignoringCase 'g', ignoringCase 'e']

theorem isStageWord_iff_spells {cs : List Char} :
    LineForm.isStageWord cs = true ↔ cs.length = 5 ∧ spells stageLetters cs = true := by
  unfold LineForm.isStageWord
  split
  · simp [stageLetters, spells_cons, spells_nil, stageInitial, ignoringCase, and_assoc]
  · next hne =>
    refine ⟨nofun, fun h => ?_⟩
    match cs, h.1 with
    | [a, b, c, d, e], _ => exact absurd rfl (hne a b c d e)

theorem isBlank_of_ignoringCase {letter c : Char} (hletter : Text.isBlank letter = false)
    (h : ignoringCase letter c = true) : Text.isBlank c = false := by
  by_cases hupper : c.isUpper = true
  · exact isBlank_of_isAlpha (Bool.or_eq_true_iff.2 (.inl hupper))
  · have hsame : c.toLower = c := dif_neg fun hbounds => hupper (decide_eq_true hbounds)
    rw [ignoringCase, hsame, beq_iff_eq] at h
    rw [h]
    exact hletter

theorem isBlank_of_stageLetter {p : Char → Bool} (hp : p ∈ stageLetters) {c : Char}
    (h : p c = true) : Text.isBlank c = false := by
  simp only [stageLetters, List.mem_cons, List.not_mem_nil, or_false] at hp
  rcases hp with rfl | rfl | rfl | rfl | rfl
  · rcases Bool.or_eq_true_iff.1 h with hs | hs
    · exact isBlank_of_ignoringCase (by decide) hs
    · rw [beq_iff_eq.1 hs]
      decide
  · exact isBlank_of_ignoringCase (by decide) h
  · exact isBlank_of_ignoringCase (by decide) h
  · exact isBlank_of_ignoringCase (by decide) h
  · exact isBlank_of_ignoringCase (by decide) h

theorem stageLetter_colon : ∀ p ∈ stageLetters, p ':' = false := by
  simp only [stageLetters, List.mem_cons, List.not_mem_nil, or_false]
  rintro p (rfl | rfl | rfl | rfl | rfl) <;> decide

/-- What has no blank in it stands in front of the blanks that end a heading. -/
theorem le_length_trimEnd (h : t.chars = before ++ ':' :: after) {n : Nat} (hn : n ≤ before.length)
    (hsolid : ∀ c ∈ t.chars.take n, Text.isBlank c = false) : n ≤ (trimEnd before).length := by
  by_contra hlt
  have hcut := Text.trimEnd_append_trailing before
  have hlength := congrArg List.length hcut
  rw [List.length_append] at hlength
  obtain ⟨k, rfl⟩ : ∃ k, n = (trimEnd before).length + (k + 1) :=
    ⟨n - (trimEnd before).length - 1, by omega⟩
  obtain ⟨d, rest, htrailing⟩ := List.exists_cons_of_length_pos (l := trailing before) (by omega)
  have hblank : Text.isBlank d = true :=
    Text.isBlank_of_mem_trailing (by rw [htrailing]; exact List.mem_cons_self)
  have hchars : t.chars = trimEnd before ++ d :: (rest ++ ':' :: after) := by
    calc t.chars = (trimEnd before ++ d :: rest) ++ ':' :: after := by rw [← htrailing, hcut, h]
      _ = trimEnd before ++ d :: (rest ++ ':' :: after) := List.append_assoc ..
  have hmem : d ∈ t.chars.take ((trimEnd before).length + (k + 1)) := by
    rw [hchars, List.take_length_add_append]
    exact List.mem_append_right _ List.mem_cons_self
  rw [hsolid d hmem] at hblank
  cases hblank

/-- The word of a stage, in front of the first colon. -/
theorem captures?_stageWord (h : t.chars = before ++ ':' :: after) (hfirst : ':' ∉ before)
    (hb : b.captures? { start := t.start + Text.byteLength (before ++ [':']), chars := after }
      = some found) :
    (seq (group name stageWord) (seq blanks (seq (char ':') b))).captures? t
      = if LineForm.isStageWord (trimEnd before) = true then
          some ((name, Span.capture { t with chars := trimEnd before }) :: found)
        else none := by
  have hpasses : stageWord.Passes t (if spells stageLetters t.chars = true then [5] else []) :=
    passes_letters ..
  by_cases hspells : spells stageLetters t.chars = true
  · rw [if_pos hspells] at hpasses
    have hbound : 5 ≤ before.length := by
      refine le_length_of_notMem h (length_le_of_spells hspells) fun hmem => ?_
      obtain ⟨p, hp, hpc⟩ := exists_of_spells hspells hmem
      rw [stageLetter_colon p hp] at hpc
      cases hpc
    have hword : 5 ≤ (trimEnd before).length := by
      apply le_length_trimEnd h hbound
      intro c hc
      obtain ⟨p, hp, hpc⟩ := exists_of_spells hspells hc
      exact isBlank_of_stageLetter hp hpc
    have hmem : (trimEnd before).length ∈ [5] ↔ LineForm.isStageWord (trimEnd before) = true := by
      rw [List.mem_singleton, isStageWord_iff_spells]
      refine ⟨fun hlength => ⟨hlength, ?_⟩, And.left⟩
      obtain ⟨rest, hrest⟩ := exists_rest h
      rw [hrest, spells_append (by rw [hlength]; rfl)] at hspells
      exact hspells
    rw [captures?_headed h hfirst hpasses (List.pairwise_singleton ..) ?_ ?_ hb]
    · simp only [hmem]
    · exact List.forall_mem_singleton.2 hbound
    · refine List.forall_mem_singleton.2 fun hle => List.mem_singleton.2 ?_
      omega
  · rw [if_neg hspells] at hpasses
    have hnot : ¬ LineForm.isStageWord (trimEnd before) = true := by
      rw [isStageWord_iff_spells]
      rintro ⟨hlength, hs⟩
      obtain ⟨rest, hrest⟩ := exists_rest h
      rw [hrest, spells_append (by rw [hlength]; rfl)] at hspells
      exact hspells hs
    rw [captures?_headed h hfirst hpasses .nil (List.forall_mem_nil _) (List.forall_mem_nil _) hb,
      if_neg List.not_mem_nil, if_neg hnot]

/-! ## Patterns that find a heading -/

/-- The pattern finds the headings that `q` holds of: it begins with no blank, and in front of a
first colon it matches the heading there, if it is one of them. -/
structure Finds (a : Regex) (q : List Char → Bool) : Prop where
  solid : ∀ t : Span, t.chars.head?.any Text.isBlank = true → a.Passes t []
  bounded : ∀ t : Span, ∃ ns, a.Passes t ns ∧ ∀ n ∈ ns, n ≤ t.chars.length
  first : ∀ {t : Span} {before after : List Char} {name : Group} {b : Regex}
    {found : List (Group × Capture)}, t.chars = before ++ ':' :: after → ':' ∉ before →
    b.captures? { start := t.start + Text.byteLength (before ++ [':']), chars := after }
      = some found →
    (seq (group name a) (seq blanks (seq (char ':') b))).captures? t
      = if q (trimEnd before) = true then
          some ((name, Span.capture { t with chars := trimEnd before }) :: found)
        else none

theorem finds_heading (hp : ∀ c, c.isAlpha = true → p c = true) (hcolon : p ':' = false) :
    Finds (heading p) (LineForm.isHeading p) where
  solid t h := by
    refine passes_heading_of_not (Bool.eq_false_iff.2 fun hletter => ?_)
    obtain ⟨c, hc, halpha⟩ := (Option.any_eq_true ..).1 hletter
    rw [hc, Option.any_some, isBlank_of_isAlpha halpha] at h
    cases h
  bounded t := by
    by_cases halpha : t.chars.head?.any Char.isAlpha = true
    · obtain ⟨c, hhead, hc⟩ := (Option.any_eq_true ..).1 halpha
      obtain ⟨cs, hcs⟩ := List.head?_eq_some_iff.1 hhead
      exact ⟨_, passes_heading hcs hc, fun n hn => le_length_of_mem_headingLengths hcs hn⟩
    · exact ⟨[], passes_heading_of_not (Bool.eq_false_iff.2 halpha), List.forall_mem_nil _⟩
  first := captures?_heading hp hcolon

theorem finds_stageWord : Finds stageWord LineForm.isStageWord where
  solid t h := by
    have hpasses := passes_letters stageInitial
      [ignoringCase 't', ignoringCase 'a', ignoringCase 'g', ignoringCase 'e'] t
    rw [if_neg] at hpasses
    · exact hpasses
    · intro hspells
      obtain ⟨c, hc, hblank⟩ := (Option.any_eq_true ..).1 h
      obtain ⟨cs, hcs⟩ := List.head?_eq_some_iff.1 hc
      rw [hcs, spells_cons, Bool.and_eq_true] at hspells
      rw [isBlank_of_stageLetter List.mem_cons_self hspells.1] at hblank
      cases hblank
  bounded t := by
    refine ⟨_, passes_letters .., fun n hn => ?_⟩
    split at hn
    · next hspells =>
      rw [List.mem_singleton.1 hn]
      exact length_le_of_spells hspells
    · cases hn
  first := captures?_stageWord

section Line

variable {line : SourceLine} {a : Regex} {q : List Char → Bool}

/-- The heading of a line is found behind the blanks at its front. -/
theorem captures?_of_headed (hf : Finds a q) (h : Headed line before after)
    (hb : b.captures?
        { start := line.range.start + Text.byteLength (leading line.text.toList)
            + Text.byteLength (before ++ [':']),
          chars := after }
      = some found) :
    (seq blanks (seq (group name a) (seq blanks (seq (char ':') b)))).captures? line.span
      = if q (trimEnd before) = true then some ((name, line.cutHead before) :: found)
        else none := by
  rw [captures?_seq_blanks fun t ht => captures?_seq_group (hf.solid t ht) (List.forall_mem_nil _)]
  exact hf.first (t := line.span.trimStart) h.eq h.first hb

theorem captures?_of_not_headed (hf : Finds a q) (h : ':' ∉ trimStart line.text.toList) :
    (seq blanks (seq (group name a) (seq blanks (seq (char ':') b)))).captures? line.span
      = none := by
  obtain ⟨ns, hpasses, hbound⟩ := hf.bounded line.span.trimStart
  rw [captures?_seq_blanks fun t ht => captures?_seq_group (hf.solid t ht) (List.forall_mem_nil _)]
  exact captures?_of_no_colon hpasses hbound h

end Line

end Regex
end Comfort
