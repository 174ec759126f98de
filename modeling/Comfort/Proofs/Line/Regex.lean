import Comfort.Line.Form
import Comfort.Proofs.Text.Piece

/-!
Regular expressions with named groups.

A pattern can match the front of a text in several ways.  `Regex.ways` lists them in the order in
which a backtracking search tries them: a greedy repetition tries the longest run first and a lazy
one the shortest.  The match is the first way of all, and `Regex.captures?` is what its groups hold.
The lemmas say what the first way of a sequence is, one part after the other.
-/

namespace Comfort

/-- The names of groups. -/
inductive Group where
  | label
  | speaker
  | text
  | id
  deriving DecidableEq

inductive Regex where
  /-- One character of a class. -/
  | one (p : Char → Bool)
  /-- A greedy run of characters of a class. -/
  | many (p : Char → Bool)
  /-- A lazy run of characters of a class. -/
  | few (p : Char → Bool)
  /-- The pattern if it matches, and nothing otherwise. -/
  | maybe (r : Regex)
  | seq (a b : Regex)
  | group (name : Group) (r : Regex)
  /-- Nothing, at the end of the text. -/
  | atEnd

namespace Regex

/-- A way to match the front of a text: what is left of it, and what the groups hold. -/
structure Way where
  rest : Span
  captures : List (Group × Capture)

/-- The lengths of the runs of a class at the front, in ascending order. -/
def runs (p : Char → Bool) (s : Span) : List Nat :=
  List.range ((s.chars.takeWhile p).length + 1)

/-- What a pattern passed over when it left `rest`. -/
def passed (s rest : Span) : Span :=
  s.take (s.chars.length - rest.chars.length)

/-- All ways to match, the preferred ones first. -/
def ways : Regex → Span → List Way
  | one p, s => if s.chars.head?.any p then [⟨s.drop 1, []⟩] else []
  | many p, s => (runs p s).reverse.map fun n => ⟨s.drop n, []⟩
  | few p, s => (runs p s).map fun n => ⟨s.drop n, []⟩
  | maybe r, s => r.ways s ++ [⟨s, []⟩]
  | seq a b, s =>
    (a.ways s).flatMap fun w => (b.ways w.rest).map fun v => ⟨v.rest, w.captures ++ v.captures⟩
  | group name r, s =>
    (r.ways s).map fun w => ⟨w.rest, (name, (passed s w.rest).capture) :: w.captures⟩
  | atEnd, s => if s.chars.isEmpty then [⟨s, []⟩] else []

def captures? (r : Regex) (s : Span) : Option (List (Group × Capture)) :=
  (r.ways s).head?.map Way.captures

/-- Patterns one after the other, up to the end of the text. -/
def toEnd : List Regex → Regex
  | [] => atEnd
  | r :: rest => seq r (toEnd rest)

variable {a b : Regex} {s : Span} {p : Char → Bool} {found : List (Group × Capture)}

/-! ## All ways -/

theorem ways_one (h : s.chars.head?.any p = true) : (one p).ways s = [⟨s.drop 1, []⟩] :=
  if_pos h

theorem ways_one_of_not (h : s.chars.head?.any p = false) : (one p).ways s = [] :=
  if_neg (Bool.eq_false_iff.1 h)

theorem ways_many (p : Char → Bool) (s : Span) :
    (many p).ways s = (runs p s).reverse.map fun n => ⟨s.drop n, []⟩ := rfl

theorem ways_maybe (r : Regex) (s : Span) : (maybe r).ways s = r.ways s ++ [⟨s, []⟩] := rfl

theorem ways_seq (a b : Regex) (s : Span) :
    (seq a b).ways s
      = (a.ways s).flatMap fun w =>
          (b.ways w.rest).map fun v => ⟨v.rest, w.captures ++ v.captures⟩ := rfl

theorem ways_group (name : Group) (r : Regex) (s : Span) :
    (group name r).ways s
      = (r.ways s).map fun w => ⟨w.rest, (name, (passed s w.rest).capture) :: w.captures⟩ := rfl

/-! ## The first way -/

theorem captures?_seq (a b : Regex) (s : Span) :
    (seq a b).captures? s
      = (a.ways s).findSome? fun w => (b.captures? w.rest).map (w.captures ++ ·) := by
  simp only [captures?, ways_seq, List.head?_flatMap, List.head?_map, List.map_findSome?]
  congr
  funext w
  simp [Function.comp_def]

theorem captures?_seq_assoc (a b c : Regex) (s : Span) :
    (seq (seq a b) c).captures? s = (seq a (seq b c)).captures? s := by
  simp [captures?, ways_seq, List.flatMap_assoc, List.flatMap_map, List.map_flatMap,
    Function.comp_def]

theorem captures?_seq_maybe (a b : Regex) (s : Span) :
    (seq (maybe a) b).captures? s = ((seq a b).captures? s).or (b.captures? s) := by
  simp [captures?_seq, ways_maybe, List.findSome?_append]

theorem captures?_seq_one (h : s.chars.head?.any p = true) :
    (seq (one p) b).captures? s = b.captures? (s.drop 1) := by
  simp [captures?_seq, ways_one h]

theorem captures?_seq_one_of_not (h : s.chars.head?.any p = false) :
    (seq (one p) b).captures? s = none := by
  rw [captures?_seq, ways_one_of_not h, List.findSome?_nil]

theorem captures?_atEnd (h : s.chars = []) : atEnd.captures? s = some [] := by
  have hways : atEnd.ways s = [⟨s, []⟩] := if_pos (List.isEmpty_iff.2 h)
  rw [captures?, hways]
  rfl

theorem captures?_atEnd_of_ne_nil (h : s.chars ≠ []) : atEnd.captures? s = none := by
  have hways : atEnd.ways s = [] := if_neg fun hempty => h (List.isEmpty_iff.1 hempty)
  rw [captures?, hways]
  rfl

/-! ## Runs -/

theorem chars_drop_head? {n : Nat} (h : n < (s.chars.takeWhile p).length) :
    (s.drop n).chars.head?.any p = true := by
  obtain ⟨rest, hrest⟩ : s.chars.takeWhile p <+: s.chars := List.takeWhile_prefix p
  have hn : n < s.chars.length := by
    rw [← hrest, List.length_append]
    omega
  have hchar : (s.chars.takeWhile p)[n] = s.chars[n] := by
    rw [List.getElem_of_eq hrest.symm, List.getElem_append_left h]
  have hmem : p s.chars[n] = true := by
    rw [← hchar]
    exact List.mem_takeWhile_imp (List.getElem_mem h)
  show (s.chars.drop n).head?.any p = true
  rw [List.head?_drop, List.getElem?_eq_getElem hn]
  exact hmem

/-- A greedy run goes as far as it can, and gives characters back only when the rest does not match
then. -/
theorem captures?_seq_many_eq (p : Char → Bool) (b : Regex) (s : Span) :
    (seq (many p) b).captures? s
      = (b.captures? (s.dropWhile p)).or
          ((List.range (s.chars.takeWhile p).length).reverse.findSome? fun n =>
            b.captures? (s.drop n)) := by
  have hall : s.drop (s.chars.takeWhile p).length = s.dropWhile p :=
    Span.drop_of_eq List.takeWhile_append_dropWhile.symm
  rw [captures?_seq, ways_many, runs, List.range_succ, List.reverse_append, List.reverse_singleton,
    List.singleton_append, List.map_cons, List.findSome?_cons, hall, List.findSome?_map]
  simp only [List.nil_append, Option.map_id_fun', Function.comp_def, id_eq]
  cases b.captures? (s.dropWhile p) <;> rfl

theorem captures?_seq_many_of_some (h : b.captures? (s.dropWhile p) = some found) :
    (seq (many p) b).captures? s = some found := by
  rw [captures?_seq_many_eq, h]
  rfl

/-- Nothing is given back when the rest does not begin with a character of the run. -/
theorem captures?_seq_many (h : ∀ t : Span, t.chars.head?.any p = true → b.captures? t = none) :
    (seq (many p) b).captures? s = b.captures? (s.dropWhile p) := by
  have hback : (List.range (s.chars.takeWhile p).length).reverse.findSome?
      (fun n => b.captures? (s.drop n)) = none := by
    rw [List.findSome?_eq_none_iff]
    intro n hn
    exact h _ (chars_drop_head? (List.mem_range.1 (List.mem_reverse.1 hn)))
  rw [captures?_seq_many_eq, hback, Option.or_none]

/-! ## Groups -/

theorem findSome?_of_sorted {α : Type} {f : Nat → Option α} {ns : List Nat}
    (hs : ns.Pairwise (· < ·)) {n : Nat} {x : α} (hn : n ∈ ns) (hx : f n = some x)
    (hlt : ∀ m ∈ ns, m < n → f m = none) : ns.findSome? f = some x := by
  induction ns with
  | nil => cases hn
  | cons m ns ih =>
    rw [List.pairwise_cons] at hs
    rw [List.findSome?_cons]
    rcases List.mem_cons.1 hn with rfl | hn
    · rw [hx]
    · rw [hlt m List.mem_cons_self (hs.1 n hn)]
      exact ih hs.2 hn fun k hk => hlt k (List.mem_cons_of_mem _ hk)

theorem findSome?_congr {α β : Type} {f g : α → Option β} {l : List α} (h : ∀ a ∈ l, f a = g a) :
    l.findSome? f = l.findSome? g := by
  induction l with
  | nil => rfl
  | cons a l ih =>
    rw [List.findSome?_cons, List.findSome?_cons, h a List.mem_cons_self,
      ih fun b hb => h b (List.mem_cons_of_mem _ hb)]

/-- The pattern holds no groups, and the numbers of characters that it can pass over are `ns`. -/
def Passes (r : Regex) (s : Span) (ns : List Nat) : Prop :=
  r.ways s = ns.map fun n => ⟨s.drop n, []⟩

theorem passes_many (p : Char → Bool) (s : Span) : (many p).Passes s (runs p s).reverse := rfl

theorem passes_few (p : Char → Bool) (s : Span) : (few p).Passes s (runs p s) := rfl

theorem passes_one (h : s.chars.head?.any p = true) : (one p).Passes s [1] :=
  ways_one h

theorem passes_one_of_not (h : s.chars.head?.any p = false) : (one p).Passes s [] :=
  ways_one_of_not h

theorem passes_seq_one {ns : List Nat} (h : s.chars.head?.any p = true)
    (hb : b.Passes (s.drop 1) ns) : (seq (one p) b).Passes s (ns.map (1 + ·)) := by
  have hways : b.ways (s.drop 1) = ns.map fun n => ⟨(s.drop 1).drop n, []⟩ := hb
  rw [Passes, ways_seq, ways_one h, List.flatMap_singleton, hways]
  simp [Span.drop_drop, Function.comp_def]

theorem passes_seq_one_of_not (h : s.chars.head?.any p = false) :
    (seq (one p) b).Passes s [] := by
  rw [Passes, ways_seq, ways_one_of_not h]
  rfl

/-- A group holds what its pattern passed over. -/
theorem captures?_seq_group {name : Group} {ns : List Nat} (h : a.Passes s ns)
    (hns : ∀ n ∈ ns, n ≤ s.chars.length) :
    (seq (group name a) b).captures? s
      = ns.findSome? fun n =>
          (b.captures? (s.drop n)).map ((name, (s.take n).capture) :: ·) := by
  have hways : a.ways s = ns.map fun n => ⟨s.drop n, []⟩ := h
  rw [captures?_seq, ways_group, hways, List.map_map, List.findSome?_map]
  refine findSome?_congr fun n hn => ?_
  have hlength : s.chars.length - (s.chars.drop n).length = n := by
    have hle : n ≤ s.chars.length := hns n hn
    rw [List.length_drop]
    omega
  show (b.captures? (s.drop n)).map
    ([(name, (s.take (s.chars.length - (s.chars.drop n).length)).capture)] ++ ·) = _
  rw [hlength]
  rfl

end Regex
end Comfort
