import Comfort.Config.File
import Comfort.Proofs.Text.Piece

/-!
What a path is expanded to.

A path reads as `Piece`s, which are characters, dollar signs that are written twice, and variables.
It comes out as what the pieces stand for.  When no dollar sign comes out, expanding the path once
more can only put the home directory for a tilde that has come out in front: `expandPath_again`.
-/

namespace Comfort
namespace Expand

inductive Piece where
  | plain (c : Char)
  /-- Two dollar signs, which stand for one. -/
  | escape
  | reference (name : List Char) (default : Option (List Char))

def Piece.value? (env : Environment) : Piece → Option (List Char)
  | plain c => some [c]
  | escape => some ['$']
  | reference name default => ((env.lookup? (String.ofList name)).map String.toList).or default

def values? (env : Environment) : List Piece → Option (List Char)
  | [] => some []
  | piece :: pieces =>
    (piece.value? env).bind fun value => (values? env pieces).map (value ++ ·)

/-- The pieces that a text is made of. -/
inductive Reads : List Char → List Piece → Prop where
  | nil : Reads [] []
  | plain {c : Char} {cs : List Char} {pieces : List Piece} (hc : c ≠ '$') (h : Reads cs pieces) :
      Reads (c :: cs) (.plain c :: pieces)
  | escape {cs : List Char} {pieces : List Piece} (h : Reads cs pieces) :
      Reads ('$' :: '$' :: cs) (.escape :: pieces)
  /-- A name goes on as long as it can. -/
  | name {name cs : List Char} {pieces : List Piece} (hname : name ≠ [])
      (hchars : ∀ c ∈ name, isNameChar c = true) (hend : cs.head?.any isNameChar = false)
      (h : Reads cs pieces) : Reads ('$' :: (name ++ cs)) (.reference name none :: pieces)
  | braces {body cs : List Char} {pieces : List Piece} (hbody : '\x7d' ∉ body)
      (h : Reads cs pieces) :
      Reads ('$' :: '\x7b' :: (body ++ '\x7d' :: cs))
        (.reference (splitDefault [] body).1 (splitDefault [] body).2 :: pieces)
  /-- A brace that is not closed opens nothing. -/
  | unclosed {cs : List Char} {pieces : List Piece} (hopen : '\x7d' ∉ cs) (h : Reads cs pieces) :
      Reads ('$' :: '\x7b' :: cs) (.plain '$' :: .plain '\x7b' :: pieces)
  /-- A dollar sign with nothing behind it that it could belong to. -/
  | lone {cs : List Char} {pieces : List Piece}
      (hend : cs.head?.any (fun c => c == '$' || c == '\x7b' || isNameChar c) = false)
      (h : Reads cs pieces) : Reads ('$' :: cs) (.plain '$' :: pieces)

variable {env : Environment} {cs : List Char} {pieces : List Piece} {path : String}

/-! ## Reading a text -/

theorem reads_map_plain {cs : List Char} (h : '$' ∉ cs) : Reads cs (cs.map .plain) := by
  induction cs with
  | nil => exact .nil
  | cons c cs ih =>
    rw [List.mem_cons, not_or] at h
    exact .plain (Ne.symm h.1) (ih h.2)

/-- The name behind a dollar sign is the run of name characters there. -/
theorem reads_name {c : Char} {cs : List Char} (hc : isNameChar c = true)
    (h : Reads (cs.dropWhile isNameChar) pieces) :
    Reads ('$' :: c :: cs) (.reference (c :: cs.takeWhile isNameChar) none :: pieces) := by
  have hchars : ∀ d ∈ c :: cs.takeWhile isNameChar, isNameChar d = true := by
    intro d hd
    obtain rfl | hd := List.mem_cons.1 hd
    · exact hc
    · exact List.mem_takeWhile_imp hd
  have hend : (cs.dropWhile isNameChar).head?.any isNameChar = false := by
    have hhead := List.head?_dropWhile_not isNameChar cs
    cases hd : (cs.dropWhile isNameChar).head? with
    | none => rfl
    | some d =>
      rw [hd] at hhead
      simpa using hhead
  have hread := Reads.name (List.cons_ne_nil _ _) hchars hend h
  rwa [List.cons_append, List.takeWhile_append_dropWhile] at hread

/-- What a dollar sign belongs to is decided by the character behind it. -/
theorem exists_reads_dollar {cs : List Char}
    (hrest : ∀ rest : List Char, rest.length ≤ cs.length → ∃ pieces, Reads rest pieces) :
    ∃ pieces, Reads ('$' :: cs) pieces := by
  cases cs with
  | nil => exact ⟨_, .lone rfl .nil⟩
  | cons c cs =>
    obtain ⟨pieces, hpieces⟩ := hrest cs (Nat.le_succ _)
    by_cases hescape : c = '$'
    · subst hescape
      exact ⟨_, .escape hpieces⟩
    by_cases hbrace : c = '\x7b'
    · subst hbrace
      by_cases hclosed : '\x7d' ∈ cs
      · obtain ⟨body, after, rfl, hbody⟩ := List.eq_append_cons_of_mem hclosed
        obtain ⟨pieces, hpieces⟩ := hrest after (by simp; omega)
        exact ⟨_, .braces hbody hpieces⟩
      · exact ⟨_, .unclosed hclosed hpieces⟩
    by_cases hname : isNameChar c = true
    · have hshorter := (List.dropWhile_suffix isNameChar (l := cs)).length_le
      obtain ⟨pieces, hpieces⟩ := hrest (cs.dropWhile isNameChar) (Nat.le_succ_of_le hshorter)
      exact ⟨_, reads_name hname hpieces⟩
    · obtain ⟨pieces, hpieces⟩ := hrest (c :: cs) (Nat.le_refl _)
      exact ⟨_, .lone (by simp [hescape, hbrace, hname]) hpieces⟩

theorem exists_reads (cs : List Char) : ∃ pieces, Reads cs pieces := by
  induction hn : cs.length using Nat.strong_induction_on generalizing cs with
  | h n ih =>
    subst hn
    cases cs with
    | nil => exact ⟨_, .nil⟩
    | cons c cs =>
      by_cases hc : c = '$'
      · subst hc
        exact exists_reads_dollar fun rest hle => ih _ (Nat.lt_succ_of_le hle) rest rfl
      · obtain ⟨pieces, hpieces⟩ := ih _ (Nat.lt_succ_self _) cs rfl
        exact ⟨_, .plain hc hpieces⟩

/-! ## Putting in the values -/

theorem values?_map_plain (env : Environment) (cs : List Char) :
    values? env (cs.map .plain) = some cs := by
  induction cs with
  | nil => rfl
  | cons c cs ih =>
    rw [List.map_cons, values?, ih]
    rfl

theorem substitute?_name (fuel : Nat) {name : List Char} (hname : name ≠ [])
    (hchars : ∀ c ∈ name, isNameChar c = true) (hend : cs.head?.any isNameChar = false) :
    substitute? env (fuel + 1) ('$' :: (name ++ cs))
      = ((Piece.reference name none).value? env).bind fun value =>
          (substitute? env fuel cs).map (value ++ ·) := by
  have hhead {c : Char} {rest : List Char} (heq : name ++ cs = c :: rest) :
      isNameChar c = true := by
    cases name with
    | nil => exact absurd rfl hname
    | cons d name =>
      cases heq
      exact hchars _ List.mem_cons_self
  rw [substitute?.eq_5 env fuel _ (fun _ heq => absurd (hhead heq) (by decide))
    (fun _ heq => absurd (hhead heq) (by decide)),
    (Span.takeWhile_append_of_head? hchars hend).1, List.drop_left,
    if_neg (by simpa using hname), Piece.value?]
  cases env.lookup? (String.ofList name) with
  | none => rfl
  | some value => rfl

theorem substitute?_braces (fuel : Nat) {body : List Char} (hbody : '\x7d' ∉ body) :
    substitute? env (fuel + 1) ('$' :: '\x7b' :: (body ++ '\x7d' :: cs))
      = ((Piece.reference (splitDefault [] body).1 (splitDefault [] body).2).value? env).bind
          fun value => (substitute? env fuel cs).map (value ++ ·) := by
  have htake : (body ++ '\x7d' :: cs).takeWhile (· != '\x7d') = body := by
    refine (Span.takeWhile_append_of_head? (fun c hc => ?_) rfl).1
    exact bne_iff_ne.2 (ne_of_mem_of_not_mem hc hbody)
  rw [substitute?.eq_3, htake, List.drop_left, Piece.value?]
  dsimp only
  cases env.lookup? (String.ofList (splitDefault [] body).1) with
  | none =>
    cases (splitDefault [] body).2 with
    | none => rfl
    | some default => rfl
  | some value => rfl

theorem substitute?_unclosed (fuel : Nat) (hopen : '\x7d' ∉ cs) :
    substitute? env (fuel + 1) ('$' :: '\x7b' :: cs)
      = (substitute? env fuel cs).map fun out => '$' :: '\x7b' :: out := by
  have htake : cs.takeWhile (· != '\x7d') = cs := by
    refine List.takeWhile_eq_self_iff.2 fun c hc => ?_
    exact bne_iff_ne.2 (ne_of_mem_of_not_mem hc hopen)
  rw [substitute?.eq_3, htake, List.drop_length]

theorem substitute?_lone (fuel : Nat)
    (hend : cs.head?.any (fun c => c == '$' || c == '\x7b' || isNameChar c) = false) :
    substitute? env (fuel + 1) ('$' :: cs) = (substitute? env fuel cs).map ('$' :: ·) := by
  cases cs with
  | nil => rfl
  | cons c cs =>
    simp only [List.head?_cons, Option.any_some, Bool.or_eq_false_iff, beq_eq_false_iff_ne] at hend
    obtain ⟨⟨hescape, hbrace⟩, hname⟩ := hend
    rw [substitute?.eq_5 env fuel _ (fun _ heq => hbrace (List.cons.inj heq).1)
      (fun _ heq => hescape (List.cons.inj heq).1), List.takeWhile_cons_of_neg (by simp [hname])]
    rfl

/-- Each piece takes up a character at least, so the fuel lasts. -/
theorem substitute?_of_reads (h : Reads cs pieces) {fuel : Nat} (hfuel : cs.length < fuel) :
    substitute? env fuel cs = values? env pieces := by
  induction fuel generalizing cs pieces with
  | zero => exact absurd hfuel (Nat.not_lt_zero _)
  | succ fuel ih =>
    cases h with
    | nil => rfl
    | @plain c cs pieces hc h =>
      rw [substitute?.eq_6 env fuel c cs hc, ih h (Nat.lt_of_succ_lt_succ hfuel)]
      rfl
    | @escape cs pieces h =>
      have hrest : cs.length < fuel := by
        simp only [List.length_cons] at hfuel
        omega
      rw [substitute?.eq_4, ih h hrest]
      rfl
    | @name name cs pieces hname hchars hend h =>
      have hrest : cs.length < fuel := by
        simp only [List.length_cons, List.length_append] at hfuel
        omega
      rw [substitute?_name fuel hname hchars hend, ih h hrest]
      rfl
    | @braces body cs pieces hbody h =>
      have hrest : cs.length < fuel := by
        simp only [List.length_cons, List.length_append] at hfuel
        omega
      rw [substitute?_braces fuel hbody, ih h hrest]
      rfl
    | @unclosed cs pieces hopen h =>
      have hrest : cs.length < fuel := by
        simp only [List.length_cons] at hfuel
        omega
      rw [substitute?_unclosed fuel hopen, ih h hrest]
      cases hout : values? env pieces with
      | none => simp [values?, Piece.value?, hout]
      | some out => simp [values?, Piece.value?, hout]
    | @lone cs pieces hend h =>
      rw [substitute?_lone fuel hend, ih h (Nat.lt_of_succ_lt_succ hfuel)]
      rfl

/-- What is not in any of the values does not come out. -/
theorem notMem_of_values? {c : Char} {out : List Char}
    (hvalues : ∀ piece ∈ pieces, ∀ value, piece.value? env = some value → c ∉ value)
    (h : values? env pieces = some out) : c ∉ out := by
  induction pieces generalizing out with
  | nil =>
    cases h
    exact List.not_mem_nil
  | cons piece pieces ih =>
    rw [List.forall_mem_cons] at hvalues
    simp only [values?, Option.bind_eq_some_iff, Option.map_eq_some_iff] at h
    obtain ⟨value, hvalue, rest, hrest, rfl⟩ := h
    rw [List.mem_append, not_or]
    exact ⟨hvalues.1 value hvalue, ih hvalues.2 hrest⟩

/-! ## The home directory -/

theorem notMem_tilde {c : Char} (hhome : ∀ home, env.home? = some home → c ∉ home.toList)
    (hcs : c ∉ cs) : c ∉ tilde env cs := by
  unfold tilde
  split
  · next home h => exact hhome home h
  · next rest home h =>
    rw [List.mem_cons, not_or] at hcs
    rw [List.mem_append, not_or]
    exact ⟨hhome home h, hcs.2⟩
  · exact hcs

theorem tilde_of_head? (h : cs.head? ≠ some '~') : tilde env cs = cs := by
  unfold tilde
  split
  · exact absurd rfl h
  · exact absurd rfl h
  · rfl

/-! ## Paths -/

theorem path?_of_reads (h : Reads path.toList pieces) :
    path? env path = (values? env pieces).map fun out =>
      String.ofList
        (if path.toList.head? ≠ some '~' ∧ out.head? = some '~' then out else tilde env out) := by
  rw [path?]
  dsimp only
  rw [substitute?_of_reads h (Nat.lt_succ_self _)]
  cases values? env pieces with
  | none => rfl
  | some out => simp

theorem path?_of_plain (hdollar : '$' ∉ path.toList) :
    path? env path = some (String.ofList (tilde env path.toList)) := by
  rw [path?_of_reads (reads_map_plain hdollar), values?_map_plain, Option.map_some,
    if_neg fun h => h.1 h.2]

end Expand

namespace Config

open Expand

variable {env : Environment} {path : String} {pieces : List Piece}

theorem expandPath_of_none (h : path? env path = none) : expandPath env path = path := by
  rw [expandPath, h]
  rfl

theorem notMem_expandPath (hreads : Reads path.toList pieces) (hsome : path? env path ≠ none)
    {c : Char} (hvalues : ∀ piece ∈ pieces, ∀ value, piece.value? env = some value → c ∉ value)
    (hhome : ∀ home, env.home? = some home → c ∉ home.toList) :
    c ∉ (expandPath env path).toList := by
  rw [path?_of_reads hreads] at hsome
  rw [expandPath, path?_of_reads hreads]
  cases hout : values? env pieces with
  | none =>
    rw [hout] at hsome
    exact absurd rfl hsome
  | some out =>
    have hmem : c ∉ out := notMem_of_values? hvalues hout
    rw [Option.map_some, Option.getD_some, String.toList_ofList]
    split
    · exact hmem
    · exact notMem_tilde hhome hmem

/-- A path that comes out without dollar signs comes out the same when it is expanded once more, but
for a tilde in front of it. -/
theorem expandPath_again (hdollar : '$' ∉ (expandPath env path).toList) :
    expandPath env (expandPath env path)
      = String.ofList (tilde env (expandPath env path).toList) := by
  rw [expandPath, path?_of_plain hdollar]
  rfl

end Config
end Comfort
