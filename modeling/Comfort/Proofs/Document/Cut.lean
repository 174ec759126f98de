import Comfort.Proofs.Line.Annotate

/-!
Texts and their raw lines.

A list of raw lines is the cut of one text only: every line of it ends in its only line feed, except
that the last one may have none.  Writing an id behind what a line says leaves this as it is, so a
text can be put together again from lines that were annotated one by one.
-/

namespace Comfort
namespace Document

/-- The line with the number `index` that begins at `start`, from its raw line. -/
def lineAt (index start : Nat) (raw : List Char) : SourceLine :=
  { index := index
    range := { start := start, stop := start + Text.byteLength raw }
    text := String.ofList (Text.dropEndWhile isTerminator raw) }

theorem locate_cons (index start : Nat) (raw : List Char) (rest : List (List Char)) :
    locate index start (raw :: rest)
      = lineAt index start raw :: locate (index + 1) (start + Text.byteLength raw) rest := rfl

theorem length_locate (index start : Nat) (raws : List (List Char)) :
    (locate index start raws).length = raws.length := by
  induction raws generalizing index start with
  | nil => rfl
  | cons raw rest ih => rw [locate_cons, List.length_cons, List.length_cons, ih]

/-- Lists of raw lines that are the cut of a text. -/
inductive Cut : List (List Char) → Prop where
  | nil : Cut []
  | last {raw : List Char} (hne : raw ≠ []) (hn : '\n' ∉ raw) : Cut [raw]
  | cons {body : List Char} {rest : List (List Char)} (hn : '\n' ∉ body) (h : Cut rest) :
      Cut ((body ++ ['\n']) :: rest)

theorem cut_rawLines (cs : List Char) : Cut (rawLines cs) := by
  induction cs with
  | nil => exact .nil
  | cons c cs ih =>
    rw [rawLines]
    by_cases hc : c = '\n'
    · subst hc
      rw [if_pos rfl]
      exact .cons List.not_mem_nil ih
    · rw [if_neg hc]
      have hne : '\n' ≠ c := fun h => hc h.symm
      cases hr : rawLines cs with
      | nil => exact .last (List.cons_ne_nil _ _) (by simp [hne])
      | cons line rest =>
        rw [hr] at ih
        cases ih with
        | last hline hn => exact .last (List.cons_ne_nil _ _) (by simp [hne, hn])
        | @cons body _ hn h =>
          have hbody : '\n' ∉ c :: body := by
            rw [List.mem_cons, not_or]
            exact ⟨hne, hn⟩
          exact .cons hbody h

theorem rawLines_append_newline {body : List Char} (hn : '\n' ∉ body) (cs : List Char) :
    rawLines (body ++ '\n' :: cs) = (body ++ ['\n']) :: rawLines cs := by
  induction body with
  | nil => rw [List.nil_append, rawLines, if_pos rfl, List.nil_append]
  | cons c body ih =>
    have hc : c ≠ '\n' := fun hc => hn (hc ▸ List.mem_cons_self)
    have hb : '\n' ∉ body := fun hm => hn (List.mem_cons_of_mem c hm)
    rw [List.cons_append, rawLines, if_neg hc, ih hb]
    rfl

theorem rawLines_of_not_mem {raw : List Char} (hne : raw ≠ []) (hn : '\n' ∉ raw) :
    rawLines raw = [raw] := by
  induction raw with
  | nil => exact absurd rfl hne
  | cons c raw ih =>
    have hc : c ≠ '\n' := fun hc => hn (hc ▸ List.mem_cons_self)
    have hr : '\n' ∉ raw := fun hm => hn (List.mem_cons_of_mem c hm)
    rw [rawLines, if_neg hc]
    by_cases hnil : raw = []
    · rw [hnil]
      rfl
    · rw [ih hnil hr]

/-- A text is cut into the lines that it was put together from. -/
theorem rawLines_flatten {raws : List (List Char)} (h : Cut raws) : rawLines raws.flatten = raws := by
  induction h with
  | nil => rfl
  | last hne hn =>
    rw [List.flatten_cons, List.flatten_nil, List.append_nil]
    exact rawLines_of_not_mem hne hn
  | cons hn h ih =>
    rw [List.flatten_cons, List.append_assoc, List.singleton_append, rawLines_append_newline hn, ih]

theorem Cut.tail {raw : List Char} {rest : List (List Char)} (h : Cut (raw :: rest)) : Cut rest := by
  cases h with
  | last => exact .nil
  | cons _ h => exact h

/-- The lines after the first one can be replaced by as many other ones. -/
theorem Cut.replace_tail {raw : List Char} {rest rest' : List (List Char)} (h : Cut (raw :: rest))
    (hrest : Cut rest') (hlength : rest'.length = rest.length) : Cut (raw :: rest') := by
  cases h with
  | last hne hn =>
    rw [List.length_eq_zero_iff.1 hlength]
    exact .last hne hn
  | cons hn _ => exact .cons hn hrest

/-! ## Annotated lines -/

open Text (IsId Solid annotate trailing)

theorem trailing_append_newline (body : List Char) :
    trailing (body ++ ['\n']) = trailing body ++ ['\n'] :=
  List.rtakeWhile_concat_pos Text.isBlank body '\n' rfl

theorem annotate_append_newline (id body : List Char) :
    annotate id (body ++ ['\n']) = annotate id body ++ ['\n'] := by
  have hb : ∀ c ∈ ['\n'], Text.isBlank c = true := fun c hc => by
    rw [List.mem_singleton.1 hc]
    rfl
  rw [annotate, Text.trimEnd_append_of_blank hb, trailing_append_newline, annotate]
  simp

theorem newline_not_mem_annotate {id cs : List Char} (hid : IsId id) (h : '\n' ∉ cs) :
    '\n' ∉ annotate id cs := by
  have hi : '\n' ∉ id := hid.not_mem (by decide)
  have hsplit := Text.trimEnd_append_trailing cs
  rw [← hsplit, List.mem_append] at h
  have hs : '\n' ≠ ' ' := by decide
  have hh : '\n' ≠ '#' := by decide
  have hstart : '\n' ∉ Text.trimEnd cs := fun hm => h (.inl hm)
  have hend : '\n' ∉ trailing cs := fun hm => h (.inr hm)
  simp [annotate, hi, hs, hh, hstart, hend]

/-- The first of the lines with an id behind it. -/
theorem Cut.annotate {id raw : List Char} {rest : List (List Char)} (hid : IsId id)
    (h : Cut (raw :: rest)) : Cut (annotate id raw :: rest) := by
  generalize hraws : raw :: rest = raws at h
  cases h with
  | nil => cases hraws
  | last hne hn =>
    cases hraws
    refine .last ?_ (newline_not_mem_annotate hid hn)
    simp [Text.annotate]
  | cons hn h =>
    cases hraws
    rw [annotate_append_newline]
    exact .cons (newline_not_mem_annotate hid hn) h

theorem isBlank_of_isTerminator {c : Char} (h : isTerminator c = true) : Text.isBlank c = true := by
  simp only [isTerminator, Bool.or_eq_true, beq_iff_eq] at h
  rcases h with rfl | rfl <;> rfl

theorem dropTerminator_append_of_solid {a : List Char} (ha : Solid a) (b : List Char) :
    Text.dropEndWhile isTerminator (a ++ b) = a ++ Text.dropEndWhile isTerminator b := by
  obtain ⟨init, c, rfl, hc⟩ := ha
  have ht : isTerminator c = false := by
    cases hterm : isTerminator c with
    | false => rfl
    | true =>
      rw [isBlank_of_isTerminator hterm] at hc
      cases hc
  rw [List.append_assoc, List.append_assoc]
  exact Text.dropEndWhile_append_of_last ht

/-- Leaving out the terminator of a line and writing an id into it can be done in either order. -/
theorem annotated_of_raw {id raw : List Char} (hid : IsId id) (hr : Text.allBlank raw = false)
    {line line' : SourceLine}
    (hl : line.text = String.ofList (Text.dropEndWhile isTerminator raw))
    (hl' : line'.text = String.ofList (Text.dropEndWhile isTerminator (annotate id raw))) :
    LineForm.Annotated id line.span line'.span := by
  have hsolid : Solid (Text.trimEnd raw) := Text.solid_trimEnd hr
  have hnote : Solid (Text.trimEnd raw ++ ' ' :: '#' :: id) :=
    (hid.solid.append [' ', '#']).append (Text.trimEnd raw)
  refine ⟨Text.trimEnd raw, Text.dropEndWhile isTerminator (trailing raw), hsolid, ?_, ?_, ?_⟩
  · intro c hc
    exact Text.isBlank_of_mem_trailing (Text.mem_of_mem_dropEndWhile hc)
  · show line.text.toList = _
    rw [hl, String.toList_ofList, ← dropTerminator_append_of_solid hsolid,
      Text.trimEnd_append_trailing]
  · show line'.text.toList = _
    rw [hl', String.toList_ofList, annotate, dropTerminator_append_of_solid hnote]

/-- What a line says ends where its raw line, without the blanks at its end, does. -/
theorem trimEnd_text {raw : List Char} {line : SourceLine} (hr : Text.allBlank raw = false)
    (hl : line.text = String.ofList (Text.dropEndWhile isTerminator raw)) :
    Text.trimEnd line.text.toList = Text.trimEnd raw := by
  have hsolid : Solid (Text.trimEnd raw) := Text.solid_trimEnd hr
  have hblank : ∀ c ∈ Text.dropEndWhile isTerminator (trailing raw), Text.isBlank c = true :=
    fun c hc => Text.isBlank_of_mem_trailing (Text.mem_of_mem_dropEndWhile hc)
  have htext : Text.dropEndWhile isTerminator raw
      = Text.trimEnd raw ++ Text.dropEndWhile isTerminator (trailing raw) := by
    rw [← dropTerminator_append_of_solid hsolid, Text.trimEnd_append_trailing]
  rw [hl, String.toList_ofList, htext, Text.trimEnd_append_of_blank hblank]
  exact hsolid.trimEnd

end Document
end Comfort
