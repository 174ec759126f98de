import Mathlib.Data.List.TakeWhile
import Mathlib.Logic.Function.Iterate
import Comfort.Proofs.Files.Places
import Comfort.Proofs.Pointer

/-!
A file beside another.

A path with another extension leads to another place than the path itself, so writing a file there
leaves the file alone that the path leads to: `ne_of_withExtension`.
-/

namespace Comfort
namespace Path

/-- Only the path of the root ends with the root. -/
theorem parts_of_getLast? {s : String} {p : Path} (h : ofString? s = some p)
    (hlast : p.parts.getLast? = some "/") : p.parts = ["/"] := by
  have hslash : "/" ∉ (Text.parts '/' s.toList).filter (· != ".") := by
    intro hmem
    exact Text.not_mem_of_mem_parts (List.mem_filter.1 hmem).1 (by decide)
  unfold ofString? at h
  dsimp only at h
  split at h
  · cases h
  · cases h
    dsimp only at hlast ⊢
    split at hlast
    · next habsolute =>
      rw [if_pos habsolute]
      rw [List.getLast?_cons] at hlast
      cases hparts : ((Text.parts '/' s.toList).filter (· != ".")).getLast? with
      | none => rw [List.getLast?_eq_none_iff.1 hparts]
      | some last =>
        rw [hparts] at hlast
        cases hlast
        exact absurd (List.mem_of_getLast? hparts) hslash
    · exact absurd (List.mem_of_getLast? hlast) hslash

/-- An extension is put to the last name of a path, unless the path ends with no name. -/
theorem withExtension_cases (p : Path) (extension : String) :
    (p.withExtension extension = p ∧
      (p.parts = [] ∨ p.parts.getLast? = some ".." ∨ p.parts.getLast? = some "/")) ∨
    ∃ parts name, p.parts = parts ++ [name] ∧ name ≠ ".." ∧ (p.withExtension extension).parts
      = parts ++ [String.ofList (stem name.toList ++ '.' :: extension.toList)] := by
  unfold withExtension
  split
  · next hnone => exact .inl ⟨rfl, .inl (List.getLast?_eq_none_iff.1 hnone)⟩
  · next name hname =>
    split
    · next hspecial =>
      simp only [Bool.or_eq_true, beq_iff_eq] at hspecial
      rcases hspecial with rfl | rfl
      · exact .inl ⟨rfl, .inr (.inl hname)⟩
      · exact .inl ⟨rfl, .inr (.inr hname)⟩
    · next hspecial =>
      simp only [Bool.or_eq_true, beq_iff_eq, not_or] at hspecial
      exact .inr ⟨_, name, (List.dropLast_append_getLast? name hname).symm, hspecial.1, rfl⟩

theorem parentParts_withExtension (p : Path) (extension : String) :
    (p.withExtension extension).parentParts = p.parentParts := by
  rcases withExtension_cases p extension with ⟨hsame, -⟩ | ⟨parts, name, hparts, -, hnew⟩
  · rw [hsame]
  · rw [parentParts, parentParts, hparts, hnew, List.dropLast_concat, List.dropLast_concat]

/-- With another extension that has a dot itself, a name is another name. -/
theorem stem_append_ne (name : List Char) {extension : List Char} (hdot : '.' ∈ extension) :
    stem name ++ '.' :: extension ≠ name := by
  intro h
  unfold stem at h
  dsimp only at h
  have hsplit := List.takeWhile_append_dropWhile (p := (· != '.')) (l := name.reverse)
  split at h
  · next c before hrest =>
    split at h
    · have hlength := congrArg List.length h
      rw [List.length_append, List.length_cons] at hlength
      omega
    · have hc : c = '.' := by
        have hhead := List.head?_dropWhile_not (· != '.') name.reverse
        rw [hrest] at hhead
        simpa using hhead
      rw [hrest, hc] at hsplit
      have hname : name
          = before.reverse ++ '.' :: (name.reverse.takeWhile (· != '.')).reverse := by
        have hreverse := congrArg List.reverse hsplit
        simpa using hreverse.symm
      have hextension : extension = (name.reverse.takeWhile (· != '.')).reverse := by
        have hcancel := List.append_cancel_left (h.trans hname)
        exact (List.cons.inj hcancel).2
      rw [hextension, List.mem_reverse] at hdot
      simpa using List.mem_takeWhile_imp hdot
  · have hlength := congrArg List.length h
    rw [List.length_append, List.length_cons] at hlength
    omega

end Path

namespace Files

variable {fs : Files} {here place a b : List String} {path : Path}

/-! ## The directories above a place -/

theorem isDirectory_of_isBase (h : isBase place = true) : fs.isDirectory place = true := by
  rw [isDirectory, node?, if_pos h]

/-- All places above are directories. -/
def Rooted (fs : Files) (place : List String) : Prop :=
  ∀ n, fs.isDirectory (above^[n + 1] place) = true

theorem isBase_above (h : isBase place = true) : isBase (above place) = true := by
  by_cases hroot : place = ["/"]
  · rw [above, if_pos hroot]
    exact h
  · rw [above, if_neg hroot, if_pos h]
    simp only [isBase, hroot, decide_false, Bool.false_or] at h
    simp [isBase, h]

theorem rooted_of_isBase (h : isBase place = true) : fs.Rooted place := by
  intro n
  have hbase : ∀ k, isBase (above^[k] place) = true := by
    intro k
    induction k with
    | zero => exact h
    | succ k ih =>
      rw [Function.iterate_succ_apply']
      exact isBase_above ih
  exact isDirectory_of_isBase (hbase (n + 1))

theorem Rooted.above (h : fs.Rooted place) : fs.Rooted (Files.above place) := by
  intro n
  rw [← Function.iterate_succ_apply]
  exact h (n + 1)

theorem Rooted.next (h : fs.Rooted here) (hdirectory : fs.isDirectory here = true) (part : String) :
    fs.Rooted (Files.next here part) := by
  unfold Files.next
  split
  · exact h.above
  · next hpart =>
    by_cases hbase : isBase (here ++ [part]) = true
    · exact rooted_of_isBase hbase
    · have hroot : here ++ [part] ≠ ["/"] := by
        intro hroot
        rw [hroot] at hbase
        exact hbase rfl
      have habove : Files.above (here ++ [part]) = here := by
        rw [Files.above, if_neg hroot, if_neg hbase, List.dropLast_concat]
      intro n
      rw [Function.iterate_succ_apply, habove]
      cases n with
      | zero => exact hdirectory
      | succ n => exact h n

/-- A path is followed from directory to directory, so all places above the one it leads to are
directories. -/
theorem Rooted.follow? {parts : List String} (h : fs.Rooted here)
    (hfollow : fs.follow? here parts = some place) : fs.Rooted place := by
  induction parts generalizing here with
  | nil =>
    cases hfollow
    exact h
  | cons part rest ih =>
    obtain ⟨hdirectory, hrest⟩ := isDirectory_of_follow? hfollow
    exact ih (h.next hdirectory part) hrest

theorem follow?_append_singleton {parts : List String} {part : String} :
    fs.follow? here (parts ++ [part]) = some place ↔ ∃ mid, fs.follow? here parts = some mid ∧
      fs.isDirectory mid = true ∧ Path.isPart part = true ∧ next mid part = place := by
  induction parts generalizing here with
  | nil => simp [follow?, and_assoc]
  | cons first rest ih =>
    rw [List.cons_append, follow?, follow?]
    split
    · exact ih
    · simp

/-- A path that leads to where a file may stand ends with the name of that file. -/
theorem exists_of_filePlace? (h : fs.filePlace? path = some place) : path.parts ≠ ["/"] ∧
    ∃ parts name mid, path.parts = parts ++ [name] ∧ name ≠ ".." ∧
      fs.follow? [] parts = some mid ∧ place = mid ++ [name] := by
  obtain ⟨hplace, hfile⟩ := filePlace?_eq_some h
  have hfollow := follow?_of_place? hplace
  have hbase : isBase place = false := isBase_of_not_isDirectory hfile
  constructor
  · intro hroot
    rw [hroot] at hfollow
    obtain ⟨-, hrest⟩ := isDirectory_of_follow? hfollow
    cases hrest
    cases hbase
  · rcases List.eq_nil_or_concat' path.parts with hnil | ⟨parts, name, hparts⟩
    · rw [hnil] at hfollow
      cases hfollow
      cases hbase
    · rw [hparts] at hfollow
      obtain ⟨mid, hmid, -, -, rfl⟩ := follow?_append_singleton.1 hfollow
      have hname : name ≠ ".." := by
        rintro rfl
        have hrooted : fs.Rooted mid := (rooted_of_isBase rfl).follow? hmid
        have habove : fs.isDirectory (next mid "..") = true := hrooted 0
        rw [habove] at hfile
        cases hfile
      exact ⟨parts, name, mid, hparts, hname, hmid, by rw [next, if_neg hname]⟩

/-- Where a path with another extension leads to a file, the path itself leads elsewhere. -/
theorem ne_of_withExtension {extension : String} (hdot : '.' ∈ extension.toList)
    (hroot : path.parts.getLast? = some "/" → path.parts = ["/"])
    (ha : fs.filePlace? (path.withExtension extension) = some a) (hb : fs.place? path = some b) :
    a ≠ b := by
  obtain ⟨hnotRoot, parts, name, mid, hparts, hname, hmid, rfl⟩ := exists_of_filePlace? ha
  rcases Path.withExtension_cases path extension with
    ⟨hsame, hend⟩ | ⟨init, last, hpath, hlast, hnew⟩
  · rw [hsame] at hnotRoot hparts
    rcases hend with hnil | hup | hslash
    · rw [hnil] at hparts
      exact absurd hparts.symm (List.append_ne_nil_of_right_ne_nil _ (List.cons_ne_nil _ _))
    · rw [hparts, List.getLast?_concat] at hup
      exact absurd (Option.some.inj hup) hname
    · exact absurd (hroot hslash) hnotRoot
  · obtain ⟨rfl, hnewName⟩ := List.append_inj' (hnew.symm.trans hparts) rfl
    have hfollow := follow?_of_place? hb
    rw [hpath] at hfollow
    obtain ⟨mid', hmid', -, -, rfl⟩ := follow?_append_singleton.1 hfollow
    rw [hmid] at hmid'
    cases hmid'
    rw [next, if_neg hlast]
    intro hplaces
    obtain ⟨-, hlastName⟩ := List.append_inj' hplaces rfl
    have hsame : String.ofList (Path.stem last.toList ++ '.' :: extension.toList) = last :=
      (List.cons.inj hnewName).1.trans (List.cons.inj hlastName).1
    have hchars := congrArg String.toList hsame
    rw [String.toList_ofList] at hchars
    exact Path.stem_append_ne last.toList hdot hchars

end Files
end Comfort
