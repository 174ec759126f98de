import Mathlib.Data.List.DropRight
import Comfort.Proofs.Json.Scalars

/-!
Values are read back as they were written.

The pretty form of a value is cut into parts whose value is the value itself, at every nesting level
and with whatever follows it left over.  A shape under which nothing of the value is passed over
reads the same value.
-/

namespace Comfort
namespace Json

/-! ## Numbers that are read back -/

mutual

/-- Values whose numbers are whole and within the limits of whole numbers. -/
def WholeNumbers : Json → Prop
  | num (.whole n) => -negativeLimit ≤ n ∧ n < wholeLimit
  | num (.float _) => False
  | arr items => WholeNumbersItems items
  | obj fields => WholeNumbersFields fields
  | _ => True
termination_by structural j => j

def WholeNumbersItems : List Json → Prop
  | [] => True
  | j :: rest => j.WholeNumbers ∧ WholeNumbersItems rest
termination_by structural items => items

def WholeNumbersFields : List (String × Json) → Prop
  | [] => True
  | (_, j) :: rest => j.WholeNumbers ∧ WholeNumbersFields rest
termination_by structural fields => fields

end

theorem wholeNumbersItems_iff {items : List Json} :
    WholeNumbersItems items ↔ ∀ j ∈ items, j.WholeNumbers := by
  induction items with
  | nil => simp [WholeNumbersItems]
  | cons j rest ih => simp [WholeNumbersItems, ih]

/-! ## Blanks -/

theorem skipSpace_cons {c : Char} (h : isSpace c = false) (cs : List Char) :
    skipSpace (c :: cs) = c :: cs :=
  List.dropWhile_cons_of_neg (by simp [h])

theorem skipSpace_space (cs : List Char) : skipSpace (' ' :: cs) = skipSpace cs := rfl

@[simp] theorem skipSpace_skipSpace (cs : List Char) : skipSpace (skipSpace cs) = skipSpace cs :=
  List.dropWhile_idempotent isSpace cs

theorem skipSpace_newLine (level : Nat) (cs : List Char) :
    skipSpace (newLine level ++ cs) = skipSpace cs := by
  have hspace : isSpace '\n' = true := rfl
  unfold skipSpace newLine
  rw [List.cons_append, List.dropWhile_cons_of_pos hspace,
    List.dropWhile_append_of_pos fun c hc => by rw [List.eq_of_mem_replicate hc]; rfl]

theorem endsNumber_newLine (level : Nat) (cs : List Char) : EndsNumber (newLine level ++ cs) :=
  endsNumber_newline _

theorem Raw.read?_skipSpace (fuel : Nat) (cs : List Char) :
    Raw.read? fuel (skipSpace cs) = Raw.read? fuel cs := by
  cases fuel with
  | zero => rfl
  | succ fuel => rw [Raw.read?, Raw.read?, skipSpace_skipSpace]

theorem Raw.items?_skipSpace (fuel : Nat) (cs : List Char) :
    Raw.items? fuel (skipSpace cs) = Raw.items? fuel cs := by
  cases fuel with
  | zero => rfl
  | succ fuel => rw [Raw.items?, Raw.items?, Raw.read?_skipSpace]

theorem Raw.fields?_skipSpace (fuel : Nat) (cs : List Char) :
    Raw.fields? fuel (skipSpace cs) = Raw.fields? fuel cs := by
  cases fuel with
  | zero => rfl
  | succ fuel => rw [Raw.fields?, Raw.fields?, skipSpace_skipSpace]

/-! ## How a written value begins -/

theorem exists_intText_eq (n : Int) :
    ∃ c cs, intText n = c :: cs ∧ (c = '-' ∨ c.isDigit = true) := by
  cases n with
  | ofNat n =>
    obtain ⟨d, ds, hn⟩ := List.exists_cons_of_ne_nil (natText_ne_nil n)
    exact ⟨d, ds, hn, .inr (isDigit_of_mem_natText (hn ▸ List.mem_cons_self))⟩
  | negSucc n => exact ⟨'-', natText (n + 1), rfl, .inl rfl⟩

theorem ne_of_isDigit {c : Char} (h : c.isDigit = true) (d : Char) (hd : d.isDigit = false) :
    c ≠ d := by
  rintro rfl
  rw [h] at hd
  cases hd

/-- A written value begins with neither a blank nor a closing bracket. -/
theorem exists_prettyAt_eq {j : Json} (hj : j.WholeNumbers) (level : Nat) :
    ∃ c cs, prettyAt level j = c :: cs ∧ isSpace c = false ∧ c ≠ ']' := by
  match j with
  | null => exact ⟨_, _, rfl, by decide, by decide⟩
  | bool true => exact ⟨_, _, rfl, by decide, by decide⟩
  | bool false => exact ⟨_, _, rfl, by decide, by decide⟩
  | str s => exact ⟨_, _, rfl, by decide, by decide⟩
  | arr [] => exact ⟨_, _, rfl, by decide, by decide⟩
  | arr (_ :: _) => exact ⟨_, _, rfl, by decide, by decide⟩
  | obj [] => exact ⟨_, _, rfl, by decide, by decide⟩
  | obj (_ :: _) => exact ⟨_, _, rfl, by decide, by decide⟩
  | num (.float f) => exact hj.elim
  | num (.whole n) =>
    obtain ⟨c, cs, hn, hc⟩ := exists_intText_eq n
    refine ⟨c, cs, hn, ?_⟩
    rcases hc with rfl | hc
    · decide
    · have hspace : isSpace c = false := by
        simp [isSpace, ne_of_isDigit hc ' ' rfl, ne_of_isDigit hc '\t' rfl,
          ne_of_isDigit hc '\n' rfl, ne_of_isDigit hc '\r' rfl]
      exact ⟨hspace, ne_of_isDigit hc ']' rfl⟩

theorem skipSpace_prettyAt {j : Json} (hj : j.WholeNumbers) (level : Nat) (rest : List Char) :
    skipSpace (prettyAt level j ++ rest) = prettyAt level j ++ rest := by
  obtain ⟨c, cs, hj, hc, _⟩ := exists_prettyAt_eq hj level
  rw [hj]
  exact skipSpace_cons hc _

theorem head?_skipSpace_ne {j : Json} (hj : j.WholeNumbers) (level : Nat) (cs : List Char) :
    (skipSpace (newLine level ++ (prettyAt level j ++ cs))).head? ≠ some ']' := by
  rw [skipSpace_newLine, skipSpace_prettyAt hj]
  obtain ⟨c, text, hbegin, _, hc⟩ := exists_prettyAt_eq hj level
  rw [hbegin]
  simpa using hc

/-! ## Cutting a written value -/

theorem Raw.read?_number {fuel : Nat} {c : Char} {cs text : List Char}
    (hcs : skipSpace cs = c :: text) (hc : c = '-' ∨ c.isDigit = true) :
    Raw.read? (fuel + 1) cs = (Numeral.read? (c :: text)).map fun (n, rest) => (.num n, rest) := by
  have hne : ∀ d, d ≠ '-' → d.isDigit = false → c ≠ d := by
    intro d hminus hd
    rcases hc with rfl | hc
    · exact hminus.symm
    · exact ne_of_isDigit hc d hd
  rw [Raw.read?, hcs]
  split
  · next h => exact absurd (List.cons.inj h).1 (hne _ (by decide) (by decide))
  · next h => exact absurd (List.cons.inj h).1 (hne _ (by decide) (by decide))
  · next h => exact absurd (List.cons.inj h).1 (hne _ (by decide) (by decide))
  · next h => exact absurd (List.cons.inj h).1 (hne _ (by decide) (by decide))
  · next h => exact absurd (List.cons.inj h).1 (hne _ (by decide) (by decide))
  · next h => exact absurd (List.cons.inj h).1 (hne _ (by decide) (by decide))
  · rfl

theorem read?_intText {n : Int} {fuel : Nat} {cs rest : List Char}
    (hn : (num (.whole n)).WholeNumbers) (hcs : skipSpace cs = intText n ++ rest)
    (hrest : EndsNumber rest) :
    ∃ raw, Raw.read? (fuel + 1) cs = some (raw, rest) ∧
      raw.value? .whole = some (num (.whole n)) := by
  obtain ⟨c, text, htext, hc⟩ := exists_intText_eq n
  refine ⟨.num (.ofInt n), ?_, ?_⟩
  · rw [htext, List.cons_append] at hcs
    rw [Raw.read?_number hcs hc, ← List.cons_append, ← htext, Numeral.read?_intText hrest]
    rfl
  · rw [Raw.value?, Numeral.value?_ofInt hn.1 hn.2]
    rfl

theorem read?_quoted {s : String} {fuel : Nat} {cs rest : List Char}
    (hcs : skipSpace cs = quoted s ++ rest) :
    ∃ raw, Raw.read? (fuel + 1) cs = some (raw, rest) ∧ raw.value? .whole = some (str s) := by
  obtain ⟨us, hus, htext⟩ := quoted?_escaped s rest
  refine ⟨.str us, ?_, ?_⟩
  · rw [quoted, List.cons_append, List.append_assoc] at hcs
    rw [Raw.read?, hcs]
    show (quoted? (s.toList.flatMap escapeChar ++ '"' :: rest)).map _ = _
    rw [hus]
    rfl
  · rw [Raw.value?, htext]
    rfl

theorem Raw.read?_array {fuel : Nat} {cs text : List Char} (hcs : skipSpace cs = '[' :: text)
    (hne : (skipSpace text).head? ≠ some ']') :
    Raw.read? (fuel + 1) cs = (Raw.items? fuel text).map fun (items, rest) => (.arr items, rest) := by
  have hitems := Raw.items?_skipSpace fuel text
  cases htext : skipSpace text with
  | nil =>
    rw [htext] at hitems
    simp only [Raw.read?, hcs, htext, hitems]
  | cons c rest =>
    rw [htext] at hitems hne
    have hc : c ≠ ']' := by simpa using hne
    simp [Raw.read?, hcs, htext, hc, hitems]

theorem Raw.read?_object {fuel : Nat} {cs text : List Char} (hcs : skipSpace cs = '\x7b' :: text)
    (hne : (skipSpace text).head? ≠ some '\x7d') :
    Raw.read? (fuel + 1) cs
      = (Raw.fields? fuel text).map fun (fields, rest) => (.obj fields, rest) := by
  have hfields := Raw.fields?_skipSpace fuel text
  cases htext : skipSpace text with
  | nil =>
    rw [htext] at hfields
    simp only [Raw.read?, hcs, htext, hfields]
  | cons c rest =>
    rw [htext] at hfields hne
    have hc : c ≠ '\x7d' := by simpa using hne
    simp [Raw.read?, hcs, htext, hc, hfields]

theorem Raw.items?_last {fuel : Nat} {raw : Raw} {cs tail rest : List Char}
    (hread : Raw.read? fuel cs = some (raw, tail)) (htail : skipSpace tail = ']' :: rest) :
    Raw.items? (fuel + 1) cs = some ([raw], rest) := by
  simp [Raw.items?, hread, htail]

theorem Raw.items?_next {fuel : Nat} {raw : Raw} {raws : List Raw} {cs text rest : List Char}
    (hread : Raw.read? fuel cs = some (raw, ',' :: text))
    (hmore : Raw.items? fuel text = some (raws, rest)) :
    Raw.items? (fuel + 1) cs = some (raw :: raws, rest) := by
  have hcomma : skipSpace (',' :: text) = ',' :: text := rfl
  simp [Raw.items?, hread, hcomma, hmore]

theorem Raw.fields?_last {fuel : Nat} {key : List StringUnit} {raw : Raw}
    {cs keyText text tail rest : List Char} (hcs : skipSpace cs = '"' :: keyText)
    (hkey : quoted? keyText = some (key, ':' :: text))
    (hread : Raw.read? fuel text = some (raw, tail)) (htail : skipSpace tail = '\x7d' :: rest) :
    Raw.fields? (fuel + 1) cs = some ([(key, raw)], rest) := by
  have hcolon : skipSpace (':' :: text) = ':' :: text := rfl
  simp [Raw.fields?, hcs, hkey, hcolon, hread, htail]

theorem Raw.fields?_next {fuel : Nat} {key : List StringUnit} {raw : Raw}
    {raws : List (List StringUnit × Raw)} {cs keyText text after rest : List Char}
    (hcs : skipSpace cs = '"' :: keyText) (hkey : quoted? keyText = some (key, ':' :: text))
    (hread : Raw.read? fuel text = some (raw, ',' :: after))
    (hmore : Raw.fields? fuel after = some (raws, rest)) :
    Raw.fields? (fuel + 1) cs = some ((key, raw) :: raws, rest) := by
  have hcolon : skipSpace (':' :: text) = ':' :: text := rfl
  have hcomma : skipSpace (',' :: after) = ',' :: after := rfl
  simp [Raw.fields?, hcs, hkey, hcolon, hread, hcomma, hmore]

mutual

/-- A written value is cut off from what follows it.  The text may have blanks in front. -/
theorem read?_prettyAt (j : Json) (hj : j.WholeNumbers) (level fuel : Nat) {cs rest : List Char}
    (hcs : skipSpace cs = prettyAt level j ++ rest) (hrest : EndsNumber rest)
    (hfuel : (prettyAt level j).length ≤ fuel) :
    ∃ raw, Raw.read? fuel cs = some (raw, rest) ∧ raw.value? .whole = some j := by
  obtain ⟨c, text, hbegin, _, _⟩ := exists_prettyAt_eq hj level
  obtain ⟨fuel, rfl⟩ : ∃ n, fuel = n + 1 := by
    rw [hbegin, List.length_cons] at hfuel
    exact ⟨fuel - 1, by omega⟩
  match j with
  | null => exact ⟨.null, by rw [Raw.read?, hcs]; rfl, rfl⟩
  | bool true => exact ⟨.bool true, by rw [Raw.read?, hcs]; rfl, rfl⟩
  | bool false => exact ⟨.bool false, by rw [Raw.read?, hcs]; rfl, rfl⟩
  | num (.float f) => exact hj.elim
  | num (.whole n) => exact read?_intText hj hcs hrest
  | str s => exact read?_quoted hcs
  | arr [] => exact ⟨.arr [], by rw [Raw.read?, hcs]; rfl, rfl⟩
  | obj [] => exact ⟨.obj [], by rw [Raw.read?, hcs]; rfl, rfl⟩
  | arr (j :: items) =>
    have hne : j :: items ≠ [] := List.cons_ne_nil j items
    have htail : skipSpace (newLine level ++ ']' :: rest) = ']' :: rest := skipSpace_newLine _ _
    have hcut : (prettyItems (level + 1) (j :: items)).length ≤ fuel := by
      simp only [prettyAt, prettyItems, List.length_append, List.length_cons] at hfuel ⊢
      omega
    have hitems : ',' :: (newLine (level + 1) ++ (prettyAt (level + 1) j ++
        (prettyItems (level + 1) items ++ (newLine level ++ ']' :: rest))))
        = prettyItems (level + 1) (j :: items) ++ (newLine level ++ ']' :: rest) := by
      simp [prettyItems]
    obtain ⟨raws, hread, hvalues⟩ := items?_prettyItems (j :: items) hj hne (level + 1) fuel hitems
      htail (endsNumber_newLine _ _) hcut
    simp only [prettyAt, List.cons_append, List.append_assoc, List.nil_append] at hcs
    refine ⟨.arr raws, ?_, ?_⟩
    · rw [Raw.read?_array hcs (head?_skipSpace_ne hj.1 _ _), hread]
      rfl
    · rw [Raw.value?, hvalues]
      rfl
  | obj ((key, j) :: fields) =>
    have hne : (key, j) :: fields ≠ [] := List.cons_ne_nil _ _
    have htail : skipSpace (newLine level ++ '\x7d' :: rest) = '\x7d' :: rest :=
      skipSpace_newLine _ _
    have hcut : (prettyFields (level + 1) ((key, j) :: fields)).length ≤ fuel := by
      simp only [prettyAt, prettyFields, List.length_append, List.length_cons] at hfuel ⊢
      omega
    have hfields : ',' :: (newLine (level + 1) ++ (quoted key ++ ':' :: ' ' ::
        (prettyAt (level + 1) j ++ (prettyFields (level + 1) fields ++
          (newLine level ++ '\x7d' :: rest)))))
        = prettyFields (level + 1) ((key, j) :: fields) ++ (newLine level ++ '\x7d' :: rest) := by
      simp [prettyFields]
    obtain ⟨raws, hread, hvalues⟩ := fields?_prettyFields ((key, j) :: fields) hj hne (level + 1) fuel
      hfields htail (endsNumber_newLine _ _) hcut
    simp only [prettyAt, List.cons_append, List.append_assoc, List.nil_append] at hcs
    refine ⟨.obj raws, ?_, ?_⟩
    · have hquote : ∀ text, (skipSpace (newLine (level + 1) ++ (quoted key ++ text))).head?
          ≠ some '\x7d' := by
        intro text
        rw [skipSpace_newLine]
        show some '"' ≠ some '\x7d'
        decide
      rw [Raw.read?_object hcs (hquote _), hread]
      rfl
    · show (Raw.fieldValues? raws).map obj = _
      rw [hvalues]
      rfl
termination_by structural j

/-- Written items are cut up to the closing bracket.  The text begins after the comma that is written
in front of the first of them. -/
theorem items?_prettyItems (items : List Json) (hi : WholeNumbersItems items) (hne : items ≠ [])
    (level fuel : Nat) {cs tail rest : List Char} (hcs : ',' :: cs = prettyItems level items ++ tail)
    (htail : skipSpace tail = ']' :: rest) (hend : EndsNumber tail)
    (hfuel : (prettyItems level items).length ≤ fuel) :
    ∃ raws, Raw.items? fuel cs = some (raws, rest) ∧ Raw.itemValues? .whole raws = some items := by
  match items with
  | [] => exact absurd rfl hne
  | j :: more =>
    have hlength := hfuel
    simp only [prettyItems, newLine, List.length_append, List.length_cons] at hlength
    obtain ⟨fuel, rfl⟩ : ∃ n, fuel = n + 1 := ⟨fuel - 1, by omega⟩
    have htext : cs = newLine level ++ (prettyAt level j ++ (prettyItems level more ++ tail)) := by
      simpa [prettyItems] using hcs
    have hbegin : skipSpace cs = prettyAt level j ++ (prettyItems level more ++ tail) := by
      rw [htext, skipSpace_newLine, skipSpace_prettyAt hi.1]
    match more with
    | [] =>
      obtain ⟨raw, hread, hvalue⟩ := read?_prettyAt j hi.1 level fuel hbegin hend (by omega)
      refine ⟨[raw], Raw.items?_last hread htail, ?_⟩
      rw [Raw.itemValues?, hvalue]
      rfl
    | next :: more =>
      obtain ⟨raw, hread, hvalue⟩ :=
        read?_prettyAt j hi.1 level fuel hbegin (endsNumber_comma _) (by omega)
      obtain ⟨raws, hmore, hvalues⟩ := items?_prettyItems (next :: more) hi.2
        (List.cons_ne_nil next more) level fuel rfl htail hend (by omega)
      refine ⟨raw :: raws, Raw.items?_next hread hmore, ?_⟩
      rw [Raw.itemValues?, hvalue, hvalues]
      rfl
termination_by structural items

/-- Written fields are cut in the same way. -/
theorem fields?_prettyFields (fields : List (String × Json)) (hi : WholeNumbersFields fields)
    (hne : fields ≠ []) (level fuel : Nat) {cs tail rest : List Char}
    (hcs : ',' :: cs = prettyFields level fields ++ tail) (htail : skipSpace tail = '\x7d' :: rest)
    (hend : EndsNumber tail) (hfuel : (prettyFields level fields).length ≤ fuel) :
    ∃ raws, Raw.fields? fuel cs = some (raws, rest) ∧ Raw.fieldValues? raws = some fields := by
  match fields with
  | [] => exact absurd rfl hne
  | (key, j) :: more =>
    have hlength := hfuel
    simp only [prettyFields, newLine, List.length_append, List.length_cons] at hlength
    obtain ⟨fuel, rfl⟩ : ∃ n, fuel = n + 1 := ⟨fuel - 1, by omega⟩
    have htext : cs = newLine level ++ (quoted key ++
        ':' :: ' ' :: (prettyAt level j ++ (prettyFields level more ++ tail))) := by
      simpa [prettyFields] using hcs
    obtain ⟨us, hus, hkey⟩ := quoted?_escaped key
      (':' :: ' ' :: (prettyAt level j ++ (prettyFields level more ++ tail)))
    have hname : skipSpace cs = '"' :: (key.toList.flatMap escapeChar ++ '"' ::
        ':' :: ' ' :: (prettyAt level j ++ (prettyFields level more ++ tail))) := by
      rw [htext, skipSpace_newLine, quoted, List.cons_append, List.append_assoc]
      rfl
    have hbegin : skipSpace (' ' :: (prettyAt level j ++ (prettyFields level more ++ tail)))
        = prettyAt level j ++ (prettyFields level more ++ tail) := by
      rw [skipSpace_space, skipSpace_prettyAt hi.1]
    match more with
    | [] =>
      obtain ⟨raw, hread, hvalue⟩ := read?_prettyAt j hi.1 level fuel hbegin hend (by omega)
      refine ⟨[(us, raw)], Raw.fields?_last hname hus hread htail, ?_⟩
      rw [Raw.fieldValues?, hkey, hvalue]
      rfl
    | next :: more =>
      obtain ⟨raw, hread, hvalue⟩ :=
        read?_prettyAt j hi.1 level fuel hbegin (endsNumber_comma _) (by omega)
      obtain ⟨raws, hmore, hvalues⟩ := fields?_prettyFields (next :: more) hi.2
        (List.cons_ne_nil next more) level fuel rfl htail hend (by omega)
      refine ⟨(us, raw) :: raws, Raw.fields?_next hname hus hread hmore, ?_⟩
      rw [Raw.fieldValues?, hkey, hvalue, hvalues]
      rfl
termination_by structural fields

end

/-- Nothing but blanks may follow the value. -/
theorem ofText?_prettyAt {j : Json} (hj : j.WholeNumbers) {blanks : List Char}
    (hblanks : skipSpace blanks = []) (hend : EndsNumber blanks) :
    ∃ raw, Raw.ofText? (prettyAt 0 j ++ blanks) = some raw ∧ raw.value? .whole = some j := by
  have hbegin : skipSpace (prettyAt 0 j ++ blanks) = prettyAt 0 j ++ blanks :=
    skipSpace_prettyAt hj 0 blanks
  have hfuel : (prettyAt 0 j).length ≤ 2 * (prettyAt 0 j ++ blanks).length + 2 := by
    rw [List.length_append]
    omega
  obtain ⟨raw, hread, hvalue⟩ := read?_prettyAt j hj 0 _ hbegin hend hfuel
  refine ⟨raw, ?_, hvalue⟩
  rw [Raw.ofText?, hread]
  dsimp only [Option.bind_eq_bind, Option.bind_some]
  rw [hblanks]
  rfl

theorem ofText?_pretty {j : Json} (hj : j.WholeNumbers) :
    ∃ raw, Raw.ofText? j.pretty.toList = some raw ∧ raw.value? .whole = some j := by
  have h := ofText?_prettyAt hj rfl endsNumber_nil
  rwa [List.append_nil, ← (String.toList_ofList : j.pretty.toList = prettyAt 0 j)] at h

/-! ## Shapes under which nothing is passed over -/

/-- Of this value a reader with the shape passes nothing over. -/
def Shape.Keeps (shape : Shape) (j : Json) : Prop :=
  ∀ raw : Raw, raw.value? .whole = some j → raw.value? shape = some j

theorem Shape.keeps_whole (j : Json) : Shape.whole.Keeps j :=
  fun _ h => h

theorem itemValues?_of_keeps {item : Shape} {raws : List Raw} {items : List Json}
    (h : Raw.itemValues? .whole raws = some items) (hi : ∀ j ∈ items, item.Keeps j) :
    Raw.itemValues? item raws = some items := by
  induction raws generalizing items with
  | nil => exact h
  | cons raw raws ih =>
    simp only [Raw.itemValues?, Option.bind_eq_bind, Option.bind_eq_some_iff, Option.pure_def,
      Option.some.injEq] at h
    obtain ⟨j, hj, rest, hrest, rfl⟩ := h
    rw [Raw.itemValues?, hi j List.mem_cons_self raw hj,
      ih hrest fun k hk => hi k (List.mem_cons_of_mem _ hk)]
    rfl

theorem Shape.keeps_list {item : Shape} {items : List Json} (hi : ∀ j ∈ items, item.Keeps j) :
    (Shape.list item).Keeps (arr items) := by
  intro raw h
  cases raw with
  | arr raws =>
    simp only [Raw.value?, Option.map_eq_some_iff, arr.injEq] at h ⊢
    obtain ⟨items, hitems, rfl⟩ := h
    exact ⟨items, itemValues?_of_keeps hitems hi, rfl⟩
  | null => cases h
  | bool b => cases h
  | num n => simp [Raw.value?] at h
  | str us => simp [Raw.value?] at h
  | obj fields => simp [Raw.value?] at h

theorem knownValues?_of_keeps {known : List (String × Shape)} {raws : List (List StringUnit × Raw)}
    {fields : List (String × Json)} (h : Raw.fieldValues? raws = some fields)
    (hf : ∀ e ∈ fields, ∃ shape, known.lookup e.1 = some shape ∧ shape.Keeps e.2) :
    Raw.knownValues? known raws = some fields := by
  induction raws generalizing fields with
  | nil => exact h
  | cons e raws ih =>
    obtain ⟨us, raw⟩ := e
    simp only [Raw.fieldValues?, Option.bind_eq_bind, Option.bind_eq_some_iff, Option.pure_def,
      Option.some.injEq] at h
    obtain ⟨key, hkey, j, hj, rest, hrest, rfl⟩ := h
    obtain ⟨shape, hshape, hkeeps⟩ := hf (key, j) List.mem_cons_self
    have hmore := ih hrest fun e he => hf e (List.mem_cons_of_mem _ he)
    simp [Raw.knownValues?, hkey, hmore, hshape, hkeeps raw hj]

theorem Shape.keeps_record {known : List (String × Shape)} {fields : List (String × Json)}
    (hf : ∀ e ∈ fields, ∃ shape, known.lookup e.1 = some shape ∧ shape.Keeps e.2) :
    (Shape.record known).Keeps (obj fields) := by
  intro raw h
  cases raw with
  | obj raws =>
    simp only [Raw.value?, Option.map_eq_some_iff, obj.injEq] at h ⊢
    obtain ⟨fields, hfields, rfl⟩ := h
    exact ⟨fields, knownValues?_of_keeps hfields hf, rfl⟩
  | null => cases h
  | bool b => cases h
  | num n => simp [Raw.value?] at h
  | str us => simp [Raw.value?] at h
  | arr items => simp [Raw.value?] at h

theorem lookup_ofNames {names : List String} {name : String} (h : name ∈ names) :
    (names.map fun name => (name, Shape.whole)).lookup name = some .whole := by
  induction names with
  | nil => cases h
  | cons first names ih =>
    rw [List.map_cons, List.lookup_cons]
    split
    · rfl
    · next hne =>
      refine ih ((List.mem_cons.1 h).resolve_left ?_)
      rintro rfl
      simp at hne

theorem Shape.keeps_ofNames {names : List String} {fields : List (String × Json)}
    (h : ∀ e ∈ fields, e.1 ∈ names) : (Shape.ofNames names).Keeps (obj fields) :=
  Shape.keeps_record fun e he => ⟨.whole, lookup_ofNames (h e he), keeps_whole e.2⟩

/-- A value that is written in the pretty form is read back, also where only the parts that a shape
names are looked at, if nothing of the value is passed over. -/
theorem readWithin?_pretty {shape : Shape} {j : Json} (hj : j.WholeNumbers) (hs : shape.Keeps j) :
    readWithin? shape j.pretty.toList = some j := by
  obtain ⟨raw, hraw, hvalue⟩ := ofText?_pretty hj
  rw [readWithin?, hraw]
  exact hs raw hvalue

/-- A value that stands in the pretty form on lines of its own is read back. -/
theorem read?_prettyLine {j : Json} (hj : j.WholeNumbers) :
    read? (j.pretty ++ "\n").toList = some j := by
  have htext : (j.pretty ++ "\n").toList = prettyAt 0 j ++ ['\n'] := by
    rw [String.toList_append, pretty, String.toList_ofList]
    rfl
  obtain ⟨raw, hraw, hvalue⟩ := ofText?_prettyAt hj rfl (endsNumber_newline [])
  rw [htext, read?, readWithin?, hraw]
  exact hvalue

end Json
end Comfort
