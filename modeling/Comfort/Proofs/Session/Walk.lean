import Comfort.Proofs.Document.Layout
import Comfort.Session.Basic

/-!
Walks through the lines of a document.

Whoever reads a document takes its lines and goes past them, in any order of moves.  The session does
not see which lines are gone past, only how many bytes.  That is enough to notice every mistake: a
line is handed out only where the count stands at its start, the raw lines tile the document, and none
of them is empty.  So a walk that reaches the end of a document with the count at its end has gone
past each line just once, right after it was taken: `accounted_of_run`.
-/

namespace Comfort

/-! ## Contiguous lines -/

theorem Contiguous.of_append {start stop : Nat} {a b : List SourceLine} {line : SourceLine}
    (h : Contiguous start (a ++ line :: b) stop) :
    line.range.start ≤ line.range.stop ∧ Contiguous line.range.stop b stop := by
  induction a generalizing start with
  | nil =>
    obtain ⟨hstart, hle, hb⟩ := h
    exact ⟨by omega, hb⟩
  | cons first rest ih => exact ih h.2.2

namespace Session

/-- What a reader does with the lines of a session. -/
inductive Move where
  | take
  | peek
  | advance (line : SourceLine)
  | restart

/-- What a move leaves in the log of a walk. -/
inductive Deed where
  | took (line : SourceLine)
  | went (bytes : Nat)

/-- A session on its way, and what was done since its last restart, in order. -/
structure Walk where
  session : Session
  log : List Deed

/-- The lines that were taken. -/
def taken : List Deed → List SourceLine
  | [] => []
  | .took line :: rest => line :: taken rest
  | .went _ :: rest => taken rest

/-- The bytes that were gone over. -/
def gone : List Deed → Nat
  | [] => 0
  | .took _ :: rest => gone rest
  | .went bytes :: rest => bytes + gone rest

/-- The log ends here, or the next line is taken. -/
def AtTake : List Deed → Prop
  | .went _ :: _ => False
  | _ => True

/-- All lines were taken in their order, nothing was gone over before the first of them, and after
each of them, until the next one was taken or the log ends, the bytes of its raw line. -/
structure Accounted (lines : List SourceLine) (log : List Deed) : Prop where
  taken : taken log = lines
  before : ∀ a b, log = a ++ b → Session.taken a = [] → AtTake b → gone a = 0
  after : ∀ a line b c, log = a ++ .took line :: (b ++ c) → Session.taken b = [] → AtTake c →
    gone b = line.range.length

/-- The next line is refused or, when there is none, the end of the document. -/
def Strays (s : Session) : Prop :=
  ∃ cause, s.take = .failed s (.cursorDesync cause) ∨
    s.take = .done s none ∧ s.finished = .failed s (.cursorDesync cause)

namespace Walk

def ofText (text : List Char) : Walk :=
  { session := Session.ofText text, log := [] }

/-- A line that is refused, and the end of the lines, leave nothing in the log. -/
def make (w : Walk) : Move → Walk
  | .take =>
    match w.session.take with
    | .done s (some line) => { session := s, log := w.log ++ [.took line] }
    | .done s none => { w with session := s }
    | .failed s _ => { w with session := s }
  | .peek => w
  | .advance line =>
    { session := w.session.advance line, log := w.log ++ [.went line.range.length] }
  | .restart => { session := w.session.restart, log := [] }

def run (w : Walk) (moves : List Move) : Walk :=
  moves.foldl make w

end Walk

/-! ## Logs -/

@[simp] theorem taken_append (a b : List Deed) : taken (a ++ b) = taken a ++ taken b := by
  induction a with
  | nil => rfl
  | cons d rest ih => cases d <;> simp [taken, ih]

@[simp] theorem gone_append (a b : List Deed) : gone (a ++ b) = gone a + gone b := by
  induction a with
  | nil => simp [gone]
  | cons d rest ih => cases d <;> simp [gone, ih, Nat.add_assoc]

theorem exists_last_took {log : List Deed} (h : taken log ≠ []) :
    ∃ a line b, log = a ++ .took line :: b ∧ taken b = [] := by
  induction log using List.reverseRecOn with
  | nil => exact absurd rfl h
  | append_singleton log d ih =>
    cases d with
    | took line => exact ⟨log, line, [], rfl, rfl⟩
    | went n =>
      obtain ⟨a, line, b, rfl, hb⟩ := ih (by simpa [taken] using h)
      exact ⟨a, line, b ++ [.went n], by simp, by simp [hb, taken]⟩

/-! ## Moves -/

variable {s : Session}

theorem take_of_nil (h : s.cursor.ahead = []) : s.take = .done s none := by
  simp [take, LineCursor.take, h]

theorem take_of_start {line : SourceLine} {rest : List SourceLine}
    (h : s.cursor.ahead = line :: rest) (hs : line.range.start = s.cursor.index) :
    s.take = .done { s with cursor := { s.cursor with ahead := rest, current := some line } }
      (some line) := by
  simp [take, LineCursor.take, h, hs]

theorem take_of_ne_start {line : SourceLine} {rest : List SourceLine}
    (h : s.cursor.ahead = line :: rest) (hs : line.range.start ≠ s.cursor.index) :
    ∃ cause, s.take = .failed s (.cursorDesync cause) := by
  simp [take, LineCursor.take, h, hs]

theorem ahead_of_take_none {t : Session} (h : s.take = .done t none) : s.cursor.ahead = [] := by
  cases ha : s.cursor.ahead with
  | nil => rfl
  | cons line rest =>
    by_cases hs : line.range.start = s.cursor.index
    · rw [take_of_start ha hs] at h
      exact absurd (Outcome.done.inj h).2 nofun
    · obtain ⟨cause, hfail⟩ := take_of_ne_start ha hs
      rw [hfail] at h
      cases h

theorem eq_of_take_failed {t : Session} {e : ParseError} (h : s.take = .failed t e) : t = s := by
  unfold take at h
  split at h
  · cases h
  · exact (Outcome.failed.inj h).1.symm

theorem finished_iff : s.finished = .done s () ↔ s.cursor.index = s.cursor.length := by
  unfold finished LineCursor.finished
  by_cases h : s.cursor.index = s.cursor.length <;> simp [h]

theorem finished_of_ne (h : s.cursor.index ≠ s.cursor.length) :
    ∃ cause, s.finished = .failed s (.cursorDesync cause) := by
  simp [finished, LineCursor.finished, h]

/-- A session strays unless it stands where the lines ahead begin. -/
theorem strays_iff {start : Nat} (h : Contiguous start s.cursor.ahead s.cursor.length) :
    s.Strays ↔ s.cursor.index ≠ start := by
  unfold Strays
  cases ha : s.cursor.ahead with
  | nil =>
    rw [ha] at h
    have hlength : start = s.cursor.length := h
    rw [take_of_nil ha, hlength]
    constructor
    · rintro ⟨cause, hfail | ⟨-, hfail⟩⟩ hindex
      · cases hfail
      · rw [finished_iff.2 hindex] at hfail
        cases hfail
    · intro hne
      obtain ⟨cause, hfail⟩ := finished_of_ne hne
      exact ⟨cause, .inr ⟨rfl, hfail⟩⟩
  | cons line rest =>
    rw [ha] at h
    have hstart : line.range.start = start := h.1
    constructor
    · rintro ⟨cause, hfail⟩ hindex
      rw [take_of_start ha (hstart.trans hindex.symm)] at hfail
      rcases hfail with hfail | ⟨hfail, -⟩
      · cases hfail
      · exact absurd (Outcome.done.inj hfail).2 nofun
    · intro hne
      obtain ⟨cause, hfail⟩ := take_of_ne_start ha fun heq => hne (heq.symm.trans hstart)
      exact ⟨cause, .inl hfail⟩

/-! ## What a walk keeps -/

namespace Walk

variable {text : List Char} {w : Walk}

/-- The lines taken and the lines ahead are those of the document, the count is of the bytes in the
log, and each line was taken where it starts. -/
structure Keeps (text : List Char) (w : Walk) : Prop where
  lines : w.session.cursor.lines = Document.lines text
  length : w.session.cursor.length = Text.byteLength text
  taken : Session.taken w.log ++ w.session.cursor.ahead = Document.lines text
  index : w.session.cursor.index = gone w.log
  started : ∀ a line b, w.log = a ++ .took line :: b → line.range.start = gone a

theorem keeps_ofText (text : List Char) : (ofText text).Keeps text where
  lines := rfl
  length := rfl
  taken := rfl
  index := rfl
  started a line b h := by
    cases a <;> cases h

/-- Where the log grows by one, the line is an earlier one or the new one. -/
theorem started_append {log : List Deed} {d : Deed}
    (h : ∀ a line b, log = a ++ .took line :: b → line.range.start = gone a)
    (hd : ∀ line, d = .took line → line.range.start = gone log)
    (a : List Deed) (line : SourceLine) (b : List Deed) (hlog : log ++ [d] = a ++ .took line :: b) :
    line.range.start = gone a := by
  rcases List.eq_nil_or_concat b with rfl | ⟨init, last, rfl⟩
  · obtain ⟨rfl, hlast⟩ := List.append_inj' hlog rfl
    exact hd line (List.singleton_inj.1 hlast)
  · rw [List.concat_eq_append, ← List.cons_append, ← List.append_assoc] at hlog
    exact h a line init (List.append_inj' hlog rfl).1

theorem Keeps.make (h : w.Keeps text) (move : Move) : (w.make move).Keeps text := by
  cases move with
  | peek => exact h
  | restart =>
    refine ⟨h.lines, h.length, h.lines, rfl, fun a line b hlog => ?_⟩
    cases a <;> cases hlog
  | advance line =>
    refine ⟨h.lines, h.length, ?_, ?_, ?_⟩
    · rw [← h.taken]
      simp [Walk.make, Session.taken, LineCursor.advance]
    · have hindex := h.index
      simp [Walk.make, gone, LineCursor.advance, hindex]
    · exact started_append h.started nofun
  | take =>
    cases ha : w.session.cursor.ahead with
    | nil =>
      rw [Walk.make, take_of_nil ha]
      exact h
    | cons line rest =>
      by_cases hs : line.range.start = w.session.cursor.index
      · rw [Walk.make, take_of_start ha hs]
        refine ⟨h.lines, h.length, ?_, ?_, ?_⟩
        · rw [← h.taken, ha]
          simp [Session.taken]
        · simp [gone, h.index]
        · refine started_append h.started fun next hnext => ?_
          cases hnext
          rw [hs, h.index]
      · obtain ⟨cause, hfail⟩ := take_of_ne_start ha hs
        rw [Walk.make, hfail]
        exact h

theorem keeps_run (text : List Char) (moves : List Move) : ((ofText text).run moves).Keeps text := by
  suffices h : ∀ w : Walk, w.Keeps text → (w.run moves).Keeps text from h _ (keeps_ofText text)
  induction moves with
  | nil => exact fun w h => h
  | cons move rest ih => exact fun w h => ih _ (h.make move)

theorem Keeps.took (h : w.Keeps text) {s : Session} {line : SourceLine}
    (ht : w.session.take = .done s (some line)) :
    Keeps text { session := s, log := w.log ++ [.took line] } := by
  have hkeeps := h.make .take
  rw [Walk.make, ht] at hkeeps
  exact hkeeps

/-- Where the log is at a take, the bytes that were gone over are those up to the next line. -/
theorem Keeps.gone_eq (h : w.Keeps text) {a b : List Deed} {start : Nat}
    (hlog : w.log = a ++ b) (hb : AtTake b)
    (hc : Contiguous start (Session.taken b ++ w.session.cursor.ahead) (Text.byteLength text))
    (hend : b = [] → w.session.cursor.ahead = [] ∧ w.session.cursor.index = Text.byteLength text) :
    gone a = start := by
  cases b with
  | nil =>
    obtain ⟨ha, hindex⟩ := hend rfl
    have hstart : start = Text.byteLength text := by
      rw [ha] at hc
      exact hc
    rw [hstart, ← hindex, h.index, hlog, List.append_nil]
  | cons d rest =>
    cases d with
    | took line =>
      rw [← h.started a line rest hlog]
      exact hc.1
    | went n => exact absurd hb id

theorem Keeps.contiguous_after (h : w.Keeps text) {a b : List Deed} {line : SourceLine}
    (hlog : w.log = a ++ .took line :: b) :
    line.range.start = gone a ∧ line.range.start ≤ line.range.stop ∧
      Contiguous line.range.stop (Session.taken b ++ w.session.cursor.ahead)
        (Text.byteLength text) := by
  have hlines := h.taken
  rw [hlog, taken_append, List.append_assoc] at hlines
  have hc := Document.contiguous_lines text
  rw [← hlines] at hc
  exact ⟨h.started a line b hlog, hc.of_append⟩

theorem Keeps.accounted (h : w.Keeps text) (ha : w.session.cursor.ahead = [])
    (hi : w.session.cursor.index = w.session.cursor.length) :
    Accounted (Document.lines text) w.log := by
  have hindex : w.session.cursor.index = Text.byteLength text := hi.trans h.length
  have hlines := h.taken
  refine ⟨?_, fun a b hlog hnone hat => ?_, fun a line b c hlog hnone hat => ?_⟩
  · rw [← hlines, ha, List.append_nil]
  · have hc := Document.contiguous_lines text
    rw [← hlines, hlog, taken_append, hnone, List.nil_append] at hc
    exact h.gone_eq hlog hat hc fun _ => ⟨ha, hindex⟩
  · obtain ⟨hstart, hle, hc⟩ := h.contiguous_after hlog
    rw [taken_append, hnone, List.nil_append] at hc
    have hsplit : w.log = (a ++ .took line :: b) ++ c := by
      rw [hlog, List.append_assoc, List.cons_append]
    -- Up to the next take, or to the end, the count goes from the start of the line to its stop.
    have hstop := h.gone_eq hsplit hat hc fun _ => ⟨ha, hindex⟩
    rw [gone_append, ← hstart, gone] at hstop
    rw [TextRange.length]
    omega

theorem Keeps.of_accounted (h : w.Keeps text) (hlog : Accounted (Document.lines text) w.log) :
    w.session.cursor.ahead = [] ∧ w.session.cursor.index = w.session.cursor.length := by
  have hlines := h.taken
  have ha : w.session.cursor.ahead = [] := by
    rw [hlog.taken] at hlines
    exact List.append_right_eq_self.1 hlines
  refine ⟨ha, ?_⟩
  rw [h.index, h.length]
  by_cases hnone : Session.taken w.log = []
  · have hc := Document.contiguous_lines text
    rw [← hlog.taken, hnone] at hc
    rw [hlog.before w.log [] (List.append_nil _).symm hnone trivial]
    exact hc
  · obtain ⟨a, line, b, hsplit, hb⟩ := exists_last_took hnone
    obtain ⟨hstart, hle, hc⟩ := h.contiguous_after hsplit
    rw [hb, ha] at hc
    have hstop : line.range.stop = Text.byteLength text := hc
    have hgone := hlog.after a line b [] (by rw [hsplit, List.append_nil]) hb trivial
    rw [hsplit, gone_append, gone, ← hstart, hgone, TextRange.length]
    omega

theorem cursor_foldl_advance (s : Session) (passed : List SourceLine) :
    (passed.foldl advance s).cursor
      = { s.cursor with
          index := s.cursor.index + gone (passed.map fun line => .went line.range.length) } := by
  induction passed generalizing s with
  | nil => rfl
  | cons line rest ih =>
    rw [List.foldl_cons, ih]
    simp [gone, LineCursor.advance, Nat.add_assoc]

/-- After a line was taken, the session strays unless the bytes of just that line are gone over. -/
theorem Keeps.strays_iff (h : w.Keeps text) {s : Session} {line : SourceLine}
    (ht : w.session.take = .done s (some line)) (passed : List SourceLine) :
    (passed.foldl advance s).Strays ↔
      gone (passed.map fun line => .went line.range.length) ≠ line.range.length := by
  obtain ⟨hstart, hle, hc⟩ := (h.took ht).contiguous_after rfl
  have hindex := (h.took ht).index
  have hlength := (h.took ht).length
  rw [gone_append, gone, gone, Nat.add_zero, ← hstart] at hindex
  have hahead : Contiguous line.range.stop (passed.foldl advance s).cursor.ahead
      (passed.foldl advance s).cursor.length := by
    rw [cursor_foldl_advance]
    dsimp only at hlength ⊢
    rw [hlength]
    exact hc
  rw [Session.strays_iff hahead, cursor_foldl_advance, TextRange.length]
  dsimp only at hindex ⊢
  rw [hindex]
  omega

theorem Keeps.length_taken_ne_zero (h : w.Keeps text) {s : Session} {line : SourceLine}
    (ht : w.session.take = .done s (some line)) : line.range.length ≠ 0 := by
  have hmem : line ∈ Document.lines text := by
    rw [← (h.took ht).taken, taken_append]
    simp [Session.taken]
  obtain ⟨raw, hraw⟩ := Document.liesIn_of_mem_lines hmem
  have hlt := hraw.nonempty
  rw [TextRange.length]
  omega

/-- Whatever moves a walk makes, the lines taken since its last restart are the first lines of the
document, in order.  The lines are used up and the end of the document is where the walk stands just
when each line was taken and its bytes, no more and no fewer, were gone over before the next one.  A
walk that goes over any other number of bytes after a line, none or those of the line twice among
them, has the next line refused or, after the last line, the end.  A refusal changes nothing. -/
theorem accounted_of_run (text : List Char) (moves : List Move) :
    let w := (ofText text).run moves
    Session.taken w.log = (Document.lines text).take (Session.taken w.log).length ∧
    (w.session.take = .done w.session none ∧ w.session.finished = .done w.session () ↔
      Accounted (Document.lines text) w.log) ∧
    (∀ s line, w.session.take = .done s (some line) →
      s.Strays ∧ ((s.advance line).advance line).Strays ∧
      ∀ passed : List SourceLine, (passed.foldl advance s).Strays ↔
        gone (passed.map fun line => .went line.range.length) ≠ line.range.length) ∧
    ∀ s e, w.session.take = .failed s e → s = w.session ∧ w.make .take = w := by
  intro w
  have h : w.Keeps text := keeps_run text moves
  refine ⟨?_, ⟨fun ⟨hnone, hfinished⟩ => ?_, fun hlog => ?_⟩, fun s line ht => ?_,
    fun s e hfail => ?_⟩
  · rw [← h.taken, List.take_left]
  · exact h.accounted (ahead_of_take_none hnone) (finished_iff.1 hfinished)
  · obtain ⟨ha, hindex⟩ := h.of_accounted hlog
    exact ⟨take_of_nil ha, finished_iff.2 hindex⟩
  · have hpos := h.length_taken_ne_zero ht
    have hstrays := h.strays_iff ht
    refine ⟨(hstrays []).2 (Ne.symm hpos), (hstrays [line, line]).2 ?_, hstrays⟩
    simp only [List.map_cons, List.map_nil, gone]
    omega
  · cases eq_of_take_failed hfail
    refine ⟨rfl, ?_⟩
    rw [make, hfail]

def fordText : List Char := "a\r\nbb".toList

def fordLine : SourceLine := { index := 0, range := ⟨0, 3⟩, text := "a" }

def fordEnd : SourceLine := { index := 1, range := ⟨3, 5⟩, text := "bb" }

/-- A walk that begins again after its first line. -/
def fordMoves : List Move :=
  [.take, .restart, .take, .advance fordLine, .peek, .take, .advance fordEnd]

theorem accounted_of_run_ford :
    Accounted (Document.lines fordText) ((ofText fordText).run fordMoves).log ∧
    ∃ s, (Session.ofText fordText).take = .done s (some fordLine) ∧
      s.Strays ∧ ((s.advance fordLine).advance fordLine).Strays := by
  have hahead : ((ofText fordText).run fordMoves).session.cursor.ahead = [] := by decide +kernel
  have hindex : ((ofText fordText).run fordMoves).session.cursor.index
      = ((ofText fordText).run fordMoves).session.cursor.length := by
    decide +kernel
  have hfirst : (Session.ofText fordText).cursor.ahead = [fordLine, fordEnd] := by decide +kernel
  have htake := take_of_start hfirst rfl
  obtain ⟨-, hall, -⟩ := accounted_of_run fordText fordMoves
  obtain ⟨-, -, hstrays, -⟩ := accounted_of_run fordText []
  obtain ⟨hnone, htwice, -⟩ := hstrays _ fordLine htake
  exact ⟨hall.1 ⟨take_of_nil hahead, finished_iff.2 hindex⟩, _, htake, hnone, htwice⟩

end Walk
end Session
end Comfort
