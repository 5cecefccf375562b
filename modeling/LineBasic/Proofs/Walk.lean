import LineBasic.Proofs.Machine
import LineBasic.Proofs.Spelling

/-!
# Walking along a line

A cursor `Sees` lexemes when these are the rest of its line, spelled out, with other
lines below. It then stands on the first of them, and moving on it sees the others.
`Worked` is what a machine may have done besides moving its cursor while it walks:
it may have written and warned. `Rounds` are rounds of a loop, each of which leaves
less to go, so that the loop never runs out of rounds.
-/
namespace LineBasic

namespace Lexeme

theorem length_spelled_cons (l : Lexeme) (ls : List Lexeme) :
    (spelled ls).length + l.spelling.length ≤ (spelled (l :: ls)).length := by
  cases ls with
  | nil => simp [spelled]
  | cons second others =>
      simp only [spelled, List.map_cons, List.intercalate_cons_cons, List.length_append]
      omega

theorem length_spelled_append (ls others : List Lexeme) :
    (spelled others).length ≤ (spelled (ls ++ others)).length := by
  induction ls with
  | nil => exact Nat.le_refl _
  | cons l ls ih =>
      have hcons := length_spelled_cons l (ls ++ others)
      rw [List.cons_append]
      omega

end Lexeme

namespace Cursor

/-- A sound cursor at a place that reading the text comes to. -/
structure Steady (c : Cursor) : Prop extends Sound c where
  visited : c.sheet.text.Visits c.ahead

namespace Steady

variable {c : Cursor}

theorem next (h : c.Steady) (hend : c.token.lexeme ≠ .sourceEnd)
    (hrem : c.token.lexeme ≠ .keyword .REM) :
    ∃ d : Cursor, Cursor.next c = .ok () d ∧ d.Steady ∧ d.sheet = c.sheet ∧
      d.ahead = c.behind.pastGap := by
  obtain ⟨d, hd, hsound, hsheet, hahead, -⟩ := h.toSound.next hend hrem
  refine ⟨d, hd, ⟨hsound, ?_⟩, hsheet, hahead⟩
  rw [hsheet, hahead, h.behind_eq]
  exact h.visited.token h.here hrem

theorem skipLine (h : c.Steady) (hend : c.token.lexeme ≠ .sourceEnd) :
    ∃ d : Cursor, Cursor.skipLine c = .ok () d ∧ d.Steady ∧ d.sheet = c.sheet ∧
      d.ahead = c.ahead.afterLine.pastGap ∧ d.ahead.length < c.ahead.length := by
  obtain ⟨d, hd, hsound, hsheet, hahead, hlength⟩ := h.toSound.skipLine hend
  refine ⟨d, hd, ⟨hsound, ?_⟩, hsheet, hahead, hlength⟩
  have hvisited := h.visited
  rw [← h.settled] at hvisited
  rw [hsheet, hahead]
  exact hvisited.afterLine h.onward

theorem start (sheet : Sheet) (h : sheet.text.Readable) :
    ∃ first : Cursor, Cursor.start sheet = .ok first ∧ first.Steady ∧ first.sheet = sheet ∧
      first.ahead = sheet.text.pastGap := by
  obtain ⟨first, hstart, hsound⟩ := start_of_readable sheet h
  have hsheet := sheet_of_start hstart
  have hahead := ahead_of_start (hsheet.symm ▸ hstart)
  refine ⟨first, hstart, ⟨hsound, ?_⟩, hsheet, by rw [hahead, hsheet]⟩
  rw [hahead]
  exact .first

end Steady

/-- A cursor on a lexeme that is spelled out. -/
theorem Placed.of_spelling {c : Cursor} (h : c.Placed) {l : Lexeme} (hl : l.Proper) {x : Text}
    (hx : x.Apart) (hahead : c.ahead = l.spelling ++ x) :
    c.token.lexeme = l ∧ c.behind = x := by
  have hread := h.here
  rw [hahead, Lexeme.read_spelling hl hx] at hread
  simp only [Except.ok.injEq, Prod.mk.injEq] at hread
  refine ⟨hread.1.symm, ?_⟩
  rw [h.behind_eq, ← hread.2, hahead, List.drop_left]

/-- The rest of the cursor's line is made of lexemes, and other lines are below. -/
structure Sees (c : Cursor) (ls : List Lexeme) (below : Text) : Prop extends Steady c where
  proper : ∀ l ∈ ls, l.Proper
  line : c.ahead = Lexeme.spelled ls ++ '\n' :: below

namespace Sees

variable {c : Cursor} {l : Lexeme} {ls others : List Lexeme} {below : Text}

theorem here_cons (h : c.Sees (l :: ls) below) :
    c.token.lexeme = l ∧ c.behind.Apart ∧
      c.behind.pastGap = Lexeme.spelled ls ++ '\n' :: below := by
  obtain ⟨hl, hls⟩ := List.forall_mem_cons.1 h.proper
  obtain ⟨x, hx, hapart, hbehind⟩ := Lexeme.spelled_cons l ls below
  obtain ⟨hlexeme, rfl⟩ := h.of_spelling hl hapart (h.line.trans hx)
  exact ⟨hlexeme, hapart, hbehind.trans (Lexeme.pastGap_spelled hls below)⟩

theorem here_nil (h : c.Sees [] below) : c.token.lexeme = .lineEnd ∧ c.behind = below := by
  have hread := h.here
  have hline : c.ahead = '\n' :: below := h.line
  rw [hline] at hread
  simp only [Lexeme.read, if_true, Except.ok.injEq, Prod.mk.injEq] at hread
  refine ⟨hread.1.symm, ?_⟩
  rw [h.behind_eq, ← hread.2, hline]
  rfl

/-- What a cursor is on. -/
theorem lexeme (h : c.Sees ls below) : c.token.lexeme = ls.headD .lineEnd := by
  cases ls with
  | nil => exact h.here_nil.1
  | cons l ls => exact h.here_cons.1

theorem next (h : c.Sees (l :: ls) below) :
    ∃ d : Cursor, Cursor.next c = .ok () d ∧ d.Sees ls below ∧ d.sheet = c.sheet := by
  obtain ⟨hl, hls⟩ := List.forall_mem_cons.1 h.proper
  obtain ⟨hlexeme, -, hbehind⟩ := h.here_cons
  have hend : c.token.lexeme ≠ .sourceEnd := by
    rw [hlexeme]
    rintro rfl
    exact hl
  have hrem : c.token.lexeme ≠ .keyword .REM := by
    rw [hlexeme]
    rintro rfl
    exact hl rfl
  obtain ⟨d, hd, hsteady, hsheet, hahead⟩ := h.toSteady.next hend hrem
  exact ⟨d, hd, ⟨hsteady, hls, hahead.trans hbehind⟩, hsheet⟩

/-- A number within a line is a line number of the text if it reads as one. -/
theorem numbers {value : Nat} (h : c.Sees (.number value :: ls) below)
    (hvalue : Cursor.isLineNumber value = true) : c.sheet.text.Numbers value := by
  obtain ⟨hlexeme, hapart, -⟩ := h.here_cons
  have hread := h.here
  rw [hlexeme] at hread
  refine ⟨_, _, h.visited, hread, hvalue, ?_⟩
  rw [← h.behind_eq]
  obtain ⟨rest, hrest | hrest⟩ := hapart.cases <;> rw [hrest] <;> rfl

theorem length_le {d : Cursor} (hc : c.Sees (ls ++ others) below) (hd : d.Sees others below) :
    d.ahead.length ≤ c.ahead.length := by
  have hle := Lexeme.length_spelled_append ls others
  rw [hc.line, hd.line, List.length_append, List.length_append]
  omega

theorem length_next_lt {d : Cursor} (hc : c.Sees (l :: ls) below) (hd : d.Sees ls below) :
    d.ahead.length < c.ahead.length := by
  obtain ⟨e, he, hsees, -⟩ := hc.next
  have hend : c.token.lexeme ≠ .sourceEnd := by
    rw [hc.here_cons.1]
    rintro rfl
    exact hc.proper .sourceEnd (by simp)
  have hlength := hc.length_next hend he
  rwa [hsees.line, ← hd.line] at hlength

theorem length_lt {d : Cursor} (hc : c.Sees (l :: ls ++ others) below)
    (hd : d.Sees others below) : d.ahead.length < c.ahead.length := by
  obtain ⟨e, -, hsees, -⟩ := hc.next
  exact Nat.lt_of_le_of_lt (length_le hsees hd) (length_next_lt hc hsees)

end Sees

end Cursor

namespace Machine

/-- What a machine has written and warned of, with all the rest but its cursor and its
trace unchanged. -/
structure Worked (m m' : Machine) (piece : Text) (warnings : Nat) : Prop where
  store : m'.store = m.store
  size : m'.size = m.size
  index : m'.index = m.index
  started : m'.started = m.started
  finished : m'.finished = m.finished
  sheet : m'.cursor.sheet = m.cursor.sheet
  output : m'.output.text = m.output.text ++ piece
  alarms : m'.output.alarms = m.output.alarms
  warnings : m'.reports.warnings = m.reports.warnings + warnings

namespace Worked

variable {m m' m'' : Machine} {piece piece' : Text} {w w' : Nat}

theorem refl (m : Machine) : Worked m m [] 0 :=
  ⟨rfl, rfl, rfl, rfl, rfl, rfl, (List.append_nil _).symm, rfl, rfl⟩

theorem trans (h : Worked m m' piece w) (h' : Worked m' m'' piece' w') :
    Worked m m'' (piece ++ piece') (w + w') where
  store := h'.store.trans h.store
  size := h'.size.trans h.size
  index := h'.index.trans h.index
  started := h'.started.trans h.started
  finished := h'.finished.trans h.finished
  sheet := h'.sheet.trans h.sheet
  output := by rw [h'.output, h.output, List.append_assoc]
  alarms := h'.alarms.trans h.alarms
  warnings := by rw [h'.warnings, h.warnings, Nat.add_assoc]

end Worked

theorem worked_movedTo (m : Machine) {c : Cursor} (h : c.sheet = m.cursor.sheet) :
    Worked m (m.movedTo c) [] 0 :=
  ⟨rfl, rfl, rfl, rfl, rfl, h, (List.append_nil _).symm, rfl, rfl⟩

theorem worked_reports (m : Machine) {r : Reports} {w : Nat}
    (h : r.warnings = m.reports.warnings + w) : Worked m { m with reports := r } [] w :=
  ⟨rfl, rfl, rfl, rfl, rfl, rfl, (List.append_nil _).symm, rfl, h⟩

theorem note_works {event : Event} (h : event.writable = true) (m : Machine) :
    ∃ m', note event m = .ok () m' ∧ Worked m m' [] 0 ∧ m'.cursor = m.cursor :=
  ⟨_, note_of_writable h m, worked_reports m (m.reports.warnings_noted event), rfl⟩

theorem write_works (piece : Text) {m : Machine} (h : m.output.alarms = []) :
    ∃ m', write piece m = .ok () m' ∧ Worked m m' piece 0 ∧ m'.cursor = m.cursor := by
  obtain ⟨after, hafter, hquiet⟩ := Output.exists_write_of_quiet h piece
  refine ⟨{ m with output := after }, ?_, ?_, rfl⟩
  · simp only [write, hafter]
  · exact ⟨rfl, rfl, rfl, rfl, rfl, rfl, Output.text_write hafter, hquiet.trans h.symm, rfl⟩

theorem next_works {m : Machine} {l : Lexeme} {ls : List Lexeme} {below : Text}
    (h : m.cursor.Sees (l :: ls) below) :
    ∃ m', next m = .ok () m' ∧ Worked m m' [] 0 ∧ m'.cursor.Sees ls below := by
  obtain ⟨d, hd, hsees, hsheet⟩ := h.next
  exact ⟨_, onCursor_of_ok hd, worked_movedTo m hsheet, hsees⟩

theorem accept_works (expected : Kind) {m : Machine} {l : Lexeme} {ls : List Lexeme}
    {below : Text} (h : m.cursor.Sees (l :: ls) below) (hkind : l.kind = expected) :
    ∃ m', accept expected m = .ok () m' ∧ Worked m m' [] 0 ∧ m'.cursor.Sees ls below := by
  obtain ⟨m', hnext, hrest⟩ := next_works h
  refine ⟨m', ?_, hrest⟩
  rw [accept_apply, h.here_cons.1, if_pos hkind, hnext]

section
variable {α β : Type} {body : α → Run (Round α β)} {a b c : α} {m m' m'' : Machine}

/-- Rounds of a loop that go on, each with less to go. -/
inductive Rounds (body : α → Run (Round α β)) : α → Machine → α → Machine → Prop
  | refl (a : α) (m : Machine) : Rounds body a m a m
  | again {a b c : α} {m m' m'' : Machine} : body a m = .ok (.again b) m' → m'.toGo < m.toGo →
      Rounds body b m' c m'' → Rounds body a m c m''

theorem Rounds.trans (h : Rounds body a m b m') (h' : Rounds body b m' c m'') :
    Rounds body a m c m'' := by
  induction h with
  | refl => exact h'
  | again hbody hless _ ih => exact .again hbody hless (ih h')

theorem Rounds.one (h : body a m = .ok (.again b) m') (hless : m'.toGo < m.toGo) :
    Rounds body a m b m' :=
  .again h hless (.refl b m')

/-- A loop ends with the round that ends it. -/
theorem Rounds.iterate {r : β} (h : Rounds body a m b m') (hdone : body b m' = .ok (.done r) m'')
    {fuel : Nat} (hfuel : m.toGo < fuel) : iterate body fuel a m = .ok r m'' := by
  induction h generalizing fuel with
  | refl a m =>
      obtain ⟨n, rfl⟩ : ∃ n, fuel = n + 1 := ⟨fuel - 1, by omega⟩
      exact iterate_of_done hdone
  | again hbody hless _ ih =>
      obtain ⟨n, rfl⟩ : ∃ n, fuel = n + 1 := ⟨fuel - 1, by omega⟩
      rw [iterate_of_again hbody]
      exact ih hdone (by omega)

/-- A loop fails with the round that fails. -/
theorem Rounds.iterate_fails {f : Fault} (h : Rounds body a m b m')
    (herror : body b m' = .error f m'') {fuel : Nat} (hfuel : m.toGo < fuel) :
    LineBasic.iterate body fuel a m = .error f m'' := by
  induction h generalizing fuel with
  | refl a m =>
      obtain ⟨n, rfl⟩ : ∃ n, fuel = n + 1 := ⟨fuel - 1, by omega⟩
      exact iterate_of_error herror
  | again hbody hless _ ih =>
      obtain ⟨n, rfl⟩ : ∃ n, fuel = n + 1 := ⟨fuel - 1, by omega⟩
      rw [iterate_of_again hbody]
      exact ih herror (by omega)

end

end Machine

end LineBasic
