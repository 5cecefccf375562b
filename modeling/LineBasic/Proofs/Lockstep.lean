import LineBasic.Proofs.Machine

/-!
# Two machines in lockstep

Two machines run side by side over two texts. A `Coupling` relates their cursors
and says that the relation survives the moves; everything else of the machines is
to be the same, up to the places that errors point at. The lemmas below say that
the single actions keep such machines together. They are put together to
expressions, statements and steps in the modules that follow.

A coupling may leave slack at the very end: the left text ends where the right
one still has a line end. Then nothing is said of the right machine once the left
one has faulted. A machine coupled with itself gives the facts about a single run.
-/
namespace LineBasic

/-- Lexemes that the machine treats alike: letters of one register, and with slack
the end of the text and a last line end. -/
def Lexeme.Alike (slack : Prop) (l l' : Lexeme) : Prop :=
  l' = l ∨ (∃ a b, l = .letter a ∧ l' = .letter b ∧ Text.lower [b] = Text.lower [a]) ∨
    (slack ∧ l = .sourceEnd ∧ l' = .lineEnd)

namespace Lexeme.Alike

variable {slack : Prop} {l l' : Lexeme}

theorem kind_eq (h : Alike slack l l') (hend : l ≠ .sourceEnd) : l'.kind = l.kind := by
  rcases h with rfl | ⟨a, b, rfl, rfl, -⟩ | ⟨-, rfl, rfl⟩
  · rfl
  · rfl
  · contradiction

theorem ne_sourceEnd (h : Alike slack l l') (hend : l ≠ .sourceEnd) : l' ≠ .sourceEnd := by
  rcases h with rfl | ⟨a, b, rfl, rfl, -⟩ | ⟨-, rfl, rfl⟩
  · exact hend
  · nofun
  · nofun

theorem ne_remark (h : Alike slack l l') (hrem : l ≠ .keyword .REM) :
    l' ≠ .keyword .REM := by
  rcases h with rfl | ⟨a, b, rfl, rfl, -⟩ | ⟨-, rfl, rfl⟩
  · exact hrem
  · nofun
  · nofun

/-- Two lexemes that are alike are the same, unless they are letters or ends. -/
theorem eq_of_ne (h : Alike slack l l') (hletter : ∀ a, l ≠ .letter a)
    (hend : l ≠ .sourceEnd) : l' = l := by
  rcases h with rfl | ⟨a, b, rfl, -, -⟩ | ⟨-, rfl, -⟩
  · rfl
  · exact absurd rfl (hletter a)
  · exact absurd rfl hend

end Lexeme.Alike

/-- Tokens that end an item of a printed line, or come right before the first. -/
def Kind.endsItem : Kind → Bool
  | .keyword .PRINT | .string | .separator | .number | .letter | .symbol .closeParen => true
  | _ => false

/-- The same failure of a run, wherever it points at. No failure to read a lexeme
and no loop out of rounds is among them. -/
inductive Fault.Alike : Fault → Fault → Prop
  | error {cause : Cause} {here there : Option Mark} : cause.errorClass ≠ .lexical →
      Alike (.error ⟨cause, here, none⟩) (.error ⟨cause, there, none⟩)
  | unwritable : Alike .unwritable .unwritable
  | refused (r : Store.Refusal) : Alike (.refused r) (.refused r)
  | interrupted : Alike .interrupted .interrupted

def Notice.shown (n : Notice) : String × String := (n.colour, n.text)

/-- Reports that tell their reader the same. -/
structure Reports.Alike (r s : Reports) : Prop where
  tracing : r.tracing = s.tracing
  shown : r.notices.toList.map Notice.shown = s.notices.toList.map Notice.shown
  warnings : r.warnings = s.warnings
  errors : r.errors = s.errors
  trace : r.trace = s.trace

/-- The right cursor is at the end when the left one is. -/
def Cursor.Aligned (c d : Cursor) : Prop :=
  c.token.lexeme = .sourceEnd → d.token.lexeme = .sourceEnd

/-- Bounds on what lies ahead of two cursors. -/
def Cursor.Near (i j : Nat) (c d : Cursor) : Prop := c.ahead.length < i ∧ d.ahead.length < j

/-- A relation of sound cursors that the moves of a machine keep. `Edge` is the
relation between two items of a printed line, where the stricter rule for line
numbers is asked. -/
structure Coupling where
  slack : Prop
  Rel : Cursor → Cursor → Prop
  Edge : Cursor → Cursor → Prop
  left : ∀ {c d}, Rel c d → c.Sound
  right : ∀ {c d}, Rel c d → d.Sound
  alike : ∀ {c d}, Rel c d → Lexeme.Alike slack c.token.lexeme d.token.lexeme
  line : ∀ {c d}, Rel c d → c.lineNumber? true = d.lineNumber? true
  edge : ∀ {c d}, Edge c d → c.lineNumber? false = d.lineNumber? false
  next : ∀ {c d c' d'}, Rel c d → c.token.lexeme ≠ .sourceEnd →
    c.token.lexeme ≠ .keyword .REM → Cursor.next c = .ok () c' → Cursor.next d = .ok () d' →
      Rel c' d' ∧ (c.token.kind.endsItem = true → Edge c' d')
  finish : ∀ {c d d'}, Rel c d → c.token.lexeme = .sourceEnd → d.token.lexeme = .lineEnd →
    Cursor.next d = .ok () d' → Rel c d' ∧ d'.token.lexeme = .sourceEnd
  skip : ∀ {c d c' d'}, Rel c d → c.token.lexeme ≠ .sourceEnd →
    Cursor.skipLine c = .ok () c' → Cursor.skipLine d = .ok () d' → Rel c' d'
  start : ∀ {c d c' d'}, Rel c d → Cursor.start c.sheet = .ok c' →
    Cursor.start d.sheet = .ok d' → Rel c' d'

/-- Started machines with coupled cursors, of which `E` says more, and the same
otherwise. -/
structure Paired (k : Coupling) (E : Cursor → Cursor → Prop) (m n : Machine) : Prop where
  cursor : k.Rel m.cursor n.cursor
  extra : E m.cursor n.cursor
  index : m.index = n.index
  store : m.store = n.store
  size : m.size = n.size
  output : m.output = n.output
  reports : m.reports.Alike n.reports
  started : m.started = true ∧ n.started = true
  finished : m.finished = n.finished

/-- Nothing more about the cursors. -/
def Anywhere (_ _ : Cursor) : Prop := True

/-- Results that keep two machines together. -/
inductive Agree (k : Coupling) {α β : Type} (post : α → β → Machine → Machine → Prop) :
    EStateM.Result Fault Machine α → EStateM.Result Fault Machine β → Prop
  | ok {a : α} {b : β} {m n : Machine} : post a b m n → Agree k post (.ok a m) (.ok b n)
  | error {f g : Fault} {m n : Machine} : f.Alike g → Paired k Anywhere m n →
      Agree k post (.error f m) (.error g n)
  | lost {f : Fault} {m : Machine} {r : EStateM.Result Fault Machine β} : k.slack →
      Agree k post (.error f m) r

/-- Rounds of two loops from two machines: both go on, further on, or both end. The
right loop may also end one round later, at a last line end. -/
def RoundAgrees {α β γ δ : Type} (body : β → Run (Round β δ))
    (P : α → β → Machine → Machine → Prop) (Q : γ → δ → Machine → Machine → Prop)
    (m n : Machine) : Round α γ → Round β δ → Machine → Machine → Prop
  | .again a, .again b, m', n' => P a b m' n' ∧ m'.toGo < m.toGo ∧ n'.toGo < n.toGo
  | .done c, .done d, m', n' => Q c d m' n'
  | .done c, .again b, m', n' =>
      n'.toGo < n.toGo ∧ ∃ d last, body b n' = .ok (.done d) last ∧ Q c d m' last
  | .again _, .done _, _, _ => False

namespace Agree

variable {k : Coupling} {α β γ δ : Type} {m n : Machine}
variable {P : α → β → Machine → Machine → Prop} {Q : γ → δ → Machine → Machine → Prop}

theorem bind {x : Run α} {y : Run β} {f : α → Run γ} {g : β → Run δ}
    (h : Agree k P (x m) (y n)) (hf : ∀ a b m n, P a b m n → Agree k Q (f a m) (g b n)) :
    Agree k Q ((x >>= f) m) ((y >>= g) n) := by
  rw [bind_apply, bind_apply]
  generalize x m = r at h ⊢
  generalize y n = s at h ⊢
  cases h with
  | ok hp => exact hf _ _ _ _ hp
  | error hf hm => exact .error hf hm
  | lost hs => exact .lost hs

theorem mono {P' : α → β → Machine → Machine → Prop}
    {r : EStateM.Result Fault Machine α} {s : EStateM.Result Fault Machine β}
    (h : Agree k P r s) (hp : ∀ a b m n, P a b m n → P' a b m n) : Agree k P' r s := by
  cases h with
  | ok h => exact .ok (hp _ _ _ _ h)
  | error hf hm => exact .error hf hm
  | lost hs => exact .lost hs

/-- A loop whose rounds keep two machines together and take both further on. The
bounds on the rounds need not be the same. -/
theorem iterate {body : α → Run (Round α γ)} {body' : β → Run (Round β δ)}
    (hbody : ∀ a b m n, P a b m n →
      Agree k (RoundAgrees body' P Q m n) (body a m) (body' b n))
    {rounds rounds' : Nat} {a : α} {b : β} (h : P a b m n) (hm : m.toGo < rounds)
    (hn : n.toGo < rounds') :
    Agree k Q (LineBasic.iterate body rounds a m) (LineBasic.iterate body' rounds' b n) := by
  induction rounds generalizing rounds' a b m n with
  | zero => omega
  | succ rounds ih =>
      obtain ⟨rounds', rfl⟩ : ∃ r, rounds' = r + 1 := ⟨rounds' - 1, by omega⟩
      apply bind (hbody a b m n h)
      rintro (a' | c) (b' | d) m' n' hround
      · obtain ⟨hp, hless, hless'⟩ := hround
        exact ih hp (by omega) (by omega)
      · exact hround.elim
      · obtain ⟨hless, d, last, hlast, hq⟩ := hround
        obtain ⟨rounds', rfl⟩ : ∃ r, rounds' = r + 1 := ⟨rounds' - 1, by omega⟩
        simp only [iterate_of_done hlast]
        exact .ok hq
      · exact .ok hround

end Agree

namespace Paired

variable {k : Coupling} {E F : Cursor → Cursor → Prop} {m n : Machine}

theorem mono (h : Paired k E m n) (hE : E m.cursor n.cursor → F m.cursor n.cursor) :
    Paired k F m n :=
  { h with extra := hE h.extra }

theorem anywhere (h : Paired k E m n) : Paired k Anywhere m n := h.mono fun _ => trivial

/-- Machines whose cursors have not moved. -/
theorem here (h : Paired k E m n) :
    Paired k (fun c d => c = m.cursor ∧ d = n.cursor) m n :=
  h.mono fun _ => ⟨rfl, rfl⟩

theorem withReports (h : Paired k E m n) {r s : Reports} (hr : r.Alike s) :
    Paired k E { m with reports := r } { n with reports := s } :=
  { h with reports := hr }

end Paired

namespace Reports.Alike

variable {r s : Reports}

theorem noted (h : r.Alike s) (event : Event) : (r.noted event).Alike (s.noted event) := by
  unfold Reports.noted
  rw [← h.tracing]
  split
  · exact { h with tracing := rfl, trace := by simp [h.trace] }
  · exact h

/-- Errors of the same text are shown alike. -/
theorem reported (h : r.Alike s) {e e' : Error} (he : e.text = e'.text) :
    (r.reported e).Alike (s.reported e') :=
  { h with
    errors := by simp [Reports.reported, h.errors]
    shown := by simp [Reports.reported, h.shown, Notice.shown, Notice.text, Notice.colour, he] }

end Reports.Alike

section
open Machine
variable {k : Coupling} {E : Cursor → Cursor → Prop} {m n : Machine}

theorem note_agree (h : Paired k E m n) (event : Event) :
    Agree k (fun _ _ => Paired k E) (note event m) (note event n) := by
  rw [note_apply, note_apply, ← h.reports.tracing]
  split
  · exact .error .unwritable h.anywhere
  · exact .ok (h.withReports (h.reports.noted event))

theorem failHere_agree {α β : Type} {P : α → β → Machine → Machine → Prop} {cause : Cause}
    (h : Paired k E m n) (hc : cause.errorClass ≠ .lexical) :
    Agree k P (failHere cause m) (failHere cause n) := by
  rw [failHere_apply, failHere_apply]
  exact .error (.error hc) (h.anywhere.withReports (h.reports.reported rfl))

theorem failLine_agree {α β : Type} {P : α → β → Machine → Machine → Prop} {number : Int}
    {cause : Int → Cause} (h : Paired k E m n) (hc : (cause number).errorClass ≠ .lexical) :
    Agree k P (failLine number cause m) (failLine number cause n) := by
  rw [failLine_apply, failLine_apply]
  split
  · exact .error (.error hc) (h.anywhere.withReports (h.reports.reported rfl))
  · exact .error .unwritable h.anywhere

theorem write_agree (h : Paired k E m n) (piece : Text) :
    Agree k (fun _ _ => Paired k E) (write piece m) (write piece n) := by
  simp only [write, ← h.output]
  cases hw : Output.write piece m.output with
  | ok _ output => exact .ok { h with output := rfl }
  | error fault output =>
      obtain ⟨rfl, -⟩ := Output.write_error hw
      exact .error .interrupted { h.anywhere with output := rfl }

theorem register_agree (h : Paired k E m n) (name : Text) :
    Agree k (fun a b m n => b = a ∧ Paired k E m n) (register name m) (register name n) := by
  simp only [register, get_bind_apply, ← h.store]
  cases m.store.read name with
  | ok value => exact .ok ⟨rfl, h⟩
  | error refusal => exact .error (.refused refusal) h.anywhere

theorem assign_agree (h : Paired k E m n) (name : Text) (value : Int) :
    Agree k (fun _ _ => Paired k E) (assign name value m) (assign name value n) := by
  simp only [assign, get_bind_apply, ← h.store]
  cases m.store.assign name value with
  | ok store => exact .ok { h with store := rfl }
  | error refusal => exact .error (.refused refusal) h.anywhere

theorem warn_agree (h : Paired k E m n) (message : String) :
    Agree k (fun _ _ => Paired k E) (onReports (Reports.warn message) m)
      (onReports (Reports.warn message) n) := by
  rw [warn_apply, warn_apply]
  refine .ok (h.withReports ?_)
  have hr := h.reports
  exact { hr with
    warnings := by simp [hr.warnings]
    shown := by simp [hr.shown]
    trace := by simp [hr.tracing, hr.warnings, hr.trace] }

abbrev Past (m n : Machine) : Cursor → Cursor → Prop := Cursor.Near m.toGo n.toGo

/-- Coupled cursors step over their tokens together, and come to an edge behind
what ends an item. -/
theorem next_agree (h : Paired k E m n) (hend : m.cursor.token.lexeme ≠ .sourceEnd)
    (hrem : m.cursor.token.lexeme ≠ .keyword .REM) :
    Agree k (fun _ _ => Paired k fun c d => Past m n c d ∧
      (m.cursor.token.kind.endsItem = true → k.Edge c d)) (next m) (next n) := by
  have halike := k.alike h.cursor
  obtain ⟨c, hc, -, -, -, hless⟩ := (k.left h.cursor).next hend hrem
  obtain ⟨d, hd, -, -, -, hless'⟩ :=
    (k.right h.cursor).next (halike.ne_sourceEnd hend) (halike.ne_remark hrem)
  obtain ⟨hrel, hedge⟩ := k.next h.cursor hend hrem hc hd
  unfold next
  rw [onCursor_of_ok hc, onCursor_of_ok hd]
  exact .ok { h with cursor := hrel, extra := ⟨⟨hless, hless'⟩, hedge⟩ }

theorem skipLine_agree (h : Paired k E m n) (hend : m.cursor.token.lexeme ≠ .sourceEnd) :
    Agree k (fun _ _ => Paired k (Past m n)) (skipLine m) (skipLine n) := by
  obtain ⟨c, hc, -, -, -, hless⟩ := (k.left h.cursor).skipLine hend
  obtain ⟨d, hd, -, -, -, hless'⟩ :=
    (k.right h.cursor).skipLine ((k.alike h.cursor).ne_sourceEnd hend)
  unfold skipLine
  rw [onCursor_of_ok hc, onCursor_of_ok hd]
  exact .ok { h with cursor := k.skip h.cursor hend hc hd, extra := ⟨hless, hless'⟩ }

theorem reset_agree (h : Paired k E m n) :
    Agree k (fun _ _ => Paired k Anywhere) (onCursor Cursor.reset m)
      (onCursor Cursor.reset n) := by
  obtain ⟨c, hc, -⟩ := (k.left h.cursor).start
  obtain ⟨d, hd, -⟩ := (k.right h.cursor).start
  rw [onCursor_of_ok (Cursor.reset_of_start hc), onCursor_of_ok (Cursor.reset_of_start hd)]
  exact .ok { h with cursor := k.start h.cursor hc hd, extra := trivial }

/-- A token of an expected kind is passed by both, or fails both. -/
theorem accept_agree (h : Paired k E m n) {expected : Kind} (hend : expected ≠ .sourceEnd)
    (hrem : expected ≠ .keyword .REM) :
    Agree k (fun _ _ => Paired k fun c d => Past m n c d ∧
      (expected.endsItem = true → k.Edge c d)) (accept expected m)
      (accept expected n) := by
  rw [accept_apply, accept_apply]
  by_cases hkind : m.cursor.token.lexeme.kind = expected
  · have hm : m.cursor.token.lexeme ≠ .sourceEnd := fun hl =>
      hend (hkind ▸ Lexeme.kind_eq_sourceEnd.2 hl)
    have hr : m.cursor.token.lexeme ≠ .keyword .REM := fun hl =>
      hrem (hkind ▸ Lexeme.kind_eq_keyword.2 hl)
    rw [(k.alike h.cursor).kind_eq hm, if_pos hkind, if_pos hkind]
    subst hkind
    exact next_agree h hm hr
  · rw [if_neg hkind]
    rcases k.alike h.cursor with hl | ⟨a, b, hl, -, -⟩ | ⟨hs, -, -⟩
    · rw [hl, if_neg hkind]
      exact failHere_agree h (by simp [Cause.errorClass])
    · rw [(k.alike h.cursor).kind_eq (by simp [hl]), if_neg hkind]
      exact failHere_agree h (by simp [Cause.errorClass])
    · exact .lost hs

end

namespace Coupling

variable (k : Coupling)

/-- Surveys of coupled texts record the same numbers. With slack the right one has a
last line end to pass, which records nothing. -/
theorem survey_index {fuel fuel' : Nat} {l r : Listing}
    (hrel : k.Rel l.cursor r.cursor) (hindex : r.index = l.index)
    (hfuel : l.cursor.ahead.length < fuel) (hfuel' : r.cursor.ahead.length < fuel') :
    ∃ after after', iterate Listing.surveyToken fuel () l = .ok () after ∧
      iterate Listing.surveyToken fuel' () r = .ok () after' ∧
      after'.index = after.index := by
  induction fuel generalizing fuel' l r with
  | zero => omega
  | succ fuel ih =>
      obtain ⟨fuel', rfl⟩ : ∃ q, fuel' = q + 1 := ⟨fuel' - 1, by omega⟩
      have halike := k.alike hrel
      have hstep := l.surveyToken_eq
      have hstep' := r.surveyToken_eq
      by_cases hend : l.cursor.token.lexeme = .sourceEnd
      · rw [if_pos hend] at hstep
        by_cases hend' : r.cursor.token.lexeme = .sourceEnd
        · rw [if_pos hend'] at hstep'
          exact ⟨l, r, iterate_of_done hstep, iterate_of_done hstep', hindex⟩
        · have hline : r.cursor.token.lexeme = .lineEnd := by
            rcases halike with hl | ⟨a, b, hl, -, -⟩ | ⟨-, -, hl⟩
            · exact absurd (hl.trans hend) hend'
            · exact absurd (hl.symm.trans hend) (by simp)
            · exact hl
          have hrem' : r.cursor.token.lexeme ≠ .keyword .REM := by simp [hline]
          obtain ⟨d, hd, -, -, -, hless⟩ := (k.right hrel).next hend' hrem'
          have hlast := (k.finish hrel hend hline hd).2
          rw [if_neg hend', if_neg hrem', hd] at hstep'
          obtain ⟨rounds, rfl⟩ : ∃ q, fuel' = q + 1 := ⟨fuel' - 1, by omega⟩
          have hlast' := Listing.surveyToken_eq ⟨d, r.noted⟩
          rw [if_pos hlast] at hlast'
          have hnoted : r.noted = r.index := by
            simp [Listing.noted, Cursor.lineNumber?, hline]
          exact ⟨l, _, iterate_of_done hstep,
            (iterate_of_again hstep').trans (iterate_of_done hlast'), hnoted.trans hindex⟩
      · have hend' := halike.ne_sourceEnd hend
        rw [if_neg hend] at hstep
        rw [if_neg hend'] at hstep'
        by_cases hrem : l.cursor.token.lexeme = .keyword .REM
        · have hrem' : r.cursor.token.lexeme = .keyword .REM :=
            (halike.eq_of_ne (by simp [hrem]) hend).trans hrem
          obtain ⟨c, hc, -, -, -, hless⟩ := (k.left hrel).skipLine hend
          obtain ⟨d, hd, -, -, -, hless'⟩ := (k.right hrel).skipLine hend'
          rw [if_pos hrem, hc] at hstep
          rw [if_pos hrem', hd] at hstep'
          rw [iterate_of_again hstep, iterate_of_again hstep']
          exact ih (k.skip hrel hend hc hd) hindex (by simp only; omega) (by simp only; omega)
        · have hrem' := halike.ne_remark hrem
          obtain ⟨c, hc, -, -, -, hless⟩ := (k.left hrel).next hend hrem
          obtain ⟨d, hd, -, -, -, hless'⟩ := (k.right hrel).next hend' hrem'
          rw [if_neg hrem, hc] at hstep
          rw [if_neg hrem', hd] at hstep'
          rw [iterate_of_again hstep, iterate_of_again hstep']
          refine ih (k.next hrel hend hrem hc hd).1 ?_ (by simp only; omega) (by simp only; omega)
          simp only [Listing.noted, k.line hrel, hindex]

/-- Surveys of coupled texts give the same index and end at coupled places. -/
theorem build_agree {l r : Listing} (hrel : k.Rel l.cursor r.cursor) :
    ∃ c d index, Listing.build l = .ok () ⟨c, index⟩ ∧ Listing.build r = .ok () ⟨d, index⟩ ∧
      k.Rel c d := by
  obtain ⟨c, hc, -⟩ := (k.left hrel).start
  obtain ⟨d, hd, -⟩ := (k.right hrel).start
  have hfirst := k.start hrel hc hd
  have hshort : ∀ e : Cursor, e.ahead.length < e.sheet.text.length + 1 := by
    intro e
    simp only [Cursor.ahead, List.length_drop]
    omega
  obtain ⟨after, after', hsurvey, hsurvey', hsame⟩ :=
    k.survey_index (l := ⟨c, .empty⟩) (r := ⟨d, .empty⟩) hfirst rfl (hshort c) (hshort d)
  rcases Listing.build_outcome hc with ⟨index, hbuild, -, -⟩ | ⟨_, _, -, -, -, hnot⟩
  · rcases Listing.build_outcome hd with ⟨index', hbuild', -, -⟩ | ⟨_, _, -, -, -, hnot⟩
    · have heq := (Listing.build_eq hc).symm.trans hbuild
      have heq' := (Listing.build_eq hd).symm.trans hbuild'
      rw [hsurvey] at heq
      rw [hsurvey'] at heq'
      have hindex : index = after.index := Listing.index_of_onCursor heq
      have hindex' : index' = after'.index := Listing.index_of_onCursor heq'
      have hboth : index' = index := by rw [hindex, hindex', hsame]
      exact ⟨c, d, index, hbuild, hboth ▸ hbuild', hfirst⟩
    · exact absurd (k.right hrel).whole hnot
  · exact absurd (k.left hrel).whole hnot

end Coupling

section
open Machine
variable {k : Coupling} {E : Cursor → Cursor → Prop} {m n : Machine}

theorem buildIndex_agree (h : Paired k E m n) :
    Agree k (fun _ _ => Paired k Anywhere) (buildIndex m) (buildIndex n) := by
  apply (note_agree h .indexing).bind
  intro _ _ m n h
  obtain ⟨c, d, index, hbuild, hbuild', hrel⟩ := k.build_agree h.cursor
  have hlisting : onListing Listing.build m = .ok () { m with listing := ⟨c, index⟩ } := by
    unfold onListing
    rw [hbuild]
  have hlisting' : onListing Listing.build n = .ok () { n with listing := ⟨d, index⟩ } := by
    unfold onListing
    rw [hbuild']
  rw [bind_of_ok hlisting, bind_of_ok hlisting']
  have hbuilt : Paired k Anywhere { m with listing := ⟨c, index⟩ }
      { n with listing := ⟨d, index⟩ } :=
    { h with cursor := hrel, extra := trivial, index := rfl }
  exact note_agree hbuilt (.indexed index.numbers)

end

end LineBasic
