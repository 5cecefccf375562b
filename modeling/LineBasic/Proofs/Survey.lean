import LineBasic.Proofs.Action
import LineBasic.Proofs.Footing

/-!
# The survey of a text

Building the line index drives the cursor through the whole text. On a text that
can be read to its end the survey succeeds, the cursor is back at the start, and
the index holds exactly the line numbers that were visited; on any other text it
stops with a failure to read a lexeme.
-/
namespace LineBasic

namespace Text

/-- Whether a line number may stand right before a text. -/
def closes (atEnd : Bool) (t : Text) : Bool :=
  match t.head? with
  | some follower => Cursor.mayFollow follower
  | none => atEnd

/-- A number that a survey of the text records. -/
def Numbers (t : Text) (k : Nat) : Prop :=
  ∃ u n, t.Visits u ∧ Lexeme.read u = .ok (.number k, n) ∧ Cursor.isLineNumber k = true ∧
    closes true (u.drop n) = true

namespace Visits

variable {t u : Text} {l : Lexeme} {n : Nat}

theorem of_token (hr : Lexeme.read t.pastGap = .ok (l, n)) (hrem : l ≠ .keyword .REM)
    (h : Visits (t.pastGap.drop n) u) : Visits t u := by
  induction h with
  | first => exact .token .first hr hrem
  | token _ hr' hrem' ih => exact .token ih hr' hrem'
  | remark _ hr' ih => exact .remark ih hr'

theorem of_remark (hr : Lexeme.read t.pastGap = .ok (.keyword .REM, n))
    (h : Visits t.pastGap.afterLine u) : Visits t u := by
  induction h with
  | first => exact .remark .first hr
  | token _ hr' hrem' ih => exact .token ih hr' hrem'
  | remark _ hr' ih => exact .remark ih hr'

/-- Every visited place is the first one or is visited from behind the first lexeme. -/
theorem first_or_behind (hr : Lexeme.read t.pastGap = .ok (l, n)) (h : Visits t u) :
    u = t.pastGap ∨
      Visits (if l = .keyword .REM then t.pastGap.afterLine else t.pastGap.drop n) u := by
  induction h with
  | first => exact .inl rfl
  | token _ hr' hrem' ih =>
      right
      rcases ih with rfl | ih
      · cases hr.symm.trans hr'
        rw [if_neg hrem']
        exact .first
      · exact .token ih hr' hrem'
  | remark _ hr' ih =>
      right
      rcases ih with rfl | ih
      · cases hr.symm.trans hr'
        rw [if_pos rfl]
        exact .first
      · exact .remark ih hr'

theorem pastGap_iff : Visits t.pastGap u ↔ Visits t u := by
  constructor
  · intro h
    induction h with
    | first => rw [pastGap_pastGap]; exact .first
    | token _ hr hrem ih => exact .token ih hr hrem
    | remark _ hr ih => exact .remark ih hr
  · intro h
    induction h with
    | first =>
        have hfirst : Visits t.pastGap t.pastGap.pastGap := .first
        rwa [pastGap_pastGap] at hfirst
    | token _ hr hrem ih => exact .token ih hr hrem
    | remark _ hr ih => exact .remark ih hr

theorem eq_nil (hend : t.pastGap = []) (h : Visits t u) : u = [] := by
  induction h with
  | first => exact hend
  | token _ _ _ ih => rw [ih, List.drop_nil]; rfl
  | remark _ _ ih => rw [ih]; rfl

/-- The line below a visited place is visited. -/
theorem afterLine (hr : u.Readable) (h : Visits t u.pastGap) :
    Visits t u.afterLine.pastGap := by
  induction hr with
  | @done u he =>
      rw [he] at h
      rw [← afterLine_pastGap, he]
      exact h
  | @token u l n hread _ hrem _ ih =>
      have hs := Lexeme.read_spans hread
      have hbehind := h.token hread hrem
      rw [← afterLine_pastGap]
      by_cases hl : l = .lineEnd
      · obtain ⟨rest, hrest, rfl⟩ := hs.lineEnd hl
        rw [hrest] at hbehind ⊢
        exact hbehind
      · rw [← afterLine_drop (hs.inLine hl)]
        exact ih hbehind
  | @remark u n hread _ _ =>
      rw [← afterLine_pastGap]
      exact h.remark hread

end Visits

/-- What a survey records of the first lexeme, and what behind it. -/
theorem numbers_iff {t : Text} {l : Lexeme} {n : Nat}
    (hr : Lexeme.read t.pastGap = .ok (l, n)) (k : Nat) :
    t.Numbers k ↔
      (l = .number k ∧ Cursor.isLineNumber k = true ∧ closes true (t.pastGap.drop n) = true) ∨
      Numbers (if l = .keyword .REM then t.pastGap.afterLine else t.pastGap.drop n) k := by
  constructor
  · rintro ⟨u, m, hv, hu, hk⟩
    rcases hv.first_or_behind hr with rfl | hv
    · cases hr.symm.trans hu
      exact .inl ⟨rfl, hk⟩
    · exact .inr ⟨u, m, hv, hu, hk⟩
  · rintro (⟨rfl, hk⟩ | ⟨u, m, hv, hu, hk⟩)
    · exact ⟨_, n, .first, hr, hk⟩
    · refine ⟨u, m, ?_, hu, hk⟩
      by_cases hrem : l = .keyword .REM
      · subst hrem
        exact .of_remark hr (by simpa using hv)
      · exact .of_token hr hrem (by simpa [hrem] using hv)

theorem not_numbers_of_end {t : Text} (h : t.pastGap = []) (k : Nat) : ¬ t.Numbers k := by
  rintro ⟨u, n, hv, hr, -, -⟩
  rw [hv.eq_nil h] at hr
  cases hr

theorem numbers_pastGap {t : Text} {k : Nat} : t.pastGap.Numbers k ↔ t.Numbers k := by
  simp only [Numbers, Visits.pastGap_iff]

end Text

namespace Cursor

theorem closes_eq (c : Cursor) (atEnd : Bool) : c.closes atEnd = Text.closes atEnd c.behind := by
  have hpeek : c.peek? = c.behind.head? := List.head?_drop.symm
  unfold closes Text.closes
  cases hb : c.behind.head? with
  | none => simp only [hpeek, hb]
  | some follower => simp only [hpeek, hb]

/-- The line number under a cursor, from the text alone. -/
theorem lineNumber?_eq_some {c : Cursor} {atEnd : Bool} {k : Nat} :
    c.lineNumber? atEnd = some k ↔
      c.token.lexeme = .number k ∧ isLineNumber k = true ∧
        Text.closes atEnd c.behind = true := by
  unfold lineNumber?
  rw [closes_eq]
  cases c.token.lexeme with
  | number value =>
      simp only [Option.ite_none_right_eq_some, Option.some.injEq, Bool.and_eq_true,
        Lexeme.number.injEq]
      constructor
      · rintro ⟨⟨hl, hc⟩, rfl⟩
        exact ⟨rfl, hl, hc⟩
      · rintro ⟨rfl, hl, hc⟩
        exact ⟨⟨hl, hc⟩, rfl⟩
  | _ => simp

end Cursor

namespace LineIndex

theorem has_iff (index : LineIndex) (number : Nat) :
    index.has number = true ↔ number ∈ index.numbers := by
  simp only [has, List.any_eq_true, beq_iff_eq]
  constructor
  · rintro ⟨known, hknown, hsame⟩
    rwa [← Int.ofNat_inj.1 hsame]
  · exact fun hmem => ⟨number, hmem, rfl⟩

end LineIndex

namespace Listing

/-- The index after the survey has passed the current token. -/
def noted (l : Listing) : LineIndex :=
  match l.cursor.lineNumber? true with
  | some number => l.index.insert number
  | none => l.index

theorem mem_noted (l : Listing) (k : Nat) :
    k ∈ l.noted.numbers ↔ l.cursor.lineNumber? true = some k ∨ k ∈ l.index.numbers := by
  unfold noted
  cases l.cursor.lineNumber? true with
  | none => simp
  | some number =>
      simp only [LineIndex.insert, LineIndex.mem_insertInto, Option.some.injEq]
      rw [eq_comm]

/-- Where the survey of a listing comes to after one token. -/
theorem surveyToken_eq (l : Listing) :
    surveyToken () l =
      if l.cursor.token.lexeme = .sourceEnd then .ok (.done ()) l
      else if l.cursor.token.lexeme = .keyword .REM then
        match Cursor.skipLine l.cursor with
        | .ok _ c => .ok (.again ()) { l with cursor := c }
        | .error f c => .error f { l with cursor := c }
      else
        match Cursor.next l.cursor with
        | .ok _ c => .ok (.again ()) ⟨c, l.noted⟩
        | .error f c => .error f ⟨c, l.noted⟩ := by
  unfold surveyToken noted
  rw [get_bind_apply]
  generalize l.cursor.token.lexeme = lexeme
  split
  · rw [if_pos rfl]
    rfl
  · rw [if_neg (by simp), if_pos rfl, bind_apply]
    unfold onCursor
    cases Cursor.skipLine l.cursor <;> rfl
  · rename_i hend hrem
    rw [if_neg (hend ·), if_neg (hrem ·)]
    cases l.cursor.lineNumber? true with
    | some number =>
        change (onCursor Cursor.next >>= fun _ => pure (Round.again ()))
          ⟨l.cursor, l.index.insert number⟩ = _
        rw [bind_apply]
        unfold onCursor
        cases Cursor.next l.cursor <;> rfl
    | none =>
        change (onCursor Cursor.next >>= fun _ => pure (Round.again ())) l = _
        rw [bind_apply]
        unfold onCursor
        cases Cursor.next l.cursor <;> rfl

/-- Both kinds of move go to an offset, behind the token or behind its line, and the
token's line number is recorded on the way. -/
theorem surveyToken_eq_moveTo {l : Listing} (hp : l.cursor.Placed)
    (hend : l.cursor.token.lexeme ≠ .sourceEnd) :
    ∃ origin pos index,
      (surveyToken () l = match Cursor.moveTo origin pos l.cursor with
        | .ok _ c => .ok (.again ()) ⟨c, index⟩
        | .error f c => .error f ⟨c, index⟩) ∧
      l.cursor.sheet.text.drop pos =
        (if l.cursor.token.lexeme = .keyword .REM then l.cursor.ahead.afterLine
          else l.cursor.ahead.drop (l.cursor.token.stop - l.cursor.token.start)) ∧
      ∀ k, k ∈ index.numbers ↔ k ∈ l.index.numbers ∨ l.cursor.lineNumber? true = some k := by
  have hstep := surveyToken_eq l
  rw [if_neg hend] at hstep
  by_cases hrem : l.cursor.token.lexeme = .keyword .REM
  · refine ⟨l.cursor.skipOrigin, l.cursor.skipOffset, l.index, ?_, ?_, fun k => ?_⟩
    · rw [hstep, if_pos hrem, Cursor.skipLine_eq_moveTo hend]
    · rw [if_pos hrem, l.cursor.drop_skipOffset]
    · simp [Cursor.lineNumber?_eq_some, hrem]
  · refine ⟨l.cursor.nextOrigin, l.cursor.token.stop, l.noted, ?_, ?_, fun k => ?_⟩
    · rw [hstep, if_neg hrem, Cursor.next_eq_moveTo hend]
    · rw [if_neg hrem, ← hp.behind_eq]
      rfl
    · rw [l.mem_noted, or_comm]

/-- The survey from a placed cursor on: it reaches the end of a readable text with
all its line numbers, and it fails in any other. -/
theorem iterate_surveyToken (fuel : Nat) (l : Listing) (hp : l.cursor.Placed)
    (hfuel : l.cursor.ahead.length < fuel) :
    (∃ after, iterate surveyToken fuel () l = .ok () after ∧
        after.cursor.sheet = l.cursor.sheet ∧ l.cursor.ahead.Readable ∧
        ∀ k, k ∈ after.index.numbers ↔ k ∈ l.index.numbers ∨ l.cursor.ahead.Numbers k) ∨
      ∃ f after, iterate surveyToken fuel () l = .error f after ∧
        after.cursor.sheet = l.cursor.sheet ∧ f.Lexical ∧ ¬ l.cursor.ahead.Readable := by
  induction fuel generalizing l with
  | zero => omega
  | succ fuel ih =>
      by_cases hend : l.cursor.token.lexeme = .sourceEnd
      · have hstep := surveyToken_eq l
        rw [if_pos hend] at hstep
        have hnil : l.cursor.ahead = [] := hp.spans.ending.1 hend
        refine .inl ⟨l, iterate_of_done hstep, rfl, ?_, fun k => ?_⟩
        · rw [hnil]
          exact .done rfl
        · rw [hnil]
          simp [Text.not_numbers_of_end (t := []) rfl k]
      obtain ⟨origin, pos, index, hbody, hdrop, hindex⟩ := surveyToken_eq_moveTo hp hend
      have hreadable := hp.readable_rest_iff hend
      have hshort := hp.length_rest_lt hend
      have hread := hp.here
      rw [← hp.settled] at hread
      have hnumbers := Text.numbers_iff hread
      simp only [hp.settled] at hnumbers
      rw [← hdrop] at hreadable hshort hnumbers
      cases hr : Lexeme.read (Text.pastGap (l.cursor.sheet.text.drop pos)) with
      | error f =>
          rw [Cursor.moveTo_of_fault origin hr] at hbody
          refine .inr ⟨_, _, iterate_of_error hbody, rfl, Sheet.lexical_fault .., ?_⟩
          intro h
          obtain ⟨_, _, hok⟩ := (hreadable.2 h).read
          cases hr.symm.trans hok
      | ok found =>
          rw [Cursor.moveTo_of_read origin hr] at hbody
          have hlen := Text.length_pastGap_le (l.cursor.sheet.text.drop pos)
          have hrest := ih ⟨l.cursor.landed origin pos found.1 found.2, index⟩
            (Cursor.placed_landed origin hr) (by rw [Cursor.ahead_landed]; omega)
          simp only [Cursor.ahead_landed, Text.Readable.pastGap_iff, Text.numbers_pastGap,
            hreadable] at hrest
          rw [iterate_of_again hbody]
          rcases hrest with ⟨after, hok, hsheet, honward, hmem⟩ | hfail
          · refine .inl ⟨after, hok, hsheet, honward, fun k => ?_⟩
            rw [hmem, hindex, hnumbers, Cursor.lineNumber?_eq_some, hp.behind_eq, or_assoc]
          · exact .inr hfail

/-- A survey is one from the first token on, whatever listing it starts from. -/
theorem build_eq {first : Cursor} {l : Listing} (h : Cursor.start l.cursor.sheet = .ok first) :
    build l = match iterate surveyToken (first.sheet.text.length + 1) () ⟨first, .empty⟩ with
      | .ok _ after => onCursor Cursor.reset after
      | .error f after => .error f after := by
  have hreset : onCursor Cursor.reset { l with index := .empty } = .ok () ⟨first, .empty⟩ := by
    unfold onCursor
    rw [Cursor.reset_of_start h]
  unfold build
  rw [modify_bind_apply, bind_of_ok hreset, get_bind_apply, bind_apply]
  have hmoves : (⟨first, .empty⟩ : Listing).moves = first.sheet.text.length + 1 := rfl
  rw [hmoves]
  cases iterate surveyToken (first.sheet.text.length + 1) () ⟨first, .empty⟩ <;> rfl

theorem index_of_onCursor {action : EStateM Fault Cursor Unit} {l after : Listing}
    (h : onCursor action l = .ok () after) : after.index = l.index := by
  unfold onCursor at h
  split at h
  · cases h
    rfl
  · cases h

/-- A survey ends at the first token with the line numbers of a readable text, and
fails in any other text. -/
theorem build_outcome {first : Cursor} {l : Listing}
    (h : Cursor.start l.cursor.sheet = .ok first) :
    (∃ index, build l = .ok () ⟨first, index⟩ ∧ l.cursor.sheet.text.Readable ∧
        ∀ k, k ∈ index.numbers ↔ l.cursor.sheet.text.Numbers k) ∨
      ∃ f after, build l = .error f after ∧ after.cursor.sheet = l.cursor.sheet ∧ f.Lexical ∧
        ¬ l.cursor.sheet.text.Readable := by
  have hsheet := Cursor.sheet_of_start h
  have hself : Cursor.start first.sheet = .ok first := by rw [hsheet, h]
  have hshort : first.ahead.length < first.sheet.text.length + 1 := by
    rw [Cursor.ahead_of_start hself]
    exact Nat.lt_succ_of_le (Text.length_pastGap_le _)
  have hsurvey := iterate_surveyToken _ ⟨first, .empty⟩ (Cursor.placed_of_start hself) hshort
  simp only [Cursor.ahead_of_start hself, Text.Readable.pastGap_iff, Text.numbers_pastGap,
    hsheet] at hsurvey
  rw [build_eq h, hsheet]
  rcases hsurvey with ⟨after, hok, hafter, hreadable, hmem⟩ | ⟨f, after, herr, hafter, hrest⟩
  · rw [hok]
    refine .inl ⟨after.index, ?_, hreadable, fun k => ?_⟩
    · simp only [onCursor]
      rw [Cursor.reset_of_start (hafter ▸ h)]
    · rw [hmem]
      simp [LineIndex.empty]
  · rw [herr]
    exact .inr ⟨f, after, rfl, hafter, hrest⟩

theorem sheet_of_failed {first : Cursor} {l after : Listing} {f : Fault}
    (h : Cursor.start l.cursor.sheet = .ok first) (hfail : build l = .error f after) :
    after.cursor.sheet = l.cursor.sheet := by
  rcases build_outcome h with ⟨index, hok, -⟩ | ⟨g, surveyed, herror, hsheet, -⟩
  · cases hok.symm.trans hfail
  · cases herror.symm.trans hfail
    exact hsheet

end Listing

end LineBasic
