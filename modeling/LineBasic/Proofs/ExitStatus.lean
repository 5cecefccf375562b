import LineBasic.CommandLine
import LineBasic.Proofs.Decoding
import LineBasic.Proofs.Endings

/-!
# Exit statuses of a program file

A command that runs a file ends with a status that tells how: two if the file cannot be
read, one if its program ends in an error, which is then the last thing shown, 130 if it is
interrupted, wherever that happens, and zero if it comes to its end. It ends without a
status if the path holds a null character, the bytes are no text, the text has a numeral
that cannot be read, a number is too long to be written, or the program goes on for longer
than it may.
-/
namespace LineBasic.CommandLine

/-- The program in a file that was read: its bytes are those of a text, in which the line
ends are unified and the last line is closed. -/
def Holds (contents : Except Folder.Fault Source.Bytes) (program : Text) : Prop :=
  ∃ text, contents = .ok (Source.encode text) ∧
    program = Source.closeLastLine (Source.unifyLineEnds text)

variable {bound : Nat} {strike : Option Strike} {size : WordSize} {path : Text}
  {contents : Except Folder.Fault Source.Bytes} {output : Output}

theorem Holds.unique {program other : Text} (h : Holds contents program)
    (h' : Holds contents other) : other = program := by
  obtain ⟨text, rfl, rfl⟩ := h
  obtain ⟨text', hsame, rfl⟩ := h'
  have hbytes := Except.ok.inj hsame
  have hdecode := (Source.decode_iff _ _).2 hbytes.symm
  rw [(Source.decode_iff _ _).2 rfl] at hdecode
  cases hdecode
  rfl

theorem runFile_of_holds {program : Text} (h : Holds contents program) :
    runFile bound strike size path contents output =
      endOfFate (Machine.fateUnder bound strike ⟨program, path⟩ size output) := by
  obtain ⟨text, rfl, rfl⟩ := h
  have hload : Source.load (Source.encode text) =
      .ok (Source.closeLastLine (Source.unifyLineEnds text)) := by
    rw [Source.load, (Source.decode_iff _ _).2 rfl]
    rfl
  simp only [runFile, openFile, hload]

/-- Bytes that are no text. -/
theorem runFile_of_undecoded {bytes : Source.Bytes} (h : ∀ text, Source.encode text ≠ bytes)
    (bound : Nat) (strike : Option Strike) (size : WordSize) (path : Text) (output : Output) :
    ∃ f, runFile bound strike size path (.ok bytes) output =
      { ending := .escaped (.decoding f), output := output } := by
  cases hdecode : Source.decode bytes with
  | ok text => exact absurd ((Source.decode_iff _ _).1 hdecode) (h text)
  | error f =>
      refine ⟨f, ?_⟩
      have hload : Source.load bytes = .error f := by
        rw [Source.load, hdecode]
        rfl
      simp only [runFile, openFile, hload]

/-- What the end of a command tells of the file it was given and of the program in it. -/
structure Tells (bound : Nat) (strike : Option Strike) (size : WordSize) (path : Text)
    (contents : Except Folder.Fault Source.Bytes) (output : Output) (outcome : Outcome) :
    Prop where
  unread : outcome.ending = .exit 2 ↔ ∃ fault, contents = .error fault ∧ fault ≠ .nul
  failed : outcome.ending = .exit 1 ↔ ∃ program, Holds contents program ∧
    ¬ Machine.Struck strike ⟨program, path⟩ size output ∧
      ∃ e, (Machine.fate bound ⟨program, path⟩ size output).fault = some (.error e)
  interrupted : outcome.ending = .exit 130 ↔ ∃ program, Holds contents program ∧
    (Machine.Struck strike ⟨program, path⟩ size output ∨
      (Machine.fate bound ⟨program, path⟩ size output).fault = some .interrupted)
  finished : outcome.ending = .exit 0 ↔ ∃ program, Holds contents program ∧
    ¬ Machine.Struck strike ⟨program, path⟩ size output ∧
      (Machine.fate bound ⟨program, path⟩ size output).fault = none
  escaped : (∃ escape, outcome.ending = .escaped escape) ↔ contents = .error .nul ∨
    (∃ bytes, contents = .ok bytes ∧ ∀ text, Source.encode text ≠ bytes) ∨
      ∃ program, Holds contents program ∧
        ¬ Machine.Struck strike ⟨program, path⟩ size output ∧
          ((∃ nf, program.Stops (.numeral nf)) ∨
            ((Machine.fate bound ⟨program, path⟩ size output).fault = some .unwritable ∧
              14285 < size.bits) ∨
            (Machine.fate bound ⟨program, path⟩ size output).fault = some .stalled)
  shown : ∀ program e, Holds contents program →
    ¬ Machine.Struck strike ⟨program, path⟩ size output →
      (Machine.fate bound ⟨program, path⟩ size output).fault = some (.error e) →
        ∃ zeros, outcome.errors.toList =
          List.replicate zeros (.notice .zeroDivision) ++ [.notice (.error e)]
  explained : ∀ program, Holds contents program →
    (Machine.fate bound ⟨program, path⟩ size output).Explained bound ⟨program, path⟩ size output

/-- The status of each fate. -/
theorem ending_endOfFate (fate : Fate) :
    (endOfFate fate).ending ≠ .exit 2 ∧
    ((endOfFate fate).ending = .exit 1 ↔ ∃ e, fate.fault = some (.error e)) ∧
    ((endOfFate fate).ending = .exit 130 ↔ fate.fault = some .interrupted) ∧
    ((endOfFate fate).ending = .exit 0 ↔ fate.fault = none) ∧
    ((∃ escape, (endOfFate fate).ending = .escaped escape) ↔
      ∃ f, fate.fault = some f ∧ f.Unhandled) := by
  simp only [endOfFate, endingOf]
  cases fate.fault with
  | none => simp
  | some f => cases f <;> simp [Fault.Unhandled]

theorem errors_of_failed {fate : Fate} {e : Error} (hfault : fate.fault = some (.error e))
    {zeros : Nat} (h : fate.notices.toList = List.replicate zeros .zeroDivision ++ [.error e]) :
    (endOfFate fate).errors.toList =
      List.replicate zeros (.notice .zeroDivision) ++ [.notice (.error e)] := by
  simp [endOfFate, hfault, h]

theorem tells_of_holds {program : Text} (h : Holds contents program) :
    Tells bound strike size path contents output
      (runFile bound strike size path contents output) := by
  have hprogram : ∀ {P : Text → Prop}, (∃ other, Holds contents other ∧ P other) ↔ P program := by
    intro P
    constructor
    · rintro ⟨other, hother, hp⟩
      exact h.unique hother ▸ hp
    · exact fun hp => ⟨program, h, hp⟩
  have hread : ∀ fault, contents ≠ .error fault := by
    obtain ⟨text, rfl, -⟩ := h
    simp
  have htext : ¬ ∃ bytes, contents = .ok bytes ∧ ∀ text, Source.encode text ≠ bytes := by
    obtain ⟨text, rfl, -⟩ := h
    rintro ⟨bytes, hbytes, hnot⟩
    exact hnot text (Except.ok.inj hbytes)
  obtain ⟨hunread, hfailed, hinterrupted, hfinished, hescaped⟩ :=
    ending_endOfFate (Machine.fateUnder bound strike ⟨program, path⟩ size output)
  rw [runFile_of_holds h]
  constructor
  case unread => simp [hunread, hread]
  case failed =>
    rw [hprogram, hfailed, ← exists_and_left]
    exact exists_congr fun e => Machine.fault_fateUnder_iff (by simp)
  case interrupted => rw [hprogram, hinterrupted, Machine.interrupted_fateUnder_iff]
  case finished => rw [hprogram, hfinished, Machine.fault_fateUnder_iff (by simp)]
  case escaped =>
    rw [hprogram, hescaped, Machine.unhandled_fateUnder_iff]
    simp [hread, htext]
  case shown =>
    intro other e hother hstruck hfault
    obtain rfl := h.unique hother
    obtain ⟨zeros, hnotices⟩ := (Machine.fate_explained bound ⟨other, path⟩ size output).shown
    rw [Fate.raised, hfault] at hnotices
    rw [Machine.fateUnder_of_not_struck hstruck]
    exact ⟨zeros, errors_of_failed hfault hnotices⟩
  case explained => exact fun other _ => Machine.fate_explained ..

/-- The ending of a file whose program is never reached. -/
theorem tells_of_unread {outcome : Outcome} (hnot : ∀ program, ¬ Holds contents program)
    (hunread : outcome.ending = .exit 2 ↔ ∃ fault, contents = .error fault ∧ fault ≠ .nul)
    (hescaped : (∃ escape, outcome.ending = .escaped escape) ↔ contents = .error .nul ∨
      ∃ bytes, contents = .ok bytes ∧ ∀ text, Source.encode text ≠ bytes)
    (hstatus : ∀ status, outcome.ending = .exit status → status = 2) :
    Tells bound strike size path contents output outcome where
  unread := hunread
  failed := by
    simp only [hnot, false_and, exists_false, iff_false]
    exact fun h => absurd (hstatus _ h) (by decide)
  interrupted := by
    simp only [hnot, false_and, exists_false, iff_false]
    exact fun h => absurd (hstatus _ h) (by decide)
  finished := by
    simp only [hnot, false_and, exists_false, iff_false]
    exact fun h => absurd (hstatus _ h) (by decide)
  escaped := by simpa [hnot] using hescaped
  shown := fun program _ h => absurd h (hnot program)
  explained := fun program h => absurd h (hnot program)

/-- Every way in which the command for a program file can end. -/
theorem runFile_tells (bound : Nat) (strike : Option Strike) (size : WordSize) (path : Text)
    (contents : Except Folder.Fault Source.Bytes) (output : Output) :
    Tells bound strike size path contents output
      (runFile bound strike size path contents output) := by
  cases contents with
  | error fault =>
      have hnot : ∀ program, ¬ Holds (.error fault) program := by
        rintro program ⟨text, htext, -⟩
        cases htext
      cases fault with
      | nul =>
          apply tells_of_unread hnot <;> simp [runFile, openFile]
      | missing | denied | notFolder | isFolder | nameTooLong =>
          apply tells_of_unread hnot <;> simp [runFile, openFile]
  | ok bytes =>
      by_cases htext : ∃ text, Source.encode text = bytes
      · obtain ⟨text, rfl⟩ := htext
        exact tells_of_holds ⟨text, rfl, rfl⟩
      · have hnone : ∀ text, Source.encode text ≠ bytes := fun text h => htext ⟨text, h⟩
        obtain ⟨f, hrun⟩ := runFile_of_undecoded hnone bound strike size path output
        rw [hrun]
        apply tells_of_unread
        · rintro program ⟨text, hsame, -⟩
          exact hnone text (Except.ok.inj hsame).symm
        · simp
        · simpa using hnone
        · simp

/-- A program that writes nothing and has no end is interrupted all the same. -/
example :
    (match (runFile 0 (some { step := 3 }) .usual "p.bas".toList
        (.ok (Source.encode "10 GOTO 10".toList)) {}).ending with
      | .exit status => some status
      | .escaped _ => none) = some 130 := by
  decide +kernel

/-- A byte that begins no character. No status tells that the file cannot be read as text. -/
theorem undecoded_escapes :
    (∀ text, Source.encode text ≠ [0xFF]) ∧
      ∃ f, (runFile 1 none .usual "p.bas".toList (.ok [0xFF]) {}).ending =
        .escaped (.decoding f) := by
  constructor
  · intro text htext
    have hdecode := (Source.decode_iff _ _).2 htext
    cases hdecode
  · exact ⟨⟨0xFF, 0, 1, .badStart⟩, rfl⟩

end LineBasic.CommandLine
