import LineBasic.Settings

/-!
# Direct choices over the environment

Where a field is chosen directly, what the environment says of it is passed over, whether
it would have been refused or not. There is one exception. The environment is read before
the choices are put over it, so a word size in it that is no numeral is refused all the
same. This is the only thing that settings can tell of an entry that was passed over.
-/
namespace LineBasic

namespace Choices

inductive Field where
  | wordBits | level | logFile
  deriving DecidableEq

def Field.variableName : Field → Text
  | wordBits => wordBitsVariable
  | level => levelVariable
  | logFile => logFileVariable

def Chooses (choices : Choices) : Field → Prop
  | .wordBits => choices.wordBits.isSome
  | .level => choices.level.isSome
  | .logFile => choices.logFile.isSome

end Choices

namespace Environment

/-- Environments with the same values of all variables but one. -/
def AgreeBut (name : Text) (e e' : Environment) : Prop :=
  ∀ other, other ≠ name → e.lookup other = e'.lookup other

theorem agreeBut_cons (name value : Text) (rest : Environment) :
    AgreeBut name ((name, value) :: rest) rest := by
  intro other hother
  rw [List.lookup_cons, beq_eq_false_iff_ne.2 hother]

/-- What is wrong with the word size in an environment. -/
def misread? (environment : Environment) : Option Numeral.Fault :=
  match (environment.lookup Choices.wordBitsVariable).map Numeral.integer with
  | some (.error fault) => some fault
  | _ => none

/-- The choices in an environment, a word size that cannot be read left out. -/
def legible (environment : Environment) : Choices where
  wordBits := (environment.lookup Choices.wordBitsVariable).bind fun text =>
    (Numeral.integer text).toOption
  level := environment.lookup Choices.levelVariable
  logFile := (environment.lookup Choices.logFileVariable).filter fun name => !name.isEmpty

end Environment

section
variable {environment : Environment} {fault : Numeral.Fault}

theorem Choices.ofEnvironment_of_misread (h : environment.misread? = some fault) :
    Choices.ofEnvironment environment = .error (.numeral fault) := by
  unfold Environment.misread? at h
  unfold Choices.ofEnvironment
  cases hlookup : environment.lookup wordBitsVariable with
  | none => simp [hlookup] at h
  | some text =>
      cases hread : Numeral.integer text with
      | ok bits => simp [hlookup, hread] at h
      | error other =>
          have hsame : other = fault := by simpa [hlookup, hread] using h
          simp only [hread, hsame]
          rfl

theorem Choices.ofEnvironment_of_legible (h : environment.misread? = none) :
    Choices.ofEnvironment environment = .ok environment.legible := by
  unfold Environment.misread? at h
  unfold Choices.ofEnvironment Environment.legible
  cases hlookup : environment.lookup wordBitsVariable with
  | none => rfl
  | some text =>
      cases hread : Numeral.integer text with
      | error fault => simp [hlookup, hread] at h
      | ok bits =>
          simp only [hread, Option.bind_some]
          rfl

theorem Settings.ofEnvironment_of_misread (h : environment.misread? = some fault)
    (direct : Choices) : Settings.ofEnvironment environment direct = .error (.numeral fault) := by
  rw [Settings.ofEnvironment, Choices.ofEnvironment_of_misread h]
  rfl

theorem Settings.ofEnvironment_of_legible (h : environment.misread? = none) (direct : Choices) :
    Settings.ofEnvironment environment direct =
      Settings.ofChoices (direct.orElse environment.legible) := by
  rw [Settings.ofEnvironment, Choices.ofEnvironment_of_legible h]
  rfl

end

namespace Settings

theorem wordSize_cases (bits : Int) :
    (bits < 2 ∧ wordSize bits = .error (.wordTooShort bits)) ∨
      ∃ size : WordSize, (size.bits : Int) = bits ∧ wordSize bits = .ok size := by
  unfold wordSize
  split
  · rename_i hlarge
    exact .inr ⟨_, Int.toNat_of_nonneg (by omega), rfl⟩
  · exact .inl ⟨by omega, rfl⟩

theorem levelNamed_cases (name : Text) :
    ((∀ level : Level, level.name ≠ name.upper) ∧
        levelNamed name = .error (.unknownLevel name.upper)) ∨
      ∃ level : Level, level.name = name.upper ∧ levelNamed name = .ok level := by
  unfold levelNamed
  cases hfound : Level.ofText? name with
  | some level => exact .inr ⟨level, by simpa using List.find?_some hfound, rfl⟩
  | none =>
      refine .inl ⟨?_, rfl⟩
      intro level
      have hall : level ∈ Level.all := by cases level <;> decide
      simpa using List.find?_eq_none.1 hfound level hall

/-- What comes of choices when they are checked. -/
inductive Checked (choices : Choices) : Except Refusal Settings → Prop
  | wordTooShort {bits : Int} : choices.wordBits = some bits → bits < 2 →
      Checked choices (.error (.wordTooShort bits))
  | unknownLevel {name : Text} : choices.level = some name →
      (∀ level : Level, level.name ≠ name.upper) →
      Checked choices (.error (.unknownLevel name.upper))
  | accepted {settings : Settings} :
      (∀ bits, choices.wordBits = some bits → (settings.size.bits : Int) = bits) →
      (∀ name, choices.level = some name → settings.level.name = name.upper) →
      settings.logFile = choices.logFile → Checked choices (.ok settings)

/-- The level is checked once there is a word size. -/
theorem checked_level {choices : Choices} {size : WordSize}
    (hsize : ∀ bits, choices.wordBits = some bits → (size.bits : Int) = bits) :
    Checked choices (do
      let level ← match choices.level with
        | some name => levelNamed name
        | none => pure .warning
      return ⟨size, level, choices.logFile⟩) := by
  cases hlevel : choices.level with
  | none => exact .accepted hsize (by simp [hlevel]) rfl
  | some name =>
      obtain ⟨hunknown, herror⟩ | ⟨level, hname, hok⟩ := levelNamed_cases name
      · simp only [herror]
        exact .unknownLevel hlevel hunknown
      · simp only [hok]
        exact .accepted hsize (by simp [hlevel, hname]) rfl

theorem checked_ofChoices (choices : Choices) : Checked choices (ofChoices choices) := by
  unfold ofChoices
  -- A word that is too short hides whatever is wrong with the level.
  cases hbits : choices.wordBits with
  | none => exact checked_level (by simp [hbits])
  | some bits =>
      obtain ⟨hshort, herror⟩ | ⟨size, hsize, hok⟩ := wordSize_cases bits
      · simp only [herror]
        exact .wordTooShort hbits hshort
      · simp only [hok]
        exact checked_level (by simp [hbits, hsize])

/-- Checking never finds fault with a numeral: they have been read by then. -/
theorem ofChoices_ne_numeral (choices : Choices) (fault : Numeral.Fault) :
    ofChoices choices ≠ .error (.numeral fault) := by
  intro h
  have hchecked := checked_ofChoices choices
  rw [h] at hchecked
  cases hchecked

/-- A field of the settings is as it was chosen, the level in capitals. -/
def Holds (settings : Settings) (choices : Choices) : Choices.Field → Prop
  | .wordBits => choices.wordBits = some (settings.size.bits : Int)
  | .level => choices.level.map Text.upper = some settings.level.name
  | .logFile => choices.logFile = settings.logFile

/-- A chosen field is found in the settings, whatever else is put under the choices. -/
theorem holds_of_chooses {settings : Settings} {direct given : Choices} {field : Choices.Field}
    (hchosen : direct.Chooses field) (h : ofChoices (direct.orElse given) = .ok settings) :
    settings.Holds direct field := by
  have hchecked := checked_ofChoices (direct.orElse given)
  rw [h] at hchecked
  cases hchecked with
  | accepted hbits hlevel hfile =>
      cases field with
      | wordBits =>
          obtain ⟨bits, hdirect⟩ := Option.isSome_iff_exists.1 hchosen
          rw [Holds, hdirect, hbits bits (by simp [Choices.orElse, hdirect])]
      | level =>
          obtain ⟨name, hdirect⟩ := Option.isSome_iff_exists.1 hchosen
          rw [Holds, hdirect, hlevel name (by simp [Choices.orElse, hdirect]), Option.map_some]
      | logFile =>
          obtain ⟨file, hdirect⟩ := Option.isSome_iff_exists.1 hchosen
          rw [Holds, hfile, Choices.orElse, hdirect, Option.some_or]

end Settings

namespace Environment.AgreeBut

open Choices (Field)

variable {e e' : Environment} {field : Field} {direct : Choices}

theorem misread?_eq (h : e.AgreeBut field.variableName e') (hfield : field ≠ .wordBits) :
    e.misread? = e'.misread? := by
  have hother : Choices.wordBitsVariable ≠ field.variableName := by
    cases field with
    | wordBits => exact absurd rfl hfield
    | level => decide
    | logFile => decide
  rw [misread?, misread?, h _ hother]

/-- The choices put over an environment do not show the entry of a field they choose. -/
theorem orElse_legible_eq (h : e.AgreeBut field.variableName e') (hchosen : direct.Chooses field) :
    direct.orElse e.legible = direct.orElse e'.legible := by
  cases field with
  | wordBits =>
      obtain ⟨bits, hdirect⟩ := Option.isSome_iff_exists.1 hchosen
      simp [Choices.orElse, legible, hdirect, h Choices.levelVariable (by decide),
        h Choices.logFileVariable (by decide)]
  | level =>
      obtain ⟨name, hdirect⟩ := Option.isSome_iff_exists.1 hchosen
      simp [Choices.orElse, legible, hdirect, h Choices.wordBitsVariable (by decide),
        h Choices.logFileVariable (by decide)]
  | logFile =>
      obtain ⟨file, hdirect⟩ := Option.isSome_iff_exists.1 hchosen
      simp [Choices.orElse, legible, hdirect, h Choices.wordBitsVariable (by decide),
        h Choices.levelVariable (by decide)]

end Environment.AgreeBut

namespace Settings

open Choices (wordBitsVariable)

/-- A numeral is found fault with exactly where the environment has it. -/
theorem ofEnvironment_eq_numeral_iff {environment : Environment} (direct : Choices)
    {fault : Numeral.Fault} :
    ofEnvironment environment direct = .error (.numeral fault) ↔
      environment.misread? = some fault := by
  refine ⟨?_, fun h => ofEnvironment_of_misread h direct⟩
  intro h
  cases hread : environment.misread? with
  | none =>
      rw [ofEnvironment_of_legible hread] at h
      exact absurd h (ofChoices_ne_numeral _ fault)
  | some other =>
      rw [ofEnvironment_of_misread hread] at h
      cases h
      rfl

/-- An entry that is passed over matters only if it cannot be read. -/
theorem ofEnvironment_congr {field : Choices.Field} {direct : Choices} {e e' : Environment}
    (hchosen : direct.Chooses field) (hagree : e.AgreeBut field.variableName e')
    (hread : e.misread? = e'.misread?) : ofEnvironment e direct = ofEnvironment e' direct := by
  cases hsame : e'.misread? with
  | none =>
      rw [ofEnvironment_of_legible hsame, ofEnvironment_of_legible (hread.trans hsame),
        hagree.orElse_legible_eq hchosen]
  | some fault =>
      rw [ofEnvironment_of_misread hsame, ofEnvironment_of_misread (hread.trans hsame)]

/-- Let a field be chosen directly, and two environments differ at most in its entry. They
give the same settings, or the same refusal, as long as neither has a word size that cannot
be read, or both have the same one; so they always do where the field is another. Such a
word size is refused whatever is chosen. In settings that are made the field is as chosen. -/
theorem chosen_masks_entry {field : Choices.Field} {direct : Choices} {e e' : Environment}
    (hchosen : direct.Chooses field) (hagree : e.AgreeBut field.variableName e') :
    (ofEnvironment e direct = ofEnvironment e' direct ↔ e.misread? = e'.misread?) ∧
      (field ≠ .wordBits → ofEnvironment e direct = ofEnvironment e' direct) ∧
      (∀ fault, ofEnvironment e direct = .error (.numeral fault) ↔ e.misread? = some fault) ∧
      ∀ settings, ofEnvironment e direct = .ok settings → settings.Holds direct field := by
  refine ⟨⟨?_, ofEnvironment_congr hchosen hagree⟩, ?_,
    fun _ => ofEnvironment_eq_numeral_iff direct, ?_⟩
  · intro h
    -- An outcome tells which numeral was misread, so equal outcomes misread the same.
    apply Option.ext
    intro fault
    rw [← ofEnvironment_eq_numeral_iff direct, h, ofEnvironment_eq_numeral_iff direct]
  · intro hfield
    exact ofEnvironment_congr hchosen hagree (hagree.misread?_eq hfield)
  · intro settings h
    cases hread : e.misread? with
    | none =>
        rw [ofEnvironment_of_legible hread] at h
        exact holds_of_chooses hchosen h
    | some fault =>
        rw [ofEnvironment_of_misread hread] at h
        cases h

/-- A word of minus seven bits is passed over where eight are chosen. -/
theorem chosen_masks_entry_negative :
    Choices.Chooses { wordBits := some 8 } .wordBits ∧
      Environment.AgreeBut wordBitsVariable [(wordBitsVariable, "-7".toList)] [] ∧
      ofEnvironment [(wordBitsVariable, "-7".toList)] {} = .error (.wordTooShort (-7)) ∧
      ofEnvironment [(wordBitsVariable, "-7".toList)] { wordBits := some 8 } =
        ofEnvironment [] { wordBits := some 8 } ∧
      ofEnvironment [] { wordBits := some 8 } = .ok ⟨⟨8, by decide⟩, .warning, none⟩ := by
  have hchosen : Choices.Chooses { wordBits := some 8 } .wordBits := rfl
  have hagree := Environment.agreeBut_cons wordBitsVariable "-7".toList []
  have hread :
      Environment.misread? [(wordBitsVariable, "-7".toList)] = Environment.misread? [] := by
    decide +kernel
  exact ⟨hchosen, hagree, by rfl, (chosen_masks_entry hchosen hagree).1.2 hread, by rfl⟩

/-- A word size that is no numeral is refused in spite of the eight bits chosen over it. -/
theorem illegible_entry_refused :
    Choices.Chooses { wordBits := some 8 } .wordBits ∧
      Environment.AgreeBut wordBitsVariable [(wordBitsVariable, "x".toList)] [] ∧
      ofEnvironment [(wordBitsVariable, "x".toList)] { wordBits := some 8 } =
        .error (.numeral (.malformed "x".toList)) ∧
      ofEnvironment [] { wordBits := some 8 } = .ok ⟨⟨8, by decide⟩, .warning, none⟩ :=
  ⟨rfl, Environment.agreeBut_cons _ _ _, by rfl, by rfl⟩

end Settings

end LineBasic
