import LineBasic.Console
import LineBasic.Proofs.Invariant
import LineBasic.Proofs.Stored

/-!
# Editing sessions

The program an editor keeps is told by the lines that were typed: each number has
the text of its last edit since the program was last emptied. Runs, listings, help,
words that name no command, and interrupts leave the program as it is, whatever
comes of them and wherever the interrupts strike. Listed, the program is in ascending
order, and its lines can be typed again in any order to have it back.
-/
namespace LineBasic

namespace Command

def applied : Command → Program → Program
  | enter number text _, p => p.put number text
  | remove number, p => p.erase number
  | new, _ => .empty
  | _, p => p

theorem get?_applied (command : Command) (p : Program) (number : Int) (text : Text) :
    (command.applied p).get? number = some text ↔
      command.change? = some (number, some text) ∨
        p.get? number = some text ∧ command ≠ .new ∧
          ∀ other, command.change? ≠ some (number, other) := by
  cases command with
  | enter entered body typed =>
      by_cases hnumber : number = entered
      · simp [applied, change?, Program.get?_put, hnumber]
      · simp [applied, change?, Program.get?_put, hnumber, Ne.symm hnumber]
  | remove removed =>
      by_cases hnumber : number = removed
      · simp [applied, change?, Program.get?_erase, hnumber]
      · simp [applied, change?, Program.get?_erase, hnumber, Ne.symm hnumber]
  | new => simp [applied, change?, Program.get?_empty]
  | nothing | quit | help | run | list | unknown => simp [applied, change?]

end Command

namespace Input

/-- The command an input is taken for. -/
def Reads : Input → Command → Prop
  | line typed _, command => Command.ofLine typed = .ok command
  | _, command => command = .nothing

def Edits : Input → Int → Option Text → Prop
  | line typed _, number, text => typed.Edits number text
  | _, _, _ => False

def Clears : Input → Prop
  | line typed _ => typed.Clears
  | _ => False

theorem Reads.edits_iff {input : Input} {command : Command} (h : input.Reads command)
    {number : Int} {text : Option Text} :
    input.Edits number text ↔ command.change? = some (number, text) := by
  cases input with
  | line typed strike => exact Command.edits_iff h
  | interrupt | ended =>
      cases h
      simp [Edits, Command.change?]

theorem Reads.clears_iff {input : Input} {command : Command} (h : input.Reads command) :
    input.Clears ↔ command = .new := by
  cases input with
  | line typed strike => exact Command.clears_iff h
  | interrupt | ended =>
      cases h
      simp [Clears]

theorem Reads.sound {input : Input} {command : Command} (h : input.Reads command) {p : Program}
    (hp : p.Sound) : (command.applied p).Sound := by
  cases command with
  | enter number text typed =>
      cases input with
      | line line strike =>
          exact hp.put (Command.writable_of_change? h rfl) (Command.kept_of_change? h rfl)
      | interrupt | ended => cases h
  | remove number => exact hp.erase number
  | new => exact Program.sound_empty
  | nothing | quit | help | run | list | unknown => exact hp

theorem Reads.applied_of_idle {input : Input} {command : Command} (h : input.Reads command)
    (hclears : ¬ input.Clears) (hedits : ∀ number text, ¬ input.Edits number text) (p : Program) :
    command.applied p = p := by
  rw [h.clears_iff] at hclears
  simp only [h.edits_iff] at hedits
  cases command with
  | enter number text typed => exact absurd rfl (hedits number (some text))
  | remove number => exact absurd rfl (hedits number none)
  | new => exact absurd rfl hclears
  | nothing | quit | help | run | list | unknown => rfl

/-- The last edit of a number gives it the text, and the program is not emptied later. -/
def LastText (history : List Input) (number : Int) (text : Text) : Prop :=
  ∃ earlier input later, history = earlier ++ input :: later ∧
    input.Edits number (some text) ∧
      ∀ next ∈ later, ¬ next.Clears ∧ ∀ other, ¬ next.Edits number other

theorem lastText_concat {history : List Input} {input : Input} {number : Int} {text : Text} :
    LastText (history ++ [input]) number text ↔
      input.Edits number (some text) ∨
        LastText history number text ∧ ¬ input.Clears ∧ ∀ other, ¬ input.Edits number other := by
  constructor
  · rintro ⟨earlier, edit, later, hhistory, hedit, hlater⟩
    cases later using List.reverseRecOn with
    | nil =>
        obtain ⟨-, hinput⟩ := List.append_inj' hhistory rfl
        cases hinput
        exact .inl hedit
    | append_singleton later last =>
        rw [← List.cons_append, ← List.append_assoc] at hhistory
        obtain ⟨rfl, hinput⟩ := List.append_inj' hhistory rfl
        cases hinput
        obtain ⟨hclears, hedits⟩ := hlater input (by simp)
        exact .inr ⟨⟨earlier, edit, later, rfl, hedit,
          fun next hnext => hlater next (List.mem_append_left _ hnext)⟩, hclears, hedits⟩
  · rintro (hedit | ⟨⟨earlier, edit, later, rfl, hedit, hlater⟩, hclears, hedits⟩)
    · exact ⟨history, input, [], rfl, hedit, by simp⟩
    · refine ⟨earlier, edit, later ++ [input], by simp, hedit, fun next hnext => ?_⟩
      rcases List.mem_append.1 hnext with hnext | hnext
      · exact hlater next hnext
      · cases List.mem_singleton.1 hnext
        exact ⟨hclears, hedits⟩

end Input

namespace Editor

/-- Whatever comes of the action, the program stays. -/
def Spares {α : Type} (action : Edit α) : Prop := ∀ e, (leftBy action e).program = e.program

section
variable {α β : Type}

theorem spares_pure (a : α) : Spares (pure a) := fun _ => rfl

theorem spares_throw (fault : Fault) : Spares (throw fault : Edit α) := fun _ => rfl

theorem spares_modify {change : Editor → Editor} (h : ∀ e, (change e).program = e.program) :
    Spares (modify change) := h

theorem Spares.bind {x : Edit α} {f : α → Edit β} (hx : Spares x) (hf : ∀ a, Spares (f a)) :
    Spares (x >>= f) := by
  intro e
  have hleft := hx e
  unfold leftBy at hleft ⊢
  rw [bind_apply]
  cases hresult : x e with
  | ok a after =>
      rw [hresult] at hleft
      exact (hf a after).trans hleft
  | error fault after =>
      rw [hresult] at hleft
      exact hleft

theorem spares_get_bind {f : Editor → Edit β} (h : ∀ e, Spares (f e)) : Spares (get >>= f) :=
  Spares.bind (fun _ => rfl) h

theorem Spares.program_eq {x : Edit α} (h : Spares x) {e after : Editor} {a : α}
    (hx : x e = .ok a after) : after.program = e.program := by
  have hleft := h e
  rwa [leftBy, hx] at hleft

end

theorem spares_onOutput (piece : Text) : Spares (onOutput piece) := by
  intro e
  simp only [leftBy, onOutput]
  cases Output.write piece e.output <;> rfl

theorem spares_onConsole (piece : Text) : Spares (onConsole piece) := by
  intro e
  simp only [leftBy, onConsole]
  cases Output.write piece e.console <;> rfl

theorem spares_say (saying : Saying) : Spares (say saying) := by
  refine spares_get_bind fun e => .bind (spares_modify fun _ => rfl) fun _ => ?_
  dsimp only
  split
  · exact (spares_onOutput _).bind fun _ => spares_modify fun _ => rfl
  · exact (spares_onConsole _).bind fun _ => spares_modify fun _ => rfl

theorem spares_sayThen (saying : Saying) (goesOn : Bool) : Spares (sayThen saying goesOn) :=
  (spares_say saying).bind fun _ => spares_pure goesOn

theorem spares_listing (lines : List (Int × Text)) :
    Spares (lines.forM fun line => say (.line (String.ofList (Program.listed line)))) := by
  induction lines with
  | nil => exact spares_pure ()
  | cons line rest ih => exact (spares_say _).bind fun _ => ih

theorem spares_list (program : Program) : Spares (list program) := by
  have hlisting := (spares_listing program.lines).bind fun _ => spares_pure true
  unfold list
  split
  · exact (spares_say noProgram).bind fun _ => hlisting
  · exact hlisting

theorem spares_resume : Spares resume := spares_sayThen _ true

theorem program_guarded (action : Edit Bool) (e : Editor) :
    (leftBy (guarded action) e).program = (leftBy action e).program := by
  cases hresult : action e with
  | ok goesOn after => simp only [leftBy, guarded, hresult]
  | error fault after =>
      cases fault with
      | interrupted => simpa only [leftBy, guarded, hresult] using spares_resume after
      | error | numeral | unwritable | refused | stalled => simp only [leftBy, guarded, hresult]

theorem Spares.guarded {action : Edit Bool} (h : Spares action) : Spares (guarded action) :=
  fun e => (program_guarded action e).trans (h e)

theorem spares_settle (fault : Option Fault) : Spares (settle fault) := by
  unfold settle
  split
  · exact spares_pure ()
  · exact spares_pure ()
  · exact spares_throw _

/-- Wherever a run ends or is interrupted, the program stays. -/
theorem spares_conclude (fate : Fate) : Spares (conclude fate) := by
  have habsorbed : Spares (modify (·.absorbed fate.toRemains)) := spares_modify fun _ => rfl
  exact Spares.guarded (habsorbed.bind fun _ =>
    (spares_settle fate.fault).bind fun _ => spares_sayThen ready true)

theorem spares_promptWithin (tries : Nat) : Spares (promptWithin tries) := by
  induction tries with
  | zero => exact spares_onOutput _
  | succ left ih =>
      refine Spares.bind (Spares.guarded ?_) fun again => ?_
      · exact (spares_onOutput _).bind fun _ => spares_pure false
      · split
        · exact ih
        · exact spares_pure ()

theorem spares_prompt : Spares prompt := by
  refine spares_get_bind fun e => ?_
  split
  · exact spares_promptWithin _
  · exact spares_pure ()

/-- A command makes of the program what it says, even when it is interrupted. -/
theorem program_perform (command : Command) (e : Editor) :
    (leftBy (perform command) e).program = command.applied e.program := by
  cases command with
  | nothing | enter | remove => rfl
  | quit => exact spares_sayThen _ false e
  | help => exact ((spares_say _).bind fun _ => spares_sayThen _ true) e
  | run => exact spares_sayThen _ true e
  | list => exact (spares_get_bind fun e => spares_list e.program) e
  | new => exact spares_sayThen _ true { e with program := .empty }
  | unknown => exact spares_sayThen _ true e

section
variable {bound : Nat} {line : Text} {strike : Option Strike} {e : Editor}

theorem respond_of_run (hline : Command.ofLine line = .ok .run)
    (hprogram : e.program.isEmpty = false) :
    respond bound (.line line strike) e = conclude (e.fate bound strike) e := by
  simp only [respond, reply, hline, hprogram]

theorem respond_of_command {command : Command} (hline : Command.ofLine line = .ok command)
    (h : ¬ (command = .run ∧ e.program.isEmpty = false)) :
    respond bound (.line line strike) e = guarded (perform command) e := by
  simp only [respond, reply, hline]
  cases hempty : e.program.isEmpty with
  | true => cases command <;> rfl
  | false =>
      cases command with
      | run => exact absurd ⟨rfl, hempty⟩ h
      | nothing | enter | remove | quit | help | list | new | unknown => rfl

theorem respond_of_unread {fault : Numeral.Fault} (hline : Command.ofLine line = .error fault) :
    respond bound (.line line strike) e = .error (.numeral fault) e := by
  simp only [respond, reply, hline]

theorem respond_line {after : Editor} {goesOn : Bool}
    (h : respond bound (.line line strike) e = .ok goesOn after) :
    ∃ command, Command.ofLine line = .ok command ∧ after.program = command.applied e.program := by
  cases hread : Command.ofLine line with
  | error fault =>
      rw [respond_of_unread hread] at h
      cases h
  | ok command =>
      refine ⟨command, rfl, ?_⟩
      by_cases hrun : command = .run ∧ e.program.isEmpty = false
      · obtain ⟨rfl, hprogram⟩ := hrun
        rw [respond_of_run hread hprogram] at h
        exact (spares_conclude _).program_eq h
      · rw [respond_of_command hread hrun] at h
        have hleft := program_guarded (perform command) e
        rwa [program_perform, leftBy, h] at hleft

end

/-- What is answered is taken for a command, and the program is what the command makes of
it. -/
theorem exists_command {bound : Nat} {input : Input} {e after : Editor} {goesOn : Bool}
    (h : respond bound input e = .ok goesOn after) :
    ∃ command, input.Reads command ∧ after.program = command.applied e.program := by
  cases input with
  | line line strike => exact respond_line h
  | interrupt => exact ⟨.nothing, rfl, spares_resume.program_eq h⟩
  | ended => exact ⟨.nothing, rfl, (spares_sayThen _ false).program_eq h⟩

/-- The editor after a history of inputs, and whether the session goes on. An input whose
fault no one caught has no place in a history. -/
inductive After (bound : Nat) (start : Editor) : List Input → Bool → Editor → Prop
  | start : After bound start [] true start
  | read {history : List Input} {input : Input} {goesOn : Bool} {e asked answered : Editor}
      (before : After bound start history true e) (prompted : prompt e = .ok () asked)
      (answer : respond bound input asked = .ok goesOn answered) :
      After bound start (history ++ [input]) goesOn answered

/-- The editor after some inputs, if the session goes on after each of them. -/
def replay (bound : Nat) : List Input → Editor → Option Editor
  | [], e => some e
  | input :: rest, e =>
      match (do prompt; respond bound input : Edit Bool) e with
      | .ok true answered => replay bound rest answered
      | _ => none

variable {bound : Nat} {start e : Editor} {history : List Input} {goesOn : Bool}

theorem after_of_replay {inputs : List Input} {left : Editor}
    (h : replay bound inputs e = some left) (hbefore : After bound start history true e) :
    After bound start (history ++ inputs) true left := by
  induction inputs generalizing history e with
  | nil =>
      cases h
      simpa using hbefore
  | cons input rest ih =>
      rw [replay] at h
      split at h
      · rename_i answered hanswer
        obtain ⟨⟨⟩, asked, hprompt, hrespond⟩ := bind_eq_ok hanswer
        simpa using ih h (hbefore.read hprompt hrespond)
      · cases h

/-- A session reads its history. -/
theorem After.converse_eq (h : After bound start history goesOn e) (hon : goesOn = true)
    (rest : List Input) : converse bound (history ++ rest) start = converse bound rest e := by
  induction h generalizing rest with
  | start => rfl
  | @read history input goesOn e asked answered before prompted answer ih =>
      subst hon
      rw [List.append_assoc, List.singleton_append, ih rfl, converse, bind_of_ok prompted,
        bind_of_ok answer, if_pos rfl]

/-- A session that ends without a fault has a history, which the end of its inputs may
close. -/
theorem exists_after_of_converse {inputs : List Input} {left : Editor}
    (h : converse bound inputs start = .ok () left) :
    ∃ history, history <+: inputs ++ [.ended] ∧ After bound start history false left := by
  suffices hrest : ∀ (rest read : List Input) (e : Editor), After bound start read true e →
      converse bound rest e = .ok () left →
        ∃ history, history <+: read ++ rest ++ [.ended] ∧ After bound start history false left by
    simpa using hrest inputs [] start .start h
  intro rest
  induction rest with
  | nil =>
      intro read e hread hconverse
      obtain ⟨⟨⟩, asked, hprompt, hconverse⟩ := bind_eq_ok hconverse
      obtain ⟨goesOn, answered, hrespond, hdone⟩ := bind_eq_ok hconverse
      obtain ⟨-, said, -, hfarewell⟩ := bind_eq_ok hrespond
      cases hfarewell
      cases hdone
      exact ⟨_, by simp, hread.read hprompt hrespond⟩
  | cons input rest ih =>
      intro read e hread hconverse
      obtain ⟨⟨⟩, asked, hprompt, hconverse⟩ := bind_eq_ok hconverse
      obtain ⟨goesOn, answered, hrespond, hconverse⟩ := bind_eq_ok hconverse
      have hafter := hread.read hprompt hrespond
      cases goesOn with
      | true => simpa using ih (read ++ [input]) answered hafter hconverse
      | false =>
          cases hconverse
          exact ⟨_, ⟨rest ++ [.ended], by simp⟩, hafter⟩

theorem After.sound (hstart : start.program = .empty) (h : After bound start history goesOn e) :
    e.program.Sound := by
  induction h with
  | start => exact hstart ▸ Program.sound_empty
  | read before prompted answer ih =>
      obtain ⟨command, hreads, hprogram⟩ := exists_command answer
      rw [hprogram, spares_prompt.program_eq prompted]
      exact hreads.sound ih

theorem After.get?_iff (hstart : start.program = .empty)
    (h : After bound start history goesOn e) (number : Int) (text : Text) :
    e.program.get? number = some text ↔ Input.LastText history number text := by
  induction h with
  | start => simp [hstart, Program.get?_empty, Input.LastText]
  | read before prompted answer ih =>
      obtain ⟨command, hreads, hprogram⟩ := exists_command answer
      rw [hprogram, spares_prompt.program_eq prompted, Command.get?_applied, ih,
        Input.lastText_concat, hreads.edits_iff, hreads.clears_iff]
      simp only [hreads.edits_iff, ne_eq]

/-- No interrupt strikes while the editor speaks. Programs it runs may be interrupted. -/
def Patient (e : Editor) : Prop :=
  if e.terminal then e.output.alarms = [] else e.console.alarms = []

/-- The action succeeds on a patient editor. It leaves a patient one, and shows nothing of
a program. -/
def Speaks {α : Type} (action : Edit α) (a : α) : Prop :=
  ∀ e : Editor, e.Patient → ∃ after, action e = .ok a after ∧ after.Patient ∧
    after.notices = e.notices

theorem speaks_pure {α : Type} (a : α) : Speaks (pure a) a := fun e h => ⟨e, rfl, h, rfl⟩

theorem Speaks.bind {α β : Type} {a : α} {b : β} {x : Edit α} {f : α → Edit β} (hx : Speaks x a)
    (hf : Speaks (f a) b) : Speaks (x >>= f) b := by
  intro e he
  obtain ⟨between, hfirst, hbetween, hkept⟩ := hx e he
  obtain ⟨after, hsecond, hafter, hsame⟩ := hf between hbetween
  exact ⟨after, (bind_of_ok hfirst).trans hsecond, hafter, hsame.trans hkept⟩

theorem speaks_say (saying : Saying) : Speaks (say saying) () := by
  intro e he
  rw [say, get_bind_apply, modify_bind_apply]
  unfold Patient at he
  dsimp only
  split
  · rename_i hterminal
    rw [if_pos hterminal] at he
    obtain ⟨after, hwrite, hquiet⟩ :=
      Output.exists_write_of_quiet he (e.held ++ e.render saying)
    refine ⟨{ e with held := [], output := after }, ?_, ?_, rfl⟩
    · rw [bind_apply]
      simp only [onOutput, hwrite]
      rfl
    · simp [Patient, hterminal, hquiet]
  · rename_i hterminal
    rw [if_neg hterminal] at he
    obtain ⟨after, hwrite, hquiet⟩ :=
      Output.exists_write_of_quiet he (e.held ++ e.render saying)
    refine ⟨{ e with held := [], console := after }, ?_, ?_, rfl⟩
    · rw [bind_apply]
      simp only [onConsole, hwrite]
      rfl
    · simp [Patient, hterminal, hquiet]

theorem speaks_prompt : Speaks prompt () := by
  intro e he
  rw [prompt, get_bind_apply]
  split
  · rename_i hterminal
    unfold Patient at he
    rw [if_pos hterminal] at he
    obtain ⟨after, hwrite, hquiet⟩ := Output.exists_write_of_quiet he ['>', ' ']
    refine ⟨{ e with output := after }, ?_, ?_, rfl⟩
    · rw [he]
      simp only [List.length_nil, promptWithin, onOutput, hwrite]
    · simp [Patient, hterminal, hquiet]
  · exact ⟨e, rfl, he, rfl⟩

/-- A patient editor reads every line that enters one in the program. -/
theorem exists_after_of_lines (bound : Nat) {start : Editor} (hstart : start.Patient)
    {lines : List Text}
    (h : ∀ line ∈ lines, ∃ number text typed,
      Command.ofLine line = .ok (.enter number text typed)) :
    ∃ e, After bound start (lines.map .typed) true e ∧ e.Patient := by
  induction lines using List.reverseRecOn with
  | nil => exact ⟨start, .start, hstart⟩
  | append_singleton lines line ih =>
      obtain ⟨e, hbefore, he⟩ := ih fun line hline => h line (List.mem_append_left _ hline)
      obtain ⟨asked, hprompt, hasked, -⟩ := speaks_prompt e he
      obtain ⟨number, text, typed, hread⟩ := h line (by simp)
      let entered : Editor := { asked with
        program := asked.program.put number text
        trace := asked.trace.push (.lineAdded typed) }
      have hrespond : respond bound (.typed line) asked = .ok true entered :=
        respond_of_command hread (by simp)
      refine ⟨entered, ?_, hasked⟩
      rw [List.map_append]
      exact hbefore.read hprompt hrespond

end Editor

namespace Program

/-- Each line of a listing is the only edit of its number. -/
theorem Sound.lastText_listed {p : Program} (h : p.Sound) {typed : List Text}
    (htyped : typed.Perm (p.lines.map listed)) (number : Int) (text : Text) :
    Input.LastText (typed.map .typed) number text ↔ (number, text) ∈ p.lines := by
  have hentries : ∀ line ∈ typed, ∃ entry ∈ p.lines, listed entry = line :=
    fun line hline => List.mem_map.1 (htyped.mem_iff.1 hline)
  constructor
  · rintro ⟨earlier, input, later, hhistory, hedit, -⟩
    have hinput : input ∈ typed.map Input.typed := by simp [hhistory]
    obtain ⟨line, hline, rfl⟩ := List.mem_map.1 hinput
    obtain ⟨entry, hmem, rfl⟩ := hentries line hline
    obtain ⟨rfl, htext⟩ := (h.edits_listed hmem).1 hedit
    cases htext
    exact hmem
  · intro hmem
    have htyped' : listed (number, text) ∈ typed :=
      htyped.mem_iff.2 (List.mem_map_of_mem hmem)
    obtain ⟨earlier, later, rfl⟩ := List.append_of_mem htyped'
    refine ⟨earlier.map .typed, .typed (listed (number, text)), later.map .typed, by simp,
      (h.edits_listed hmem).2 ⟨rfl, rfl⟩, ?_⟩
    intro next hnext
    obtain ⟨line, hline, rfl⟩ := List.mem_map.1 hnext
    obtain ⟨entry, hentry, rfl⟩ := hentries line (by simp [hline])
    refine ⟨fun hclears => hclears.2 _ _ ((h.edits_listed hentry).2 ⟨rfl, rfl⟩), ?_⟩
    intro other hedit
    obtain ⟨hnumber, -⟩ := (h.edits_listed hentry).1 hedit
    -- The only line of this number has been typed already.
    have hsame : entry = (number, text) := by
      have hget := (mem_lines_iff h.ascending).1 hentry
      rw [← hnumber, (mem_lines_iff h.ascending).1 hmem] at hget
      exact Prod.ext hnumber.symm (Option.some.inj hget).symm
    have hnodup := htyped.nodup_iff.2 h.nodup_listed
    have hnot := (List.nodup_cons.1 hnodup.of_append_right).1
    exact hnot (hsame ▸ hline)

end Program

namespace Editor

/-- What an editor keeps of the inputs it has read. -/
structure Remembers (history : List Input) (e : Editor) : Prop where
  stored : ∀ number text,
    e.program.get? number = some text ↔ Input.LastText history number text
  idle : ∀ {bound : Nat} {input : Input} {asked answered : Editor} {goesOn : Bool},
    prompt e = .ok () asked → respond bound input asked = .ok goesOn answered →
      ¬ input.Clears → (∀ number text, ¬ input.Edits number text) →
        answered.program = e.program
  listing : ∃ lines : List (Int × Text),
    e.program.source =
        lines.flatMap (fun line => Numeral.decimal line.1 ++ [' '] ++ line.2 ++ ['\n']) ∧
      lines.Pairwise (·.1 < ·.1) ∧
        ∀ number text, (number, text) ∈ lines ↔ e.program.get? number = some text
  texts : ∀ number text, e.program.get? number = some text → text.Kept
  retyped : ∀ {typed : List Text}, typed.Perm (Text.lines e.program.source) →
    ∀ (bound : Nat) (fresh : Editor), fresh.program = .empty →
      (∀ goesOn again, After bound fresh (typed.map .typed) goesOn again →
        again.program = e.program) ∧
      (fresh.Patient → ∃ again, After bound fresh (typed.map .typed) true again)

theorem After.remembers {bound : Nat} {start e : Editor} {history : List Input} {goesOn : Bool}
    (hstart : start.program = .empty) (h : After bound start history goesOn e) :
    Remembers history e := by
  have hsound := h.sound hstart
  constructor
  case stored => exact h.get?_iff hstart
  case idle =>
    intro bound input asked answered goesOn hprompt hrespond hclears hedits
    obtain ⟨command, hreads, hprogram⟩ := exists_command hrespond
    rw [hprogram, hreads.applied_of_idle hclears hedits, spares_prompt.program_eq hprompt]
  case listing =>
    refine ⟨e.program.lines, ?_, hsound.ascending, fun number text =>
      Program.mem_lines_iff hsound.ascending⟩
    simp [Program.source, Program.listed]
  case texts =>
    intro number text hget
    exact hsound.texts (number, text) ((Program.mem_lines_iff hsound.ascending).2 hget)
  case retyped =>
    intro typed htyped bound fresh hfresh
    rw [hsound.lines_source] at htyped
    refine ⟨fun goesOn again hagain => ?_, fun hpatient => ?_⟩
    · apply Program.eq_of_get? (hagain.sound hfresh).ascending hsound.ascending
      intro number text
      rw [hagain.get?_iff hfresh, hsound.lastText_listed htyped,
        Program.mem_lines_iff hsound.ascending]
    · have hread : ∀ line ∈ typed, ∃ number text typed,
          Command.ofLine line = .ok (.enter number text typed) := by
        intro line hline
        obtain ⟨entry, hentry, rfl⟩ := List.mem_map.1 (htyped.mem_iff.1 hline)
        exact ⟨_, _, _, hsound.ofLine_listed hentry⟩
      obtain ⟨again, hagain, -⟩ := exists_after_of_lines bound hpatient hread
      exact ⟨again, hagain⟩

/-- An editor that starts with no program remembers all that it reads. What it has read at
any time is a history: the session goes on from there, and a session that ends without a
fault ends with one. -/
theorem sessions_remembered {start : Editor} (hstart : start.program = .empty) (bound : Nat) :
    (∀ history goesOn e, After bound start history goesOn e → Remembers history e ∧
      (goesOn = true → ∀ rest,
        converse bound (history ++ rest) start = converse bound rest e)) ∧
    ∀ inputs left, converse bound inputs start = .ok () left →
      ∃ history, history <+: inputs ++ [.ended] ∧ After bound start history false left := by
  refine ⟨fun history goesOn e h => ⟨h.remembers hstart, h.converse_eq⟩, ?_⟩
  intro inputs left h
  exact exists_after_of_converse h

/-- A line typed twice, the second time in other digits, a line taken back, and a program
without an end: its run is interrupted, another one while it is loaded, and then it is
listed. -/
theorem sessions_remembered_edits :
    let start : Editor := { size := ⟨16, by decide⟩, terminal := true, render := Console.render }
    let history : List Input := [.typed "20 PRINT A".toList, .typed "\t٠٢٠END ".toList,
      .typed "30X".toList, .typed "30".toList, .typed "10 GOTO 10".toList,
      .line "RUN".toList (some { step := 2 }), .line "run".toList (some { step := 0 }),
      .typed "LIST".toList, .interrupt]
    ∃ e, After 0 start history true e ∧
      e.program.lines = [(10, "GOTO 10".toList), (20, "END".toList)] ∧ Remembers history e := by
  intro start history
  have hlines : (replay 0 history start).map (·.program.lines) =
      some [(10, "GOTO 10".toList), (20, "END".toList)] := by decide +kernel
  obtain ⟨e, hreplay, hprogram⟩ := Option.map_eq_some_iff.1 hlines
  have hafter := after_of_replay hreplay .start
  exact ⟨e, hafter, hprogram, ((sessions_remembered rfl 0).1 _ _ _ hafter).1⟩

end Editor

end LineBasic
