import Mathlib.Control.Monad.Basic
import SignalBoard.Proofs.Engine.Separation
import SignalBoard.Session

/-!
This module shows that typing a line comes to the same as submitting it: `Engine.submits_typed_line`.
Whatever stands on the command line already becomes the beginning of the command.
-/

namespace SignalBoard

namespace Engine

variable (e : Engine)

/--
The engine with another text on its command line.
-/
def withLine (line : String) : Engine :=
  { e with editor := e.editor.withLine line }

@[simp]
theorem commandLine_withLine (line : String) : (e.withLine line).editor.commandLine = line := rfl

@[simp]
theorem clearLine_withLine (line : String) : (e.withLine line).clearLine = e.clearLine := rfl

theorem submit_clearLine (command : String)
    : e.clearLine.submit command = ((e.submit command).1, (e.submit command).2.clearLine) := by
  have hclear : ∀ f : Engine, f.clearLine = f.against { f.background with commandLine := "" } :=
    fun _ => rfl
  rw [hclear, hclear, submit_against, background_submit]

theorem handle_confirm_withLine (line : String)
    : (e.withLine line).handle .confirm
        =
      (.proceed, (e.submit line).2.clearLine.report (e.submit line).1) := by
  apply Prod.ext
  · exact control_handle _ _
  · -- the line is cleared before it is submitted, which makes no difference to the submission
    rw [handle_confirm, commandLine_withLine, clearLine_withLine, submit_clearLine]

theorem handleAll_cons {event : InputEvent} (hevent : event ≠ .exit) (rest : List InputEvent)
    : e.handleAll (event :: rest) = (e.handle event).2.handleAll rest := by
  have hcontrol := control_handle e event
  rw [if_neg hevent] at hcontrol
  rw [handleAll]
  generalize e.handle event = handled at hcontrol ⊢
  obtain ⟨control, next⟩ := handled
  cases hcontrol
  rfl

theorem fst_handleAll {events : List InputEvent} (hevents : .exit ∉ events)
    : (e.handleAll events).1 = .proceed := by
  induction events generalizing e with
  | nil => rfl
  | cons event rest ih =>
    rw [List.mem_cons, not_or] at hevents
    rw [handleAll_cons e (Ne.symm hevents.1)]
    exact ih _ hevents.2

theorem handleAll_chars (cs : List Char) (rest : List InputEvent)
    : e.handleAll (cs.map .char ++ rest)
        =
      (e.withLine (e.editor.commandLine ++ String.ofList cs)).handleAll rest := by
  induction cs generalizing e with
  | nil =>
    rw [String.ofList_nil, String.append_empty]
    rfl
  | cons c cs ih =>
    have hline : e.editor.commandLine.push c ++ String.ofList cs
        = e.editor.commandLine ++ String.ofList (c :: cs) := by
      rw [← String.toList_inj]
      simp
    rw [List.map_cons, List.cons_append, handleAll_cons, ih, ← hline]
    · rfl
    · nofun

theorem handleAll_lineEvents {text : String} (hquit : text ≠ ":quit") (hundo : text ≠ ":undo")
    (hcancel : text ≠ ":cancel")
    : e.handleAll (lineEvents text)
        =
      (.proceed, (e.submit (e.editor.commandLine ++ text)).2.clearLine.report
        (e.submit (e.editor.commandLine ++ text)).1) := by
  rw [lineEvents, if_neg hquit, if_neg hundo, if_neg hcancel, handleAll_chars, String.ofList_toList,
    handleAll_cons, handle_confirm_withLine]
  · rfl
  · nofun

theorem handleAll_quit : e.handleAll (lineEvents ":quit") = (.exit, e) := rfl

theorem handleAll_undo : e.handleAll (lineEvents ":undo") = (.proceed, e.undo.2) := rfl

theorem handleAll_cancel
    : e.handleAll (lineEvents ":cancel")
        =
      (.proceed, { e with editor := { e.editor with commandLine := "", focus := none } }) := rfl

/--
The states of an engine that is only given whole lines. In between time may pass, and pulses may come in.
-/
inductive LineDriven : Engine → Prop where
  | new (size : Size) (step : Duration) (settings : Settings) : LineDriven (.new size step settings)
  | line {e : Engine} (text : String) : LineDriven e → LineDriven (e.handleAll (lineEvents text)).2
  | simulate {e : Engine} {op : Operation} : op.edits = false → LineDriven e → LineDriven (e.after op)

variable {e}

theorem commandLine_handleAll_lineEvents (h : e.editor.commandLine = "") (text : String)
    : (e.handleAll (lineEvents text)).2.editor.commandLine = "" := by
  by_cases hquit : text = ":quit"
  · rw [hquit, handleAll_quit]
    exact h
  by_cases hundo : text = ":undo"
  · rw [hundo, handleAll_undo, commandLine_undo]
    exact h
  by_cases hcancel : text = ":cancel"
  · rw [hcancel, handleAll_cancel]
  rw [handleAll_lineEvents e hquit hundo hcancel]
  cases (e.submit (e.editor.commandLine ++ text)).1 <;> rfl

theorem LineDriven.commandLine (h : e.LineDriven) : e.editor.commandLine = "" := by
  induction h with
  | new size step settings => rfl
  | line text _ ih => exact commandLine_handleAll_lineEvents ih text
  | simulate hop _ ih => exact (congrArg (·.editor.commandLine) (work_after hop _)).trans ih

/--
A line that is typed and confirmed is submitted together with what stood on the command line before it, and
clears the command line. Its refusal is written to the status. The three control words leave, undo, and
clear the command line together with the focus. So the command line is empty after every line.
-/
theorem submits_typed_line
    : (∀ (e : Engine) (text : String), text ≠ ":quit" → text ≠ ":undo" → text ≠ ":cancel" →
        let submitted := e.submit (e.editor.commandLine ++ text)
        (∀ front rest, lineEvents text = front ++ rest → (e.handleAll front).1 = .proceed) ∧
        e.handleAll (lineEvents text)
          =
        (.proceed, { submitted.2 with
          editor := { submitted.2.editor with commandLine := "" }
          status :=
            match submitted.1 with
            | .ok () => submitted.2.status
            | .error error => some error.message })) ∧
      (∀ e : Engine, e.handleAll (lineEvents ":quit") = (.exit, e)) ∧
      (∀ e : Engine, e.handleAll (lineEvents ":undo") = (.proceed, e.undo.2)) ∧
      (∀ e : Engine, e.handleAll (lineEvents ":cancel")
        =
        (.proceed, { e with editor := { e.editor with commandLine := "", focus := none } })) ∧
      ∀ e : Engine, e.LineDriven → e.editor.commandLine = "" := by
  refine ⟨?_, handleAll_quit, handleAll_undo, handleAll_cancel, fun _ => LineDriven.commandLine⟩
  intro e text hquit hundo hcancel submitted
  constructor
  · intro front rest hfront
    apply fst_handleAll
    have hexit : .exit ∉ lineEvents text := by
      simp [lineEvents, hquit, hundo, hcancel]
    rw [hfront, List.mem_append, not_or] at hexit
    exact hexit.1
  · rw [handleAll_lineEvents e hquit hundo hcancel]
    change (_, submitted.2.clearLine.report submitted.1) = _
    cases submitted.1 <;> rfl

theorem submits_typed_line_literal
    : let f := ((Engine.new ⟨2, 1⟩ .zero .default).handleAll (lineEvents "s")).2
      let e := f.run [.submit "i", .handle (.char '1')]
      (e.submit "1x").1 = .error (.action (.property (.invalid "interval" "1x" .int))) ∧
      (e.handleAll (lineEvents "x")).1 = .proceed ∧
      (e.handleAll (lineEvents "x")).2.editor.commandLine = "" ∧
      (e.handleAll (lineEvents "x")).2.status
        =
      some (EngineError.action (.property (.invalid "interval" "1x" .int))).message ∧
      f.editor.commandLine = "" := by
  intro f e
  have hline : e.editor.commandLine ++ "x" = "1x" := by decide +kernel
  have hrefused : (e.submit "1x").1 = .error (.action (.property (.invalid "interval" "1x" .int))) := by
    decide +kernel
  have hf : f.LineDriven := .line "s" (.new _ _ _)
  clear_value f e
  obtain ⟨htyped, _, _, _, hempty⟩ := submits_typed_line
  have h := (htyped e "x" (by decide) (by decide) (by decide)).2
  rw [hline, hrefused] at h
  rw [h]
  exact ⟨hrefused, rfl, rfl, rfl, hempty f hf⟩

end Engine

end SignalBoard
