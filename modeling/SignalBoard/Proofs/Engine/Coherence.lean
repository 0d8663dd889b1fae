import SignalBoard.Proofs.Editor.Help
import SignalBoard.Proofs.Engine.Operation

/-!
This module shows that the editor always fits the board: `Engine.coherent_editor`.
-/

namespace SignalBoard

theorem Board.lookup_of_mem_propertiesAt {b : Board} {p : Position} {prop : Property}
    (h : prop ∈ b.propertiesAt p) : (b.propertiesAt p).lookup prop.name = some prop := by
  unfold propertiesAt at h ⊢
  cases hm : b.get? p with
  | none =>
    rw [hm] at h
    cases h
  | some m =>
    rw [hm] at h
    exact Module.lookup_of_mem_properties h

theorem Board.nodup_names_propertiesAt (b : Board) (p : Position)
    : ((b.propertiesAt p).map Property.name).Nodup := by
  unfold propertiesAt
  split
  · apply Module.nodup_names_properties
  · exact List.nodup_nil

theorem Board.propertiesAt_congr {b b' : Board} (h : b'.modules = b.modules) (p : Position)
    : b'.propertiesAt p = b.propertiesAt p := by
  rw [propertiesAt, propertiesAt, get?, get?, h]

theorem Editor.mem_of_lookup_shortcutsFor {keytable : Keytable} {props : PropertyMap} {key : Char}
    {prop : Property} (h : (shortcutsFor keytable props).lookup key = some prop)
    : prop ∈ props := by
  obtain ⟨front, rest, hsplit, _⟩ := List.lookup_eq_some_iff.mp h
  have hmem : (key, prop) ∈ shortcutsFor keytable props := by
    rw [hsplit]
    simp
  exact (List.of_mem_zip hmem).2

namespace Engine

/--
The editor knows the properties of the module under the cursor, if there is one.
-/
structure Follows (settings : Settings) (e : Engine) : Prop where
  keytable : e.editor.keytable = settings.keytable
  shortcuts : e.editor.shortcuts =
    Editor.shortcutsFor settings.keytable (e.board.propertiesAt e.editor.cursor)
  focus : ∀ prop, e.editor.focus = some prop →
    (e.board.propertiesAt e.editor.cursor).lookup prop.name = some prop

variable {settings : Settings} {e : Engine}

/--
Whatever became of the focus and the shortcuts, following the module under the cursor sets them right.
-/
theorem follows_refresh (hkeytable : e.editor.keytable = settings.keytable)
    : e.refresh.Follows settings where
  keytable := hkeytable
  shortcuts := by
    rw [← hkeytable]
    rfl
  focus := by
    intro prop hprop
    have hkept := (Option.filter_eq_some_iff.mp hprop).2
    simpa using hkept

namespace Follows

theorem new (size : Size) (step : Duration) (settings : Settings)
    : (Engine.new size step settings).Follows settings :=
  follows_refresh rfl

theorem help_eq (h : e.Follows settings)
    : e.editor.help
        =
      (e.board.propertiesAt e.editor.cursor).filterMap fun prop =>
        (e.editor.shortcutOf? prop.name).map fun key => Editor.helpLine key prop :=
  Editor.help_eq_filterMap h.shortcuts (e.board.nodup_names_propertiesAt e.editor.cursor)

theorem lookup_of_shortcut (h : e.Follows settings) {prop : Property}
    (hprop : e.editor.focus = some prop ∨ ∃ key, e.editor.shortcuts.lookup key = some prop)
    : (e.board.propertiesAt e.editor.cursor).lookup prop.name = some prop := by
  rcases hprop with hfocus | ⟨key, hkey⟩
  · exact h.focus prop hfocus
  · -- a shortcut selects one of the properties of the module, and no two of these share a name
    rw [h.shortcuts] at hkey
    exact Board.lookup_of_mem_propertiesAt (Editor.mem_of_lookup_shortcutsFor hkey)

theorem quiet {e' : Engine} (h : e.Follows settings) (hquiet : e.Quiet e') : e'.Follows settings := by
  have hprops : e'.board.propertiesAt e'.editor.cursor = e.board.propertiesAt e.editor.cursor := by
    rw [hquiet.cursor, Board.propertiesAt_congr hquiet.modules]
  constructor
  case keytable => rw [hquiet.keytable, h.keytable]
  case shortcuts => rw [hquiet.shortcuts, h.shortcuts, hprops]
  case focus =>
    intro prop hprop
    rw [hprops]
    exact h.lookup_of_shortcut (hquiet.focus prop hprop)

theorem perform (h : e.Follows settings) (actions : List Action)
    : (e.perform actions).2.Follows settings := by
  rcases perform_cases e actions with ⟨s, _, hperform⟩ | ⟨s, error, _, hperform⟩
  · rw [hperform]
    apply follows_refresh
    simp [h.keytable]
  · rw [hperform]
    exact follows_refresh h.keytable

theorem undo (h : e.Follows settings) : e.undo.2.Follows settings := by
  cases hhistory : e.history with
  | nil =>
    rw [undo_nil hhistory]
    exact ⟨h.keytable, h.shortcuts, h.focus⟩
  | cons records older =>
    rw [undo_cons hhistory]
    exact follows_refresh h.keytable

theorem after (h : e.Follows settings) (op : Operation) : (e.after op).Follows settings := by
  have hresponds := responds_after e op
  generalize e.request op = request, e.after op = next at hresponds ⊢
  cases hresponds with
  | batch actions hstart hnext => exact ((h.quiet hstart).perform actions).quiet hnext
  | undo hstart hnext => exact (h.quiet hstart).undo.quiet hnext
  | nothing hnext => exact h.quiet hnext

end Follows

/--
The editor fits the module under the cursor, and the history is not too long.
-/
structure Coherent (settings : Settings) (e : Engine) : Prop extends e.Follows settings where
  maxHistory : e.maxHistory = settings.maxHistory
  cursor : e.editor.cursor ∈ e.board.size
  history : e.history.length ≤ settings.maxHistory

namespace Coherent

theorem new {size : Size} (hwidth : 0 < size.width) (hheight : 0 < size.height) (step : Duration)
    (settings : Settings) : (Engine.new size step settings).Coherent settings := by
  constructor
  case toFollows => exact .new size step settings
  case maxHistory => rfl
  case cursor =>
    change Position.origin ∈ size
    rw [Size.mem_iff]
    simp only [Position.origin]
    omega
  case history => exact Nat.zero_le _

theorem quiet {e' : Engine} (h : e.Coherent settings) (hquiet : e.Quiet e')
    : e'.Coherent settings := by
  constructor
  case toFollows => exact h.toFollows.quiet hquiet
  case maxHistory => rw [hquiet.maxHistory, h.maxHistory]
  case cursor =>
    rw [hquiet.cursor, Board.size, hquiet.modules]
    exact h.cursor
  case history =>
    rw [hquiet.history]
    exact h.history

theorem perform (h : e.Coherent settings) (actions : List Action)
    : (e.perform actions).2.Coherent settings := by
  have hfollows := h.toFollows.perform actions
  have hcursor := Batch.cursor_run_mem (s := e.startBatch) h.cursor actions
  have hsize := Batch.size_run e.startBatch actions
  rcases perform_cases e actions with ⟨s, hrun, hperform⟩ | ⟨s, error, hrun, hperform⟩
  · rw [hrun] at hcursor
    rw [hperform] at hfollows ⊢
    constructor
    case toFollows => exact hfollows
    case maxHistory => simp [h.maxHistory]
    case cursor => simpa using hcursor
    case history =>
      rw [history_accepted]
      split
      · exact h.history
      · rw [← h.maxHistory]
        apply List.length_take_le
  · rw [hrun] at hsize
    rw [hperform] at hfollows ⊢
    constructor
    case toFollows => exact hfollows
    case maxHistory => exact h.maxHistory
    case cursor =>
      change e.editor.cursor ∈ (s.board.revertAll s.records).1.size
      rw [Board.size_revertAll, hsize]
      exact h.cursor
    case history => exact h.history

theorem undo (h : e.Coherent settings) : e.undo.2.Coherent settings := by
  have hfollows := h.toFollows.undo
  cases hhistory : e.history with
  | nil =>
    rw [undo_nil hhistory] at hfollows ⊢
    exact ⟨hfollows, h.maxHistory, h.cursor, h.history⟩
  | cons records older =>
    have hlength := h.history
    rw [hhistory, List.length_cons] at hlength
    rw [undo_cons hhistory] at hfollows ⊢
    constructor
    case toFollows => exact hfollows
    case maxHistory => exact h.maxHistory
    case cursor =>
      change e.editor.cursor ∈ (e.board.revertAll records).1.size
      rw [Board.size_revertAll]
      exact h.cursor
    case history => exact Nat.le_of_succ_le hlength

theorem after (h : e.Coherent settings) (op : Operation) : (e.after op).Coherent settings := by
  have hresponds := responds_after e op
  generalize e.request op = request, e.after op = next at hresponds ⊢
  cases hresponds with
  | batch actions hstart hnext => exact ((h.quiet hstart).perform actions).quiet hnext
  | undo hstart hnext => exact (h.quiet hstart).undo.quiet hnext
  | nothing hnext => exact h.quiet hnext

theorem run (h : e.Coherent settings) (ops : List Operation) : (e.run ops).Coherent settings := by
  induction ops generalizing e with
  | nil => exact h
  | cons op ops ih => exact ih (h.after op)

end Coherent

/--
Whatever is done to an engine, its cursor is on the board, the shortcuts are those that would be made
for the module under the cursor, the help has a line for each property of that module as it is now as long
as there are free letters, the property in focus is one of that module as it is now, and no more batches can be
undone than the settings allow.
-/
theorem coherent_editor (size : Size) (hwidth : 0 < size.width) (hheight : 0 < size.height)
    (step : Duration) (settings : Settings) (ops : List Operation)
    : let e := (Engine.new size step settings).run ops
      e.editor.cursor ∈ size ∧ e.history.length ≤ settings.maxHistory ∧
      e.editor.keytable = settings.keytable ∧
      ∃ m, e.board.get? e.editor.cursor = some m ∧
        e.editor.shortcuts = (e.editor.updateShortcuts m.properties).shortcuts ∧
        e.editor.help
          =
        (m.properties.filterMap fun prop =>
          (e.editor.shortcutOf? prop.name).map fun key => Editor.helpLine key prop) ∧
        e.editor.help.length
          =
        min (Editor.letters.filter fun key => !settings.keytable.contains key).length
          m.properties.length ∧
        ∀ prop, e.editor.focus = some prop → m.properties.lookup prop.name = some prop := by
  intro e
  have h : e.Coherent settings := (Coherent.new hwidth hheight step settings).run ops
  have hsize : e.board.size = size := kept_run (Board.kept_size size) rfl ops
  obtain ⟨m, hm⟩ := Board.exists_get? h.cursor
  have hprops : e.board.propertiesAt e.editor.cursor = m.properties := by
    rw [Board.propertiesAt, hm]
  refine ⟨hsize ▸ h.cursor, h.history, h.keytable, m, hm, ?_⟩
  rw [← hprops]
  refine ⟨?_, h.toFollows.help_eq, Editor.length_help h.shortcuts, h.focus⟩
  rw [h.shortcuts, ← h.keytable]
  rfl

theorem coherent_editor_focused
    : let ops := [.submit "s", .tick, .perform [.changeProperty [("interval", "7")]], .submit "c",
        .perform [.moveCursor .right, .moveCursor .left], .perform [.changeType "mixer"]]
      let e := (Engine.new ⟨2, 1⟩ .zero .default).run ops
      e.editor.cursor ∈ (⟨2, 1⟩ : Size) ∧
      e.editor.help
        =
      ["a - character (char: O)", "b - color (color: (191,255,0))", "c - up is output (bool: true)",
        "d - down is output (bool: false)", "f - left is output (bool: false)",
        "g - right is output (bool: false)", "i - pulse interval (int: 7)", "n - pulse offset (int: 0)"] ∧
      ∃ m prop, e.board.get? e.editor.cursor = some m ∧ e.editor.focus = some prop ∧
        m.properties.lookup prop.name = some prop := by
  intro ops e
  have hfocus : e.editor.focus.isSome := by decide +kernel
  obtain ⟨hcursor, _, _, m, hm, _, hhelp, _, hprop⟩ :=
    coherent_editor ⟨2, 1⟩ (by decide) (by decide) .zero .default ops
  obtain ⟨prop, hsome⟩ := Option.isSome_iff_exists.mp hfocus
  have hprops : e.board.propertiesAt e.editor.cursor = m.properties := by
    rw [Board.propertiesAt, hm]
  refine ⟨hcursor, hhelp.trans ?_, m, prop, hm, hsome, hprop prop hsome⟩
  rw [← hprops]
  decide +kernel

end Engine

end SignalBoard
