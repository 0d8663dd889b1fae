import SignalBoard.Proofs.Engine.Rejection

/-!
This module shows that a batch can be cut in two: `Engine.perform_append`. Both parts together do what they
do one after the other, except that they are undone in one step and that the second part takes the first
one with it when it is refused.
-/

namespace SignalBoard

namespace Batch

/--
The batch with older records behind its own.
-/
def above (s : Batch) (records : List Record) : Batch :=
  { s with records := s.records ++ records }

theorem step_above (s : Batch) (records : List Record) (action : Action)
    : (s.above records).step action = (s.step action).map (·.above records) := by
  unfold step
  cases action.scope with
  | editor => rfl
  | cell =>
    simp only [above]
    cases s.board.apply action s.cursor <;> rfl

/--
A batch only adds to the records, and does not look at those that there are.
-/
theorem run_above (s : Batch) (records : List Record) (actions : List Action)
    : (s.above records).run actions = ((s.run actions).1.above records, (s.run actions).2) := by
  induction actions generalizing s with
  | nil => rfl
  | cons action rest ih =>
    rw [run, run, step_above]
    cases s.step action with
    | error error => rfl
    | ok next => exact ih next

end Batch

namespace Engine

variable {e : Engine} {a b : List Action} {s t : Batch}

theorem startBatch_accepted (s : Batch) : (e.accepted s).startBatch = ⟨s.board, s.cursor, []⟩ := by
  rw [startBatch, board_accepted, cursor_accepted]

theorem run_append_of_accepted (hs : e.startBatch.run a = (s, none)) (b : List Action)
    : e.startBatch.run (a ++ b)
        =
      (((e.accepted s).startBatch.run b).1.above s.records, ((e.accepted s).startBatch.run b).2) := by
  rw [Batch.run_append, hs, startBatch_accepted, ← Batch.run_above]
  rfl

theorem undo_of_restores {records : List Record} {older : List (List Record)} {g : Grid Module}
    (hhistory : e.history = records :: older) (hrecords : Restores records e.board.modules g)
    : e.undo.1 = true ∧ e.undo.2.history = older ∧ e.undo.2.board.modules = g := by
  obtain ⟨b, hback, hmodules⟩ := hrecords e.board rfl
  have hboard : (e.undone records older).board = b := by
    change (e.board.revertAll records).1 = b
    rw [Board.revertEach_eq_ok_iff.mp hback]
  rw [undo_cons hhistory]
  exact ⟨rfl, rfl, hboard ▸ hmodules⟩

theorem restores_accepted {actions : List Action} (hs : e.startBatch.run actions = (s, none))
    : Restores s.records (e.accepted s).board.modules e.board.modules := by
  rw [board_accepted]
  exact restores_of_run hs

theorem perform_of_run_error {actions : List Action} {error : ActionError}
    (hrun : (e.startBatch.run actions).2 = some error)
    : (e.perform actions).1 = .error error ∧
        (e.perform actions).2.board.modules = e.board.modules ∧
        (e.perform actions).2.editor.cursor = e.editor.cursor := by
  have hs : e.startBatch.run actions = ((e.startBatch.run actions).1, some error) := Prod.ext rfl hrun
  rw [perform_of_rejected hs]
  exact ⟨rfl, modules_rejected hs, rfl⟩

/--
If one of the two parts is refused, so is the whole batch.
-/
theorem perform_append_of_error {error : ActionError}
    (h : (e.perform a).1 = .error error ∨
      (e.perform a).1 = .ok () ∧ ((e.perform a).2.perform b).1 = .error error)
    : (e.perform (a ++ b)).1 = .error error ∧
        (e.perform (a ++ b)).2.board.modules = e.board.modules ∧
        (e.perform (a ++ b)).2.editor.cursor = e.editor.cursor := by
  apply perform_of_run_error
  rcases h with hfirst | ⟨hfirst, hsecond⟩
  · obtain ⟨s, hs, _⟩ := perform_of_error (Prod.ext hfirst rfl)
    rw [Batch.run_append, hs]
  · obtain ⟨s, hs, haccepted⟩ := exists_run_of_perform_ok hfirst
    rw [haccepted] at hsecond
    obtain ⟨t, ht, _⟩ := perform_of_error (Prod.ext hsecond rfl)
    rw [run_append_of_accepted hs, ht]

theorem exists_runs_of_perform_ok (hfirst : (e.perform a).1 = .ok ())
    (hsecond : ((e.perform a).2.perform b).1 = .ok ())
    : ∃ s t, e.startBatch.run a = (s, none) ∧ (e.accepted s).startBatch.run b = (t, none) ∧
        (e.perform a).2.perform b = (.ok (), (e.accepted s).accepted t) ∧
        e.perform (a ++ b) = (.ok (), e.accepted (t.above s.records)) := by
  obtain ⟨s, hs, haccepted⟩ := exists_run_of_perform_ok hfirst
  rw [haccepted] at hsecond ⊢
  obtain ⟨t, ht, hsplit⟩ := exists_run_of_perform_ok hsecond
  refine ⟨s, t, hs, ht, hsplit, ?_⟩
  apply perform_of_accepted
  rw [run_append_of_accepted hs, ht]

theorem undo_perform_append (hs : e.startBatch.run a = (s, none))
    (ht : (e.accepted s).startBatch.run b = (t, none)) (ha : a.any (·.scope = .cell) = true)
    (hb : b.any (·.scope = .cell) = true) (hlimit : 2 ≤ e.maxHistory)
    : let joint := e.accepted (t.above s.records)
      let split := (e.accepted s).accepted t
      (joint.undo.1 = true ∧ joint.undo.2.board.modules = e.board.modules) ∧
      (split.undo.1 = true ∧ split.undo.2.undo.1 = true ∧
        split.undo.2.undo.2.board.modules = e.board.modules) := by
  intro joint split
  obtain ⟨limit, hlimit⟩ := Nat.exists_eq_add_of_le' hlimit
  have hjoint : e.startBatch.run (a ++ b) = (t.above s.records, none) := by
    rw [run_append_of_accepted hs, ht]
  have hfirst : (e.accepted s).history = s.records :: e.history.take (limit + 1) := by
    rw [history_accepted_of_edits hs ha, hlimit, List.take_succ_cons]
  constructor
  · -- the records of both parts lead back at once
    have hedits : (a ++ b).any (·.scope = .cell) = true := by
      rw [List.any_append, ha, Bool.true_or]
    have hhistory := history_accepted_of_edits hjoint hedits
    rw [hlimit, List.take_succ_cons] at hhistory
    obtain ⟨hundo, _, hmodules⟩ := undo_of_restores hhistory (restores_accepted hjoint)
    exact ⟨hundo, hmodules⟩
  · -- those of the second part lead back to where the first part ended, and those of the first follow
    have hhistory := history_accepted_of_edits ht hb
    rw [hfirst, maxHistory_accepted, hlimit, List.take_succ_cons, List.take_succ_cons] at hhistory
    obtain ⟨hundo, holder, hmodules⟩ := undo_of_restores hhistory (restores_accepted ht)
    have hrecords : Restores s.records split.undo.2.board.modules e.board.modules := by
      rw [hmodules]
      exact restores_accepted hs
    obtain ⟨hagain, _, hback⟩ := undo_of_restores holder hrecords
    exact ⟨hundo, hagain, hback⟩

/--
Two batches in one are accepted exactly if both are accepted one after the other, and then lead to the same
board and cursor. If one of them is refused, so is the whole, with the same error, and modules and cursor are
those from before both. If both edit modules and the history has room for them, undoing the whole puts back
the same modules as undoing twice after the parts, which are those from before both.
-/
theorem perform_append (e : Engine) (a b : List Action)
    : let joint := e.perform (a ++ b)
      let first := e.perform a
      let second := first.2.perform b
      (joint.1 = .ok () ↔ first.1 = .ok () ∧ second.1 = .ok ()) ∧
      (joint.1 = .ok () →
        joint.2.board = second.2.board ∧ joint.2.editor.cursor = second.2.editor.cursor) ∧
      (∀ error, first.1 = .error error ∨ first.1 = .ok () ∧ second.1 = .error error →
        joint.1 = .error error ∧ joint.2.board.modules = e.board.modules ∧
        joint.2.editor.cursor = e.editor.cursor) ∧
      (joint.1 = .ok () → a.any (·.scope = .cell) = true → b.any (·.scope = .cell) = true →
        2 ≤ e.maxHistory →
        (joint.2.undo.1 = true ∧ second.2.undo.1 = true ∧ second.2.undo.2.undo.1 = true) ∧
        joint.2.undo.2.board.modules = second.2.undo.2.undo.2.board.modules ∧
        joint.2.undo.2.board.modules = e.board.modules) := by
  intro joint first second
  have hrefused : ∀ error, first.1 = .error error ∨ first.1 = .ok () ∧ second.1 = .error error →
      joint.1 = .error error ∧ joint.2.board.modules = e.board.modules ∧
      joint.2.editor.cursor = e.editor.cursor :=
    fun _ => perform_append_of_error
  have hparts : joint.1 = .ok () → first.1 = .ok () ∧ second.1 = .ok () := by
    intro hjoint
    cases hfirst : first.1 with
    | error error =>
      rw [(hrefused error (.inl hfirst)).1] at hjoint
      cases hjoint
    | ok =>
      cases hsecond : second.1 with
      | error error =>
        rw [(hrefused error (.inr ⟨hfirst, hsecond⟩)).1] at hjoint
        cases hjoint
      | ok => exact ⟨rfl, rfl⟩
  refine ⟨⟨hparts, ?_⟩, ?_, hrefused, ?_⟩
  · rintro ⟨hfirst, hsecond⟩
    obtain ⟨s, t, _, _, _, hjoint⟩ := exists_runs_of_perform_ok hfirst hsecond
    exact congrArg Prod.fst hjoint
  · intro hok
    obtain ⟨s, t, _, _, hsplit, hjoint⟩ :=
      exists_runs_of_perform_ok (hparts hok).1 (hparts hok).2
    simp only [joint, second, first, hjoint, hsplit, board_accepted, cursor_accepted]
    exact ⟨rfl, rfl⟩
  · intro hok ha hb hlimit
    obtain ⟨s, t, hs, ht, hsplit, hjoint⟩ :=
      exists_runs_of_perform_ok (hparts hok).1 (hparts hok).2
    obtain ⟨⟨hundo, hback⟩, hundo', hagain, hback'⟩ := undo_perform_append hs ht ha hb hlimit
    simp only [joint, second, first, hjoint, hsplit]
    exact ⟨⟨hundo, hundo', hagain⟩, hback.trans hback'.symm, hback⟩

theorem perform_append_emitter
    : let e := Engine.new ⟨2, 1⟩ .zero .default
      let a := [.changeType "emitter", .moveCursor .right]
      let b := [.changeType "spreader", .moveCursor .left, .changeType "empty"]
      let joint := e.perform (a ++ b)
      let second := (e.perform a).2.perform b
      joint.1 = .ok () ∧ second.1 = .ok () ∧ joint.2.board = second.2.board ∧
      joint.2.undo.2.board.modules = second.2.undo.2.undo.2.board.modules ∧
      joint.2.undo.2.board.modules = e.board.modules := by
  intro e a b joint second
  have hjoint : joint.1 = .ok () := by decide +kernel
  have ha : a.any (·.scope = .cell) = true := by decide
  have hb : b.any (·.scope = .cell) = true := by decide
  have hlimit : 2 ≤ e.maxHistory := by decide
  clear_value e a b
  obtain ⟨haccepted, hagree, _, hundo⟩ := perform_append e a b
  obtain ⟨_, hsame, hback⟩ := hundo hjoint ha hb hlimit
  exact ⟨hjoint, (haccepted.mp hjoint).2, (hagree hjoint).1, hsame, hback⟩

end Engine

end SignalBoard
