import SignalBoard.Batch
import SignalBoard.Proofs.Action.Walk
import SignalBoard.Proofs.Board.Invariants
import SignalBoard.Proofs.Space.Grid

/-!
This module shows that the records of a batch lead back to the modules from before it, however far the
batch has been applied: `Batch.restores_run`. It also contains what a batch and its records leave
alone.
-/

namespace SignalBoard

namespace Board

/--
Go back through records, the newest of which comes first, as long as none is refused.
-/
def revertEach (b : Board) (records : List Record) : Except ActionError Board :=
  records.foldlM (fun b record => b.revert record.undo record.position) b

@[simp]
theorem revertEach_nil (b : Board) : b.revertEach [] = .ok b := rfl

theorem revertEach_cons (b : Board) (record : Record) (records : List Record)
    : b.revertEach (record :: records)
        =
      match b.revert record.undo record.position with
      | .ok b => b.revertEach records
      | .error error => .error error := by
  simp only [revertEach, List.foldlM_cons]
  cases b.revert record.undo record.position <;> rfl

/--
Go back one record, or keep the error if it is refused.
-/
def attempt (s : Board × Option ActionError) (record : Record) : Board × Option ActionError :=
  match s.1.revert record.undo record.position with
  | .ok b => (b, s.2)
  | .error error => (s.1, some error)

theorem revertAll_eq_foldl (b : Board) (records : List Record)
    : b.revertAll records = records.foldl attempt (b, none) := rfl

@[simp]
theorem revertAll_nil (b : Board) : b.revertAll [] = (b, none) := rfl

theorem foldl_attempt (b : Board) (conflict : Option ActionError) (records : List Record)
    : records.foldl attempt (b, conflict)
        =
      ((b.revertAll records).1, (b.revertAll records).2.or conflict) := by
  simp only [revertAll_eq_foldl]
  induction records generalizing b conflict with
  | nil => rfl
  | cons record records ih =>
    rw [List.foldl_cons, List.foldl_cons, attempt, attempt]
    dsimp only
    cases b.revert record.undo record.position with
    | ok b => exact ih b conflict
    | error error =>
      rw [ih b (some error)]
      cases (records.foldl attempt (b, none)).2 <;> rfl

theorem revertAll_cons (b : Board) (record : Record) (records : List Record)
    : b.revertAll (record :: records)
        =
      match b.revert record.undo record.position with
      | .ok b => b.revertAll records
      | .error error => ((b.revertAll records).1, some ((b.revertAll records).2.getD error)) := by
  rw [revertAll_eq_foldl, List.foldl_cons, attempt]
  dsimp only
  cases b.revert record.undo record.position with
  | ok b => rfl
  | error error =>
    dsimp only
    rw [foldl_attempt]
    cases (b.revertAll records).2 <;> rfl

/--
Going back through all records, skipping those that are refused, meets no conflict exactly if none is
refused.
-/
theorem revertEach_eq_ok_iff {b b' : Board} {records : List Record}
    : b.revertEach records = .ok b' ↔ b.revertAll records = (b', none) := by
  induction records generalizing b with
  | nil => simp
  | cons record records ih =>
    rw [revertEach_cons, revertAll_cons]
    cases b.revert record.undo record.position with
    | ok b => exact ih
    | error error => simp

theorem revertAll_induction {P : Board → Prop} (hinstall : ∀ b p m, P b → P (b.install p m))
    {b : Board} (hb : P b) (records : List Record) : P (b.revertAll records).1 := by
  induction records generalizing b with
  | nil => exact hb
  | cons record records ih =>
    rw [revertAll_cons]
    cases hrevert : b.revert record.undo record.position with
    | ok b' =>
      obtain ⟨_, restored, _, _, rfl⟩ := revert_eq_ok_iff.mp hrevert
      exact ih (hinstall b _ restored hb)
    | error error => exact ih hb

@[simp]
theorem size_revertAll (b : Board) (records : List Record)
    : (b.revertAll records).1.size = b.size := by
  apply revertAll_induction (P := fun c => c.size = b.size)
  · intro c p m hc
    rw [size_install, hc]
  · rfl

@[simp]
theorem pulses_revertAll (b : Board) (records : List Record)
    : (b.revertAll records).1.pulses = b.pulses := by
  apply revertAll_induction (P := fun c => c.pulses = b.pulses)
  · intro c p m hc
    rw [pulses_install, hc]
  · rfl

theorem modules_install (b : Board) (p : Position) (m : Module)
    : (b.install p m).modules = b.modules.set p m := by
  unfold install Grid.set
  cases b.modules.replace p m <;> rfl

end Board

/--
Going back through records is never refused on boards with modules `g`, and it ends with the modules
`g'`.
-/
def Restores (records : List Record) (g g' : Grid Module) : Prop :=
  ∀ b : Board, b.modules = g → ∃ b', b.revertEach records = .ok b' ∧ b'.modules = g'

theorem restores_nil (g : Grid Module) : Restores [] g g := by
  intro b hb
  exact ⟨b, rfl, hb⟩

theorem restores_cons {b b' : Board} {action : Action} {p : Position} {undo : Undo}
    {records : List Record} {g : Grid Module} (happly : b.apply action p = .ok (b', undo))
    (hrecords : Restores records b.modules g)
    : Restores (⟨p, undo⟩ :: records) b'.modules g := by
  intro c hc
  obtain ⟨m, r, hm, haction, rfl⟩ := Board.apply_eq_ok_iff.mp happly
  have hp : p ∈ b.size := Board.mem_size_of_get? hm
  have hsize : c.size = b.size := by
    rw [← Board.size_install b p r, Board.size, Board.size, hc]
  have hget : ∀ q, c.get? q = if q = p then some r else b.get? q := by
    intro q
    rw [← Board.get?_install hp, Board.get?, Board.get?, hc]
  -- the undo finds what the action left behind, and puts back what the action found
  have hback : c.revert undo p = .ok (c.install p m) := by
    rw [Board.revert_eq_ok_iff]
    refine ⟨r, m, ?_, Undo.apply_of_apply haction, rfl⟩
    rw [hget, if_pos rfl]
  have hmodules : (c.install p m).modules = b.modules := by
    apply Grid.ext_get?
    · exact (Board.size_install ..).trans hsize
    · intro q
      change (c.install p m).get? q = b.get? q
      rw [Board.get?_install (hsize ▸ hp), hget]
      by_cases hq : q = p
      · rw [if_pos hq, hq, hm]
      · rw [if_neg hq, if_neg hq]
  obtain ⟨d, hd, hg⟩ := hrecords _ hmodules
  refine ⟨d, ?_, hg⟩
  rw [Board.revertEach_cons, hback]
  exact hd

namespace Batch

theorem cases_of_step {s next : Batch} {action : Action} (h : s.step action = .ok next)
    : (action.scope = .editor ∧
          next = { s with cursor := action.applyToCursor s.cursor s.board.size }) ∨
        (∃ board undo, action.scope = .cell ∧ s.board.apply action s.cursor = .ok (board, undo) ∧
          next = { s with board := board, records := ⟨s.cursor, undo⟩ :: s.records }) := by
  unfold step at h
  split at h
  · rename_i hscope
    cases h
    exact .inl ⟨hscope, rfl⟩
  · rename_i hscope
    right
    cases happly : s.board.apply action s.cursor with
    | error error =>
      rw [happly] at h
      cases h
    | ok result =>
      obtain ⟨board, undo⟩ := result
      rw [happly] at h
      cases h
      exact ⟨board, undo, hscope, rfl, rfl⟩

theorem run_induction {P : Batch → Prop}
    (hstep : ∀ s action next, P s → s.step action = .ok next → P next) {s : Batch} (hs : P s)
    (actions : List Action) : P (s.run actions).1 := by
  induction actions generalizing s with
  | nil => exact hs
  | cons action rest ih =>
    rw [run]
    cases hnext : s.step action with
    | error error => exact hs
    | ok next => exact ih (hstep s action next hs hnext)

/--
However far a batch has been applied, its records lead back to the modules from before it.
-/
theorem restores_run {s : Batch} {g : Grid Module} (h : Restores s.records s.board.modules g)
    (actions : List Action)
    : Restores (s.run actions).1.records (s.run actions).1.board.modules g := by
  apply run_induction (P := fun s => Restores s.records s.board.modules g)
  · intro s action next hs hnext
    rcases cases_of_step hnext with ⟨_, rfl⟩ | ⟨board, undo, _, happly, rfl⟩
    · -- a move changes neither the modules nor the records
      exact hs
    · exact restores_cons happly hs
  · exact h

theorem run_board_induction {P : Board → Prop} (hinstall : ∀ b p m, P b → P (b.install p m))
    {s : Batch} (hs : P s.board) (actions : List Action) : P (s.run actions).1.board := by
  apply run_induction (P := fun s => P s.board) _ hs
  intro s action next hs hnext
  rcases cases_of_step hnext with ⟨_, rfl⟩ | ⟨board, undo, _, happly, rfl⟩
  · exact hs
  · obtain ⟨_, replacement, _, _, rfl⟩ := Board.apply_eq_ok_iff.mp happly
    exact hinstall _ _ replacement hs

@[simp]
theorem size_run (s : Batch) (actions : List Action)
    : (s.run actions).1.board.size = s.board.size := by
  apply run_board_induction (P := fun b => b.size = s.board.size)
  · intro b p m hb
    rw [Board.size_install, hb]
  · rfl

@[simp]
theorem pulses_run (s : Batch) (actions : List Action)
    : (s.run actions).1.board.pulses = s.board.pulses := by
  apply run_board_induction (P := fun b => b.pulses = s.board.pulses)
  · intro b p m hb
    rw [Board.pulses_install, hb]
  · rfl

theorem cursor_run_mem {s : Batch} (h : s.cursor ∈ s.board.size) (actions : List Action)
    : (s.run actions).1.cursor ∈ (s.run actions).1.board.size := by
  apply run_induction (P := fun s => s.cursor ∈ s.board.size) _ h
  intro s action next hs hnext
  rcases cases_of_step hnext with ⟨_, rfl⟩ | ⟨board, undo, _, happly, rfl⟩
  · exact Action.applyToCursor_mem hs action
  · obtain ⟨_, replacement, _, _, rfl⟩ := Board.apply_eq_ok_iff.mp happly
    dsimp only
    rw [Board.size_install]
    exact hs

theorem isEmpty_records_of_run {s s' : Batch} {actions : List Action}
    (h : s.run actions = (s', none))
    : s'.records.isEmpty = (s.records.isEmpty && !actions.any (·.scope = .cell)) := by
  induction actions generalizing s with
  | nil =>
    cases h
    simp
  | cons action rest ih =>
    rw [run] at h
    cases hnext : s.step action with
    | error error =>
      rw [hnext] at h
      cases h
    | ok next =>
      rw [hnext] at h
      rw [ih h, List.any_cons]
      rcases cases_of_step hnext with ⟨hscope, rfl⟩ | ⟨board, undo, hscope, _, rfl⟩
      · simp [hscope]
      · simp [hscope]

theorem step_eq_error_iff {s : Batch} {action : Action} {error : ActionError}
    : s.step action = .error error ↔
        action.scope = .cell ∧ s.board.apply action s.cursor = .error error := by
  unfold step
  cases action.scope with
  | editor => simp
  | cell =>
    dsimp only
    cases s.board.apply action s.cursor <;> simp

theorem exists_of_run_error {s s' : Batch} {actions : List Action} {error : ActionError}
    (h : s.run actions = (s', some error))
    : ∃ front action rest, actions = front ++ action :: rest ∧ s.run front = (s', none) ∧
        s'.step action = .error error := by
  induction actions generalizing s with
  | nil => cases h
  | cons action rest ih =>
    rw [run] at h
    cases hnext : s.step action with
    | error refused =>
      rw [hnext] at h
      cases h
      exact ⟨[], action, rest, rfl, rfl, hnext⟩
    | ok next =>
      rw [hnext] at h
      obtain ⟨front, refused, behind, rfl, hfront, hrefused⟩ := ih h
      refine ⟨action :: front, refused, behind, rfl, ?_, hrefused⟩
      rw [run, hnext]
      exact hfront

end Batch

end SignalBoard
