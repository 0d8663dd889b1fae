import SignalBoard.Proofs.Board.Independence
import SignalBoard.Proofs.Engine.ActivationOrder

/-!
This module shows that conflicts on the way back stay where they arise: `Engine.conflicts_stay_local`. The
records of a batch are looked at cell by cell. A record that is skipped on one cell has no influence on the
records of the others.
-/

namespace SignalBoard

/--
The call that goes back one record.
-/
def Record.call (record : Record) : BoardCall :=
  .revert record.undo record.position

/--
What going back through records makes of the module `m` on the cell `p`.
-/
def Record.backAt (records : List Record) (p : Position) (m : Module) : Module :=
  ((records.map Record.call).filter (·.position? = some p)).foldl BoardCall.replace m

namespace Record

variable {record : Record} {records : List Record} {p : Position} {m : Module}

theorem backAt_cons_self : backAt (record :: records) record.position m
    = backAt records record.position (record.call.replace m) := by
  simp [backAt, call, BoardCall.position?]

theorem backAt_cons_of_ne (h : record.position ≠ p)
    : backAt (record :: records) p m = backAt records p m := by
  simp [backAt, call, BoardCall.position?, h]

theorem backAt_of_notMem (h : p ∉ records.map Record.position) : backAt records p m = m := by
  induction records with
  | nil => rfl
  | cons record records ih =>
    rw [List.map_cons, List.mem_cons, not_or] at h
    rw [backAt_cons_of_ne (Ne.symm h.1), ih h.2]

end Record

namespace Board

/--
The errors of the records that conflict on the way back, in the order in which they are met.
-/
def conflicts (b : Board) : List Record → List ActionError
  | [] => []
  | record :: records =>
    match b.revert record.undo record.position with
    | .ok b => b.conflicts records
    | .error error => error :: b.conflicts records

theorem snd_revertAll (b : Board) (records : List Record)
    : (b.revertAll records).2 = (b.conflicts records).getLast? := by
  induction records generalizing b with
  | nil => rfl
  | cons record records ih =>
    rw [revertAll_cons, conflicts]
    cases b.revert record.undo record.position with
    | ok b => exact ih b
    | error error =>
      dsimp only
      rw [ih, List.getLast?_cons]

theorem fst_revertAll (b : Board) (records : List Record)
    : (b.revertAll records).1 = b.callAll (records.map Record.call) := by
  induction records generalizing b with
  | nil => rfl
  | cons record records ih =>
    rw [revertAll_cons, List.map_cons, callAll, ← ih, Record.call, call]
    cases b.revert record.undo record.position <;> rfl

theorem get?_revertAll (b : Board) (records : List Record) (p : Position)
    : (b.revertAll records).1.get? p = (b.get? p).map (Record.backAt records p) := by
  rw [fst_revertAll, get?_callAll]
  rfl

theorem get?_revertAll_of_notMem {b : Board} {records : List Record} {p : Position}
    (h : p ∉ records.map Record.position) : (b.revertAll records).1.get? p = b.get? p := by
  rw [get?_revertAll]
  cases b.get? p with
  | none => rfl
  | some m => rw [Option.map_some, Record.backAt_of_notMem h]

end Board

namespace Batch

/--
On every cell by itself, the records of the batch lead back to the module that stands there on `b`.
-/
def LeadsBack (s : Batch) (b : Board) : Prop :=
  ∀ p, (s.board.get? p).map (Record.backAt s.records p) = b.get? p

theorem leadsBack_step {s next : Batch} {b : Board} {action : Action} (h : s.LeadsBack b)
    (hnext : s.step action = .ok next) : next.LeadsBack b := by
  rcases cases_of_step hnext with ⟨_, rfl⟩ | ⟨board, undo, _, happly, rfl⟩
  · exact h
  · intro p
    obtain ⟨m, replacement, hm, haction, rfl⟩ := Board.apply_eq_ok_iff.mp happly
    rw [← h p]
    dsimp only
    rw [Board.get?_install (Board.mem_size_of_get? hm)]
    split
    · -- the undo of the newest edit finds what the edit left behind
      rename_i hp
      subst hp
      have hback : (Record.call ⟨s.cursor, undo⟩).replace replacement = m := by
        rw [Record.call, BoardCall.replace, Undo.apply_of_apply haction]
      rw [hm, Option.map_some, Option.map_some, Record.backAt_cons_self, hback]
    · rename_i hp
      congr 1
      funext m
      exact Record.backAt_cons_of_ne (Ne.symm hp)

theorem leadsBack_run {s : Batch} {b : Board} (h : s.LeadsBack b) (actions : List Action)
    : (s.run actions).1.LeadsBack b :=
  run_induction (P := (·.LeadsBack b)) (fun _ _ _ h hnext => leadsBack_step h hnext) h actions

end Batch

/--
What can happen to a board between a batch and its undo.
-/
inductive Disturbance where
  /-- A call behind the engine's back. -/
  | call (c : BoardCall)
  | tick

def Disturbance.position? : Disturbance → Option Position
  | .call c => c.position?
  | .tick => none

namespace Engine

def disturb (e : Engine) : Disturbance → Engine
  | .call c => { e with board := e.board.call c }
  | .tick => e.tick

def disturbAll (e : Engine) : List Disturbance → Engine
  | [] => e
  | d :: ds => (e.disturb d).disturbAll ds

theorem history_disturbAll (e : Engine) (ds : List Disturbance)
    : (e.disturbAll ds).history = e.history := by
  induction ds generalizing e with
  | nil => rfl
  | cons d ds ih =>
    rw [disturbAll, ih]
    cases d <;> rfl

/--
For the board, disturbances are calls. A tick is the update with the present beat.
-/
theorem exists_board_disturbAll (e : Engine) (ds : List Disturbance)
    : ∃ calls : List BoardCall, calls.map BoardCall.position? = ds.map Disturbance.position? ∧
        (e.disturbAll ds).board = e.board.callAll calls := by
  induction ds generalizing e with
  | nil => exact ⟨[], rfl, rfl⟩
  | cons d ds ih =>
    obtain ⟨calls, hpositions, hboard⟩ := ih (e.disturb d)
    rw [disturbAll, hboard, List.map_cons, ← hpositions]
    cases d with
    | call c => exact ⟨c :: calls, rfl, rfl⟩
    | tick => exact ⟨.update e.beats :: calls, rfl, rfl⟩

theorem get?_disturbAll_of_ne {e : Engine} {ds : List Disturbance} {p : Position}
    (h : ∀ d ∈ ds, d.position? ≠ some p) : (e.disturbAll ds).board.get? p = e.board.get? p := by
  obtain ⟨calls, hpositions, hboard⟩ := e.exists_board_disturbAll ds
  rw [hboard]
  apply Board.get?_callAll_of_ne
  intro c hc hp
  have hmem : some p ∈ ds.map Disturbance.position? := by
    rw [← hpositions, ← hp]
    exact List.mem_map_of_mem hc
  obtain ⟨d, hd, hdp⟩ := List.mem_map.mp hmem
  exact h d hd hdp

theorem activationExact_disturbAll {e : Engine} (h : e.board.ActivationExact) (ds : List Disturbance)
    : (e.disturbAll ds).board.ActivationExact := by
  obtain ⟨calls, _, hboard⟩ := e.exists_board_disturbAll ds
  rw [hboard]
  exact Board.activationExact_callAll h calls

/--
A batch that edits modules and can be remembered is the newest one that can be undone, and its records lead
back cell by cell.
-/
theorem exists_records_of_perform {e : Engine} {actions : List Action}
    (hperform : (e.perform actions).1 = .ok ()) (hedits : actions.any (·.scope = .cell) = true)
    (hlimit : 0 < e.maxHistory)
    : ∃ records older, (e.perform actions).2.history = records :: older ∧
        records.map Record.position = e.editedBy actions ∧
        ∀ p, ((e.perform actions).2.board.get? p).map (Record.backAt records p) = e.board.get? p := by
  obtain ⟨s, hrun, haccepted⟩ := exists_run_of_perform_ok hperform
  have hleads : (e.startBatch.run actions).1.LeadsBack e.board := by
    apply Batch.leadsBack_run
    intro p
    exact Option.map_id_apply
  obtain ⟨limit, hlimit⟩ := Nat.exists_eq_add_one.mpr hlimit
  rw [hrun] at hleads
  rw [haccepted, editedBy, hrun]
  refine ⟨s.records, e.history.take limit, ?_, rfl, ?_⟩
  · rw [history_accepted_of_edits hrun hedits, hlimit]
    rfl
  · rw [board_accepted]
    exact hleads

/--
After a batch, and whatever was done to the board behind the engine's back in the meantime, undoing takes
the batch off the history. It leaves the cells alone that the batch did not edit, and puts back the module
from before the batch on the cells that were not touched again, or stand as the batch left them, whatever
becomes of the records of other cells. The status tells the last conflict, if there is one. The active
positions still are those of the emitters.
-/
theorem conflicts_stay_local (e : Engine) (actions : List Action)
    (hperform : (e.perform actions).1 = .ok ()) (hedits : actions.any (·.scope = .cell) = true)
    (hlimit : 0 < e.maxHistory) (ds : List Disturbance)
    : let done := (e.perform actions).2
      let disturbed := done.disturbAll ds
      let undone := disturbed.undo.2
      disturbed.undo.1 = true ∧ undone.history.length + 1 = disturbed.history.length ∧
      (∀ p, p ∉ e.editedBy actions → undone.board.get? p = disturbed.board.get? p) ∧
      (∀ p, (∀ d ∈ ds, d.position? ≠ some p) ∨ disturbed.board.get? p = done.board.get? p →
        undone.board.get? p = e.board.get? p) ∧
      (∃ records, disturbed.history = records :: undone.history ∧
        records.map Record.position = e.editedBy actions ∧
        undone.status =
          match (disturbed.board.conflicts records).getLast? with
          | some error => some error.message
          | none => disturbed.status) ∧
      (e.board.ActivationExact → undone.board.ActivationExact) := by
  intro done disturbed undone
  obtain ⟨records, older, hhistory, hpositions, hback⟩ :=
    exists_records_of_perform hperform hedits hlimit
  have hdisturbed : disturbed.history = records :: older := by
    rw [history_disturbAll, hhistory]
  have hundo : disturbed.undo = (true, disturbed.undone records older) := undo_cons hdisturbed
  have hundone : undone = disturbed.undone records older := congrArg Prod.snd hundo
  have hboard : undone.board = (disturbed.board.revertAll records).1 := by
    rw [hundone]
    rfl
  refine ⟨by rw [hundo], ?_, ?_, ?_, ⟨records, ?_, hpositions, ?_⟩, ?_⟩
  · rw [hundone, hdisturbed]
    rfl
  · intro p hp
    rw [← hpositions] at hp
    rw [hboard, Board.get?_revertAll_of_notMem hp]
  · intro p hp
    have hsame : disturbed.board.get? p = done.board.get? p := by
      rcases hp with hp | hp
      · exact get?_disturbAll_of_ne hp
      · exact hp
    rw [hboard, Board.get?_revertAll, hsame]
    exact hback p
  · rw [hundone, hdisturbed]
    rfl
  · rw [hundone, ← Board.snd_revertAll]
    rfl
  · intro h
    rw [hboard]
    apply Board.revertAll_induction Board.kept_activationExact.install
    exact activationExact_disturbAll (kept_perform Board.kept_activationExact h actions) ds

theorem conflicts_stay_local_emitter
    : let e := Engine.new ⟨2, 1⟩ .zero .default
      let actions := [.changeType "emitter", .changeProperty [("interval", "7")], .moveCursor .right,
        .changeType "spreader"]
      let ds := [.call (.apply (.changeType "empty") ⟨0, 0⟩), .tick]
      let disturbed := (e.perform actions).2.disturbAll ds
      let undone := disturbed.undo.2
      (e.perform actions).1 = .ok () ∧ disturbed.undo.1 = true ∧
      undone.board.get? ⟨1, 0⟩ = some (.new .empty ⟨1, 0⟩) ∧
      (∃ records, disturbed.history = records :: undone.history ∧
        records.map Record.position = [⟨1, 0⟩, ⟨0, 0⟩, ⟨0, 0⟩]) ∧
      undone.status
        =
      some "tried to undo, but target was 'emitter' while the current module is 'empty'" := by
  intro e actions ds disturbed undone
  have hperform : (e.perform actions).1 = .ok () := by decide +kernel
  have hedited : e.editedBy actions = [⟨1, 0⟩, ⟨0, 0⟩, ⟨0, 0⟩] := by decide +kernel
  have hbefore : e.board.get? ⟨1, 0⟩ = some (.new .empty ⟨1, 0⟩) := by decide +kernel
  have hstatus : undone.status
      = some "tried to undo, but target was 'emitter' while the current module is 'empty'" := by
    decide +kernel
  have hedits : actions.any (·.scope = .cell) = true := by decide
  have hlimit : 0 < e.maxHistory := by decide
  have hds : ∀ d ∈ ds, d.position? ≠ some ⟨1, 0⟩ := by decide
  clear_value e actions ds
  obtain ⟨htrue, _, _, hback, ⟨records, hhistory, hpositions, _⟩, _⟩ :=
    conflicts_stay_local e actions hperform hedits hlimit ds
  exact ⟨hperform, htrue, (hback ⟨1, 0⟩ (.inl hds)).trans hbefore,
    ⟨records, hhistory, hpositions.trans hedited⟩, hstatus⟩

end Engine

end SignalBoard
