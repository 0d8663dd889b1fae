import Mathlib.Data.List.Perm.Basic
import SignalBoard.Proofs.Batch.Rollback

/-!
This module compares boards that differ only in the order of their active positions and of their
pulses: `Board.Reordering`. Whatever is done to both of them has the same outcome, and keeps them so
related.
-/

namespace SignalBoard

namespace OrderedSet

/--
Both sets have the same members, in whatever order.
-/
def Perm {α : Type} (s t : OrderedSet α) : Prop :=
  s.toList.Perm t.toList

namespace Perm

variable {α β : Type} [DecidableEq α] [DecidableEq β] {s t : OrderedSet α}

omit [DecidableEq α] in
theorem mem_iff (h : s.Perm t) {a : α} : a ∈ s ↔ a ∈ t :=
  List.Perm.mem_iff h

theorem insert (h : s.Perm t) (a : α) : (s.insert a).Perm (t.insert a) := by
  have hmem : a ∈ t.toList ↔ a ∈ s.toList := h.mem_iff.symm
  unfold Perm
  rw [toList_insert, toList_insert]
  simp only [hmem]
  split
  · exact h
  · exact List.Perm.append_right [a] h

theorem erase (h : s.Perm t) (a : α) : (s.erase a).Perm (t.erase a) :=
  List.Perm.erase a h

theorem ofList {as bs : List α} (h : as.Perm bs) : (OrderedSet.ofList as).Perm (.ofList bs) := by
  apply (List.perm_ext_iff_of_nodup (nodup_ofList as) (nodup_ofList bs)).mpr
  intro a
  rw [← OrderedSet.mem_iff, ← OrderedSet.mem_iff, mem_ofList, mem_ofList]
  exact h.mem_iff

omit [DecidableEq α] in
theorem map (h : s.Perm t) (f : α → β) : (s.map f).Perm (t.map f) :=
  ofList (List.Perm.map f h)

end Perm

end OrderedSet

/--
The board `c` differs from `b` at most in the order of the active positions and of the pulses.
-/
structure Board.Reordering (b c : Board) : Prop where
  modules : c.modules = b.modules
  active : b.active.Perm c.active
  pulses : b.pulses.Perm c.pulses

namespace Board.Reordering

variable {b c : Board}

theorem size (h : b.Reordering c) : c.size = b.size := by
  rw [Board.size, h.modules, Board.size]

theorem get? (h : b.Reordering c) (p : Position) : c.get? p = b.get? p := by
  rw [Board.get?, h.modules, Board.get?]

theorem propertiesAt (h : b.Reordering c) (p : Position) : c.propertiesAt p = b.propertiesAt p := by
  rw [Board.propertiesAt, h.get?, Board.propertiesAt]

theorem accepts (h : b.Reordering c) (pulse : Pulse) : c.accepts pulse = b.accepts pulse := by
  simp only [Board.accepts, h.size, h.pulses.mem_iff]

theorem addPulse (h : b.Reordering c) (pulse : Pulse)
    : (b.addPulse pulse).Reordering (c.addPulse pulse) := by
  unfold Board.addPulse
  rw [h.accepts]
  split
  · exact ⟨h.modules, h.active, h.pulses.insert pulse⟩
  · exact h

theorem update (h : b.Reordering c) (beat : Nat) : (b.update beat).Reordering (c.update beat) := by
  constructor
  · exact h.modules
  · exact h.active
  · unfold Board.update
    rw [routePulse_congr h.modules, emitAt_congr h.modules]
    -- both phases go through their sets one by one, and what they yield is collected into a set
    apply OrderedSet.Perm.ofList
    exact (List.Perm.flatMap_right _ h.pulses).append (List.Perm.flatMap_right _ h.active)

theorem install (h : b.Reordering c) (p : Position) (m : Module)
    : (b.install p m).Reordering (c.install p m) := by
  unfold Board.install
  rw [h.modules]
  cases b.modules.replace p m with
  | error error => exact h
  | ok result =>
    obtain ⟨previous, modules⟩ := result
    have hactive : (if previous.isActive then b.active.erase p else b.active).Perm
        (if previous.isActive then c.active.erase p else c.active) := by
      split
      · exact h.active.erase p
      · exact h.active
    refine ⟨rfl, ?_, h.pulses⟩
    dsimp only
    split
    · exact hactive.insert p
    · exact hactive

theorem apply (h : b.Reordering c) (action : Action) (p : Position)
    : (∃ error, b.apply action p = .error error ∧ c.apply action p = .error error) ∨
        (∃ b' c' undo, b.apply action p = .ok (b', undo) ∧ c.apply action p = .ok (c', undo) ∧
          b'.Reordering c') := by
  unfold Board.apply
  rw [h.get?]
  cases b.get? p with
  | none => exact .inl ⟨_, rfl, rfl⟩
  | some current =>
    dsimp only
    cases action.apply current with
    | error error => exact .inl ⟨error, rfl, rfl⟩
    | ok result => exact .inr ⟨_, _, result.2, rfl, rfl, h.install p result.1⟩

theorem revert (h : b.Reordering c) (undo : Undo) (p : Position)
    : (∃ error, b.revert undo p = .error error ∧ c.revert undo p = .error error) ∨
        (∃ b' c', b.revert undo p = .ok b' ∧ c.revert undo p = .ok c' ∧ b'.Reordering c') := by
  unfold Board.revert
  rw [h.get?]
  cases b.get? p with
  | none => exact .inl ⟨_, rfl, rfl⟩
  | some current =>
    dsimp only
    cases undo.apply current with
    | error error => exact .inl ⟨error, rfl, rfl⟩
    | ok restored => exact .inr ⟨_, _, rfl, rfl, h.install p restored⟩

theorem revertAll (h : b.Reordering c) (records : List Record)
    : (c.revertAll records).2 = (b.revertAll records).2 ∧
        (b.revertAll records).1.Reordering (c.revertAll records).1 := by
  induction records generalizing b c with
  | nil => exact ⟨rfl, h⟩
  | cons record records ih =>
    rw [revertAll_cons, revertAll_cons]
    rcases h.revert record.undo record.position with ⟨error, hb, hc⟩ | ⟨b', c', hb, hc, h'⟩
    · -- the record is skipped on both boards, and its error counts if it is the last one
      rw [hb, hc]
      obtain ⟨hconflict, hboards⟩ := ih h
      dsimp only
      rw [hconflict]
      exact ⟨rfl, hboards⟩
    · rw [hb, hc]
      exact ih h'

end Board.Reordering

/--
The batch `t` has come as far as `s`, on a board that differs at most in its orders.
-/
structure Batch.Reordering (s t : Batch) : Prop where
  board : s.board.Reordering t.board
  cursor : t.cursor = s.cursor
  records : t.records = s.records

namespace Batch.Reordering

variable {s t : Batch}

theorem step (h : s.Reordering t) (action : Action)
    : (∃ error, s.step action = .error error ∧ t.step action = .error error) ∨
        (∃ s' t', s.step action = .ok s' ∧ t.step action = .ok t' ∧ s'.Reordering t') := by
  unfold Batch.step
  cases action.scope with
  | editor =>
    right
    refine ⟨_, _, rfl, rfl, h.board, ?_, h.records⟩
    dsimp only
    rw [h.cursor, h.board.size]
  | cell =>
    dsimp only
    rw [h.cursor]
    rcases h.board.apply action s.cursor with ⟨error, hs, ht⟩ | ⟨b, c, undo, hs, ht, hboard⟩
    · rw [hs, ht]
      exact .inl ⟨error, rfl, rfl⟩
    · rw [hs, ht, h.records]
      exact .inr ⟨_, _, rfl, rfl, hboard, rfl, rfl⟩

theorem run (h : s.Reordering t) (actions : List Action)
    : (t.run actions).2 = (s.run actions).2 ∧ (s.run actions).1.Reordering (t.run actions).1 := by
  induction actions generalizing s t with
  | nil => exact ⟨rfl, h⟩
  | cons action rest ih =>
    rw [Batch.run, Batch.run]
    rcases h.step action with ⟨error, hs, ht⟩ | ⟨s', t', hs, ht, h'⟩
    · rw [hs, ht]
      exact ⟨rfl, h⟩
    · rw [hs, ht]
      exact ih h'

end Batch.Reordering

end SignalBoard
