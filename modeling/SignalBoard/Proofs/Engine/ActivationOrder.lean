import Mathlib.Data.List.Dedup
import SignalBoard.Proofs.Board.Reordering
import SignalBoard.Proofs.Engine.Rejection

/-!
This module describes the order of the active positions after a batch that was refused:
`Engine.order_of_rejected`. An edit of an active module moves its position behind all others, and
taking the edit back does so again.
-/

namespace SignalBoard

section Filter

variable {α : Type} [DecidableEq α]

theorem filter_notMem_cons (p : α) (ps as : List α)
    : as.filter (· ∉ p :: ps) = (as.filter (· ∉ ps)).filter (· ≠ p) := by
  rw [List.filter_filter]
  apply List.filter_congr
  intro a _
  simp

theorem filter_notMem_cons_of_mem {p : α} {ps : List α} (h : p ∈ ps) (as : List α)
    : as.filter (· ∉ p :: ps) = as.filter (· ∉ ps) := by
  apply List.filter_congr
  intro a _
  by_cases ha : a = p
  · simp [ha, h]
  · simp [ha]

end Filter

namespace Board

theorem toList_active_install {b : Board} (h : b.ActivationExact) {p : Position} (hp : p ∈ b.size)
    (m : Module)
    : (b.install p m).active.toList
        =
      b.active.toList.filter (· ≠ p) ++ if m.isActive then [p] else [] := by
  obtain ⟨previous, hprevious⟩ := exists_get? hp
  -- the position is among the active ones exactly if it is taken out
  have herased : (if previous.isActive then b.active.erase p else b.active).toList
      = b.active.toList.filter (· ≠ p) := by
    split
    · rw [OrderedSet.toList_erase, h.nodup.erase_eq_filter]
      apply List.filter_congr
      intro q _
      rw [Bool.eq_iff_iff, bne_iff_ne, decide_eq_true_iff]
    · rename_i hpassive
      rw [eq_comm, List.filter_eq_self]
      intro q hq
      rw [decide_eq_true_iff]
      rintro rfl
      obtain ⟨other, hother, hkind⟩ := (h.mem_iff q).mp hq
      rw [hprevious] at hother
      cases hother
      simp [Module.isActive, hkind] at hpassive
  rw [active_install hprevious]
  dsimp only
  split
  · rw [OrderedSet.toList_insert, herased, if_neg]
    simp
  · rw [herased, List.append_nil]

theorem filter_active_install {b : Board} (h : b.ActivationExact) {p : Position} (hp : p ∈ b.size)
    (m : Module) (ps : List Position)
    : (b.install p m).active.toList.filter (· ∉ ps)
        =
      b.active.toList.filter (· ∉ p :: ps) ++ if m.isActive ∧ p ∉ ps then [p] else [] := by
  rw [toList_active_install h hp, List.filter_append, filter_notMem_cons, List.filter_comm]
  congr 1
  cases m.isActive with
  | true => simp [List.filter_cons]
  | false => simp

theorem filter_active_install_of_mem {b : Board} (h : b.ActivationExact) {p : Position}
    (hp : p ∈ b.size) (m : Module) {ps : List Position} (hps : p ∈ ps)
    : (b.install p m).active.toList.filter (· ∉ ps) = b.active.toList.filter (· ∉ ps) := by
  rw [filter_active_install h hp, filter_notMem_cons_of_mem hps, if_neg, List.append_nil]
  rintro ⟨_, hout⟩
  exact hout hps

theorem cases_of_revertEach_cons {b b' : Board} {record : Record} {records : List Record}
    (h : b.revertEach (record :: records) = .ok b')
    : ∃ restored, record.position ∈ b.size ∧
        (b.install record.position restored).revertEach records = .ok b' := by
  rw [revertEach_cons] at h
  cases hrevert : b.revert record.undo record.position with
  | error error =>
    rw [hrevert] at h
    cases h
  | ok c =>
    rw [hrevert] at h
    obtain ⟨m, restored, hm, _, rfl⟩ := revert_eq_ok_iff.mp hrevert
    exact ⟨restored, mem_size_of_get? hm, h⟩

theorem toList_active_revertEach {b b' : Board} (h : b.ActivationExact) {records : List Record}
    (hback : b.revertEach records = .ok b')
    : b'.active.toList
        =
      b.active.toList.filter (· ∉ records.map Record.position) ++
        (records.map Record.position).dedup.filter (· ∈ b'.active) := by
  -- each record puts its position last, so the last one for a position decides
  induction records generalizing b with
  | nil =>
    cases hback
    simp
  | cons record records ih =>
    obtain ⟨restored, hp, hrest⟩ := cases_of_revertEach_cons hback
    have horder := ih (h.install _ restored) hrest
    rw [List.map_cons]
    generalize record.position = p at hp horder ⊢
    generalize records.map Record.position = ps at horder ⊢
    by_cases hps : p ∈ ps
    · -- an older record restores the same position once more
      rw [filter_notMem_cons_of_mem hps, List.dedup_cons_of_mem hps]
      rw [filter_active_install_of_mem h hp restored hps] at horder
      exact horder
    · -- the position is put last here, if it is put anywhere, and stays where it is
      rw [filter_active_install h hp] at horder
      have hmem : p ∈ b'.active ↔ restored.isActive = true := by
        rw [OrderedSet.mem_iff, horder]
        simp [hps]
      rw [horder, List.dedup_cons_of_notMem hps, List.filter_cons, List.append_assoc]
      congr 1
      cases hactive : restored.isActive with
      | true => simp [hmem, hactive, hps]
      | false => simp [hmem, hactive]

end Board

namespace Batch

/--
The positions of the edits so far, the newest of which comes first.
-/
def edited (s : Batch) : List Position :=
  s.records.map Record.position

theorem filter_active_run {s : Batch} (h : s.board.ActivationExact) (actions : List Action)
    : let s' := (s.run actions).1
      s'.board.active.toList.filter (· ∉ s'.edited) = s.board.active.toList.filter (· ∉ s'.edited) := by
  intro s'
  suffices hrun : s'.board.ActivationExact ∧
      s'.board.active.toList.filter (· ∉ s'.edited) = s.board.active.toList.filter (· ∉ s'.edited) from
    hrun.2
  -- every edit adds its position to those that are left out
  apply run_induction (P := fun t => t.board.ActivationExact ∧
    t.board.active.toList.filter (· ∉ t.edited) = s.board.active.toList.filter (· ∉ t.edited))
  · rintro t action next ⟨hactivation, horder⟩ hnext
    rcases cases_of_step hnext with ⟨_, rfl⟩ | ⟨board, undo, _, happly, rfl⟩
    · exact ⟨hactivation, horder⟩
    · refine ⟨hactivation.apply happly, ?_⟩
      obtain ⟨m, replacement, hm, _, rfl⟩ := Board.apply_eq_ok_iff.mp happly
      have hcursor := Board.mem_size_of_get? hm
      unfold edited at horder ⊢
      dsimp only
      rw [List.map_cons,
        Board.filter_active_install_of_mem hactivation hcursor replacement List.mem_cons_self,
        filter_notMem_cons, horder, ← filter_notMem_cons]
  · exact ⟨h, rfl⟩

end Batch

namespace Engine

/--
The positions that a batch edits before one of its actions is refused, the newest of which comes first.
-/
def editedBy (e : Engine) (actions : List Action) : List Position :=
  (e.startBatch.run actions).1.edited

theorem toList_active_rejected {e : Engine} (h : e.board.ActivationExact) {actions : List Action}
    {s : Batch} {error : ActionError} (hrun : e.startBatch.run actions = (s, some error))
    : (e.rejected s).board.active.toList
        =
      e.board.active.toList.filter (· ∉ s.edited) ++
        s.edited.dedup.filter (· ∈ e.board.active) := by
  have hactivation := Batch.run_board_induction Board.kept_activationExact.install
    (s := e.startBatch) h actions
  have hkept := Batch.filter_active_run (s := e.startBatch) h actions
  rw [hrun] at hactivation hkept
  have horder := Board.toList_active_revertEach hactivation (revertEach_rejected hrun).1
  rw [← Batch.edited, hkept] at horder
  simp only [(untouched_rejected h hrun).active] at horder
  exact horder

theorem reordering_rejected {e : Engine} (h : e.board.ActivationExact) {actions : List Action}
    {s : Batch} {error : ActionError} (hrun : e.startBatch.run actions = (s, some error))
    : e.board.Reordering (e.rejected s).board := by
  have huntouched := untouched_rejected h hrun
  have hactivation := activationExact_rejected h hrun
  refine ⟨modules_rejected hrun, ?_, ?_⟩
  · apply (List.perm_ext_iff_of_nodup h.nodup hactivation.nodup).mpr
    intro p
    exact (huntouched.active p).symm
  · rw [huntouched.pulses]
    exact .refl _

/--
A refused batch leaves behind the same active positions as before. Those that it did not edit come first,
in their old order, then those that it did, each once, where the position whose first edit came latest
stands first. The order is the old one if no module that the batch edited was active, and the pulses after
the next beat are the old ones in any case, up to their order.
-/
theorem order_of_rejected {e e' : Engine} (h : e.Reachable) {actions : List Action}
    {error : ActionError} (hperform : e.perform actions = (.error error, e'))
    : e'.board.active.toList
          =
        e.board.active.toList.filter (· ∉ e.editedBy actions) ++
          (e.editedBy actions).dedup.filter (· ∈ e.board.active) ∧
      e.board.active.Perm e'.board.active ∧
      ((∀ p ∈ e.editedBy actions, p ∉ e.board.active) →
        e'.board.active.toList = e.board.active.toList) ∧
      ∀ beat, (e.board.update beat).pulses.Perm (e'.board.update beat).pulses := by
  have hactivation := activationExact_of_reachable h
  obtain ⟨s, hrun, rfl⟩ := perform_of_error hperform
  have hedited : e.editedBy actions = s.edited := by
    rw [editedBy, hrun]
  have horder := toList_active_rejected hactivation hrun
  have hreordering := reordering_rejected hactivation hrun
  rw [hedited]
  refine ⟨horder, hreordering.active, ?_, ?_⟩
  · intro hpassive
    rw [horder]
    have hkept : e.board.active.toList.filter (· ∉ s.edited) = e.board.active.toList := by
      rw [List.filter_eq_self]
      intro p hp
      rw [decide_eq_true_iff]
      intro hs
      exact hpassive p hs hp
    have hmoved : s.edited.dedup.filter (· ∈ e.board.active) = [] := by
      rw [List.filter_eq_nil_iff]
      intro p hp
      rw [decide_eq_true_iff]
      exact hpassive p (List.mem_dedup.mp hp)
    rw [hkept, hmoved, List.append_nil]
  · intro beat
    exact (hreordering.update beat).pulses

theorem order_of_rejected_emitters
    : let e := (Engine.new ⟨3, 1⟩ .zero .default).run [.submit "slslsh"]
      let actions := [.changeProperty [("interval", "7")], .moveCursor .left, .changeType "empty",
        .moveCursor .right, .changeType "spreader", .changeType "mixer"]
      (e.perform actions).1 = .error (.kind (.unknown "mixer")) ∧
      e.board.active.toList = [⟨0, 0⟩, ⟨1, 0⟩, ⟨2, 0⟩] ∧
      (e.perform actions).2.board.active.toList = [⟨2, 0⟩, ⟨0, 0⟩, ⟨1, 0⟩] := by
  intro e actions
  have hrefused : (e.perform actions).1 = .error (.kind (.unknown "mixer")) := by decide +kernel
  have hactive : e.board.active = ⟨[⟨0, 0⟩, ⟨1, 0⟩, ⟨2, 0⟩]⟩ := by decide +kernel
  have hedited : e.editedBy actions = [⟨1, 0⟩, ⟨0, 0⟩, ⟨1, 0⟩] := by decide +kernel
  have hreachable : e.Reachable := Reachable.run (.new _ _ _) _
  clear_value e actions
  have hperform : e.perform actions = (.error (.kind (.unknown "mixer")), (e.perform actions).2) :=
    Prod.ext hrefused rfl
  have horder := (order_of_rejected hreachable hperform).1
  rw [hedited, hactive] at horder
  exact ⟨hrefused, congrArg OrderedSet.toList hactive, horder⟩

/--
A refused batch can turn the order of two emitters around, and with it that of the pulses that they send
out on the next beat.
-/
theorem order_changed_by_refusal
    : let e := (Engine.new ⟨2, 1⟩ .zero .default).run [.submit "s", .submit "ls"]
      let actions := [.moveCursor .left, .changeProperty [("interval", "7")], .changeType "bogus"]
      let e' := (e.perform actions).2
      e.Reachable ∧ (e.perform actions).1 = .error (.kind (.unknown "bogus")) ∧
      e.board.active.toList = [⟨0, 0⟩, ⟨1, 0⟩] ∧ e'.board.active.toList = [⟨1, 0⟩, ⟨0, 0⟩] ∧
      e'.tick.board.pulses ≠ e.tick.board.pulses := by
  intro e actions e'
  refine ⟨Reachable.run (.new _ _ _) _, ?_, ?_, ?_, ?_⟩
  · decide +kernel
  · decide +kernel
  · decide +kernel
  · decide +kernel

end Engine

end SignalBoard
