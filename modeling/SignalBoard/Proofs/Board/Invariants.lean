import SignalBoard.Board.Lemmas
import SignalBoard.Proofs.Action.Inverse
import SignalBoard.Proofs.Space.Grid

/-!
This module contains the invariants of the board, each with one lemma for every operation of the
board: the active positions are those of the emitters, pulses stay on the board, and modules are
stored with positions that the board can send pulses from.
-/

namespace SignalBoard

namespace Module

theorem cases_of_mem_route {m : Module} {old pulse : Pulse} (h : pulse ∈ m.route old)
    : pulse = .leaving m.position pulse.direction ∨ pulse = old.step := by
  unfold route at h
  split at h
  · split at h
    · obtain ⟨d, _, rfl⟩ := List.mem_map.mp h
      exact .inl rfl
    · exact .inr (List.mem_singleton.mp h)
  · exact .inr (List.mem_singleton.mp h)

theorem position_of_mem_emit {m : Module} {beat : Nat} {pulse : Pulse} (h : pulse ∈ m.emit beat)
    : pulse.position = m.position := by
  unfold emit at h
  split at h
  · split at h
    · obtain ⟨d, _, rfl⟩ := List.mem_map.mp h
      rfl
    · cases h
  · cases h

end Module

namespace Board

theorem install_of_notMem {b : Board} {p : Position} (hp : p ∉ b.size) (m : Module)
    : b.install p m = b := by
  have : b.modules.replace p m = .error .outOfRange := Grid.replace_eq_error_iff.mpr hp
  rw [install, this]

/--
The active positions are exactly those of the emitters, each held once.
-/
structure ActivationExact (b : Board) : Prop where
  nodup : b.active.toList.Nodup
  mem_iff : ∀ p, p ∈ b.active ↔ ∃ m, b.get? p = some m ∧ m.kind = .emitter

theorem activationExact_new (size : Size) : (new size).ActivationExact := by
  constructor
  · exact List.nodup_nil
  · intro p
    constructor
    · intro h
      cases h
    · rintro ⟨m, hm, hkind⟩
      rw [get?_new] at hm
      split at hm
      · cases hm
        cases hkind
      · cases hm

namespace ActivationExact

theorem install {b : Board} (h : b.ActivationExact) (p : Position) (m : Module)
    : (b.install p m).ActivationExact := by
  by_cases hp : p ∈ b.size
  · obtain ⟨previous, hprevious⟩ := exists_get? hp
    have hactive : ∀ m : Module, m.isActive = true ↔ m.kind = .emitter := by
      simp [Module.isActive]
    have hnodup : (if previous.isActive then b.active.erase p else b.active).toList.Nodup := by
      split
      · exact OrderedSet.nodup_erase h.nodup p
      · exact h.nodup
    -- whatever stood on `p`, it is not among the positions that are kept
    have hkept : ∀ q, q ∈ (if previous.isActive then b.active.erase p else b.active) ↔
        q ≠ p ∧ q ∈ b.active := by
      intro q
      split
      · rw [OrderedSet.mem_erase h.nodup]
      · rename_i hpassive
        constructor
        · intro hq
          refine ⟨?_, hq⟩
          rintro rfl
          obtain ⟨other, hother, hkind⟩ := (h.mem_iff q).mp hq
          rw [hprevious] at hother
          cases hother
          exact hpassive ((hactive previous).mpr hkind)
        · exact And.right
    constructor
    · rw [active_install hprevious]
      dsimp only
      split
      · exact OrderedSet.nodup_insert hnodup p
      · exact hnodup
    · intro q
      rw [active_install hprevious, get?_install hp]
      dsimp only
      by_cases hq : q = p
      · rw [if_pos hq]
        split
        · simp_all [OrderedSet.mem_insert]
        · simp_all
      · rw [if_neg hq, ← h.mem_iff]
        split
        · simp_all [OrderedSet.mem_insert]
        · simp_all
  · rwa [install_of_notMem hp]

theorem apply {b b' : Board} (h : b.ActivationExact) {action : Action} {p : Position} {undo : Undo}
    (happly : b.apply action p = .ok (b', undo)) : b'.ActivationExact := by
  obtain ⟨_, replacement, _, _, rfl⟩ := apply_eq_ok_iff.mp happly
  exact h.install p replacement

theorem revert {b b' : Board} (h : b.ActivationExact) {undo : Undo} {p : Position}
    (hrevert : b.revert undo p = .ok b') : b'.ActivationExact := by
  obtain ⟨_, restored, _, _, rfl⟩ := revert_eq_ok_iff.mp hrevert
  exact h.install p restored

theorem update {b : Board} (h : b.ActivationExact) (beat : Nat) : (b.update beat).ActivationExact :=
  ⟨h.nodup, h.mem_iff⟩

theorem addPulse {b : Board} (h : b.ActivationExact) (pulse : Pulse)
    : (b.addPulse pulse).ActivationExact := by
  constructor
  · rw [active_addPulse]
    exact h.nodup
  · intro p
    rw [active_addPulse, get?_addPulse]
    exact h.mem_iff p

end ActivationExact

/--
Every module is stored with a position to which the position of its cell is related by `R`.
-/
def Stores (b : Board) (R : Position → Position → Prop) : Prop :=
  ∀ p m, b.get? p = some m → R p m.position

namespace Stores

variable {R : Position → Position → Prop}

theorem install {b : Board} (h : b.Stores R) {p : Position} {m : Module} (hm : R p m.position)
    : (b.install p m).Stores R := by
  by_cases hp : p ∈ b.size
  · intro q n hq
    rw [get?_install hp] at hq
    split at hq
    · rename_i hqp
      cases hq
      rwa [hqp]
    · exact h q n hq
  · rwa [install_of_notMem hp]

theorem apply {b b' : Board} (h : b.Stores R) {action : Action} {p : Position} {undo : Undo}
    (happly : b.apply action p = .ok (b', undo)) : b'.Stores R ∧ undo.PutsAt (R p) := by
  obtain ⟨m, replacement, hm, haction, rfl⟩ := apply_eq_ok_iff.mp happly
  constructor
  · apply h.install
    rw [Action.position_of_apply haction]
    exact h p m hm
  · exact Undo.putsAt_of_apply haction (h p m hm)

theorem revert {b b' : Board} (h : b.Stores R) {undo : Undo} {p : Position}
    (hundo : undo.PutsAt (R p)) (hrevert : b.revert undo p = .ok b') : b'.Stores R := by
  obtain ⟨m, restored, hm, hrestored, rfl⟩ := revert_eq_ok_iff.mp hrevert
  apply h.install
  exact Undo.position_of_apply hrestored hundo (h p m hm)

theorem update {b : Board} (h : b.Stores R) (beat : Nat) : (b.update beat).Stores R :=
  h

theorem addPulse {b : Board} (h : b.Stores R) (pulse : Pulse) : (b.addPulse pulse).Stores R := by
  intro p m hm
  rw [get?_addPulse] at hm
  exact h p m hm

end Stores

/--
The pulses that become of those in flight within one beat, before it is looked at whether they are
still on the board.
-/
def arrivals (b : Board) : List Pulse :=
  b.pulses.toList.flatMap fun pulse =>
    match b.get? pulse.position with
    | some m => m.route pulse
    | none => []

theorem pulses_update (b : Board) (beat : Nat)
    : (b.update beat).pulses
        =
      .ofList (b.arrivals.filter (·.position ∈ b.size) ++ b.active.toList.flatMap (b.emitAt beat)) := by
  have hroute : ∀ pulses : List Pulse, pulses.flatMap b.routePulse
        =
      (pulses.flatMap fun pulse =>
        match b.get? pulse.position with
        | some m => m.route pulse
        | none => []).filter (·.position ∈ b.size) := by
    intro pulses
    rw [List.filter_flatMap]
    congr 1
    funext pulse
    unfold routePulse
    cases b.get? pulse.position <;> rfl
  rw [update, hroute]
  rfl

/--
All pulses in flight are on the board, and no two of them are the same.
-/
structure PulsesConfined (b : Board) : Prop where
  nodup : b.pulses.toList.Nodup
  inside : ∀ pulse ∈ b.pulses, pulse.position ∈ b.size

namespace PulsesConfined

theorem install {b : Board} (h : b.PulsesConfined) (p : Position) (m : Module)
    : (b.install p m).PulsesConfined := by
  constructor
  · rw [pulses_install]
    exact h.nodup
  · rw [pulses_install, size_install]
    exact h.inside

theorem addPulse {b : Board} (h : b.PulsesConfined) (pulse : Pulse)
    : (b.addPulse pulse).PulsesConfined := by
  unfold Board.addPulse
  split
  · rename_i haccepts
    simp only [accepts, decide_eq_true_eq] at haccepts
    constructor
    · exact OrderedSet.nodup_insert h.nodup pulse
    · intro other hother
      rcases OrderedSet.mem_insert.mp hother with rfl | hother
      · exact haccepts.1
      · exact h.inside other hother
  · exact h

theorem update {b : Board} (hstores : b.Stores fun _ q => q ∈ b.size) (beat : Nat)
    : (b.update beat).PulsesConfined := by
  constructor
  · apply OrderedSet.nodup_ofList
  · intro pulse hpulse
    rw [pulses_update, OrderedSet.mem_ofList, List.mem_append] at hpulse
    rw [size_update]
    rcases hpulse with harrival | hemitted
    · simpa using (List.mem_filter.mp harrival).2
    · obtain ⟨p, _, hemit⟩ := List.mem_flatMap.mp hemitted
      unfold emitAt at hemit
      split at hemit
      · rename_i m hm
        rw [Module.position_of_mem_emit hemit]
        exact hstores p m hm
      · cases hemit

theorem length_le {b : Board} (h : b.PulsesConfined)
    : b.pulses.toList.length ≤ 4 * b.size.width * b.size.height := by
  have hsubset : b.pulses.toList ⊆
      b.size.positions.flatMap fun p => Direction.all.map (Pulse.mk p) := by
    intro pulse hpulse
    rw [List.mem_flatMap]
    refine ⟨pulse.position, Size.mem_positions.mpr (h.inside pulse hpulse), ?_⟩
    exact List.mem_map.mpr ⟨pulse.direction, Direction.mem_all _, rfl⟩
  calc
    b.pulses.toList.length
      ≤ (b.size.positions.flatMap fun p => Direction.all.map (Pulse.mk p)).length :=
        h.nodup.length_le_of_subset hsubset
    _ = b.size.area * 4 := by
      rw [Size.length_rows (w := 4) (by simp [Direction.all]), Size.length_positions]
    _ = 4 * b.size.width * b.size.height := by
      rw [Size.area, Nat.mul_comm, Nat.mul_assoc]

end PulsesConfined

theorem arrivals_bounds {b : Board} (hpulses : b.PulsesConfined)
    (hstores : b.Stores fun _ q => q ∈ b.size) {pulse : Pulse} (hpulse : pulse ∈ b.arrivals)
    : -1 ≤ pulse.position.x ∧ pulse.position.x ≤ b.size.width ∧
        -1 ≤ pulse.position.y ∧ pulse.position.y ≤ b.size.height := by
  obtain ⟨old, hold, hroute⟩ := List.mem_flatMap.mp hpulse
  split at hroute
  · rename_i m hm
    rcases Module.cases_of_mem_route hroute with hleft | hstep
    · rw [hleft]
      exact Size.moved_bounds (hstores _ m hm) _
    · rw [hstep]
      exact Size.moved_bounds (hpulses.inside old hold) _
  · cases hroute

end Board

end SignalBoard
