import SignalBoard.Proofs.Board.NextPulses

/-!
This module says where all pulses are after any number of beats if there is no spreader on the board: each
has gone straight on since it came up. The main result is `Workbench.pulses_on_straight_lines`.
-/

namespace SignalBoard

namespace Pulse

/--
The pulse `n` cells further along its direction.
-/
def travelled (pulse : Pulse) (n : Nat) : Pulse :=
  { pulse with position := pulse.position + pulse.direction.vector.scale n }

@[simp]
theorem travelled_zero (pulse : Pulse) : pulse.travelled 0 = pulse := by
  obtain ⟨p, d⟩ := pulse
  simp only [travelled, mk.injEq, and_true]
  ext <;> simp

theorem travelled_step (pulse : Pulse) (n : Nat) : pulse.step.travelled n = pulse.travelled (n + 1) := by
  obtain ⟨p, d⟩ := pulse
  simp only [travelled, step, Position.moved, mk.injEq, and_true]
  ext <;> simp [Int.mul_add, Int.add_assoc, Int.add_comm]

theorem travelled_one (pulse : Pulse) : pulse.travelled 1 = pulse.step := by
  rw [← travelled_step, travelled_zero]

/--
A board is convex: a straight line between two of its cells does not leave it.
-/
theorem travelled_inside {size : Size} {pulse : Pulse} {m n : Nat} (hmn : m ≤ n)
    (hstart : pulse.position ∈ size) (hend : (pulse.travelled n).position ∈ size)
    : (pulse.travelled m).position ∈ size := by
  obtain ⟨⟨x, y⟩, d⟩ := pulse
  rw [Size.mem_iff] at hstart hend ⊢
  cases d <;>
    simp only [travelled, Direction.vector, Position.add_x, Position.add_y, Position.scale_x,
      Position.scale_y] at hstart hend ⊢ <;>
    omega

end Pulse

namespace Board

/--
Whether an emitter sends out the pulse on a beat.
-/
def Sends (b : Board) (beat : Nat) (pulse : Pulse) : Prop :=
  ∃ e, b.emitterAt? pulse.position = some e ∧ e.outputs.contains pulse.direction = true ∧
    0 < e.interval.toNat ∧ beat % e.interval.toNat = e.offset.toNat

theorem Sends.inside {b : Board} {beat : Nat} {pulse : Pulse} (h : b.Sends beat pulse)
    : pulse.position ∈ b.size := by
  obtain ⟨e, he, _⟩ := h
  obtain ⟨m, hm, _⟩ := Option.bind_eq_some_iff.mp he
  exact mem_size_of_get? hm

theorem mem_departures_iff {b : Board} {beat : Nat} {p : Position} {pulse : Pulse}
    : pulse ∈ b.departures beat p ↔ pulse.position = p ∧ b.Sends beat pulse := by
  unfold departures
  constructor
  · intro h
    split at h
    · rename_i e he
      split at h
      · rename_i hturn
        obtain ⟨d, hd, rfl⟩ := List.mem_map.mp h
        exact ⟨rfl, e, he, Directions.mem_toList.mp hd, hturn⟩
      · cases h
    · cases h
  · rintro ⟨rfl, e, he, houtput, hturn⟩
    rw [he]
    dsimp only
    rw [if_pos hturn]
    exact List.mem_map.mpr ⟨pulse.direction, Directions.mem_toList.mpr houtput, rfl⟩

theorem Aligned.mem_active_of_sends {b : Board} (h : b.Aligned) {beat : Nat} {pulse : Pulse}
    (hsends : b.Sends beat pulse) : pulse.position ∈ b.active := by
  obtain ⟨e, he, _⟩ := hsends
  obtain ⟨⟨p, body⟩, hm, hbody⟩ := Option.bind_eq_some_iff.mp he
  refine (h.activation.mem_iff _).mpr ⟨_, hm, ?_⟩
  cases body with
  | empty => cases hbody
  | spreader s => cases hbody
  | emitter e => rfl

/--
Whether an emitter has sent out the pulse on one of `n` beats, the first of which is `beat`, and it has gone
straight on since.
-/
def SentWithin (b : Board) (beat n : Nat) (pulse : Pulse) : Prop :=
  ∃ k < n, ∃ source, b.Sends (beat + k) source ∧ pulse = source.travelled (n - 1 - k)

theorem sentWithin_succ_iff {b : Board} {beat n : Nat} {pulse : Pulse}
    : b.SentWithin beat (n + 1) pulse ↔
        (∃ source, b.Sends beat source ∧ pulse = source.travelled n) ∨ b.SentWithin (beat + 1) n pulse := by
  constructor
  · rintro ⟨k, hk, source, hsends, rfl⟩
    cases k with
    | zero => exact .inl ⟨source, hsends, rfl⟩
    | succ k =>
      refine .inr ⟨k, Nat.lt_of_succ_lt_succ hk, source, ?_, ?_⟩
      · rwa [Nat.add_right_comm, Nat.add_assoc]
      · congr 1
        omega
  · rintro (⟨source, hsends, rfl⟩ | ⟨k, hk, source, hsends, rfl⟩)
    · exact ⟨0, Nat.succ_pos n, source, hsends, rfl⟩
    · refine ⟨k + 1, Nat.succ_lt_succ hk, source, ?_, ?_⟩
      · rwa [← Nat.add_assoc, Nat.add_right_comm]
      · congr 1
        omega

def SpreaderFree (b : Board) : Prop :=
  ∀ p m, b.get? p = some m → m.kind ≠ .spreader

theorem SpreaderFree.mem_successors_iff {b : Board} (h : b.SpreaderFree) {old pulse : Pulse}
    : pulse ∈ b.successors old ↔ pulse = old.step ∧ pulse.position ∈ b.size := by
  have hnone : b.spreaderAt? old.position = none := by
    unfold spreaderAt?
    cases hm : b.get? old.position with
    | none => rfl
    | some m =>
      have hkind := h _ m hm
      obtain ⟨p, body⟩ := m
      cases body with
      | empty => rfl
      | emitter e => rfl
      | spreader s => exact absurd rfl hkind
  rw [successors, exits, hnone, List.mem_filter, decide_eq_true_eq]
  dsimp only
  rw [List.map_singleton, List.mem_singleton]
  rfl

/--
The board lets pulses pass on straight lines: nothing turns them, and modules are stored where they are.
-/
structure Straight (b : Board) : Prop where
  aligned : b.Aligned
  spreaderFree : b.SpreaderFree

namespace Straight

variable {b : Board}

theorem withPulses (h : b.Straight) (pulses : OrderedSet Pulse) : (b.withPulses pulses).Straight :=
  ⟨⟨h.aligned.stored, ⟨h.aligned.activation.nodup, h.aligned.activation.mem_iff⟩⟩, h.spreaderFree⟩

theorem mem_pulses_update_iff (h : b.Straight) (hinside : ∀ pulse ∈ b.pulses, pulse.position ∈ b.size)
    (beat : Nat) (pulse : Pulse)
    : pulse ∈ (b.update beat).pulses ↔
        (∃ old ∈ b.pulses, pulse = old.step ∧ pulse.position ∈ b.size) ∨ b.Sends beat pulse := by
  rw [mem_pulses_update]
  constructor
  · rintro (⟨old, hold, hroute⟩ | ⟨p, _, hemit⟩)
    · rw [h.aligned.routePulse_eq (hinside old hold), h.spreaderFree.mem_successors_iff] at hroute
      exact .inl ⟨old, hold, hroute⟩
    · rw [h.aligned.emitAt_eq, mem_departures_iff] at hemit
      exact .inr hemit.2
  · rintro (⟨old, hold, hstep⟩ | hsends)
    · refine .inl ⟨old, hold, ?_⟩
      rwa [h.aligned.routePulse_eq (hinside old hold), h.spreaderFree.mem_successors_iff]
    · refine .inr ⟨pulse.position, h.aligned.mem_active_of_sends hsends, ?_⟩
      rw [h.aligned.emitAt_eq, mem_departures_iff]
      exact ⟨rfl, hsends⟩

theorem exists_travelled_update_iff (h : b.Straight)
    (hinside : ∀ pulse ∈ b.pulses, pulse.position ∈ b.size) (beat : Nat) {n : Nat} {pulse : Pulse}
    (hend : pulse.position ∈ b.size)
    : (∃ old ∈ (b.update beat).pulses, pulse = old.travelled n) ↔
        (∃ old ∈ b.pulses, pulse = old.travelled (n + 1)) ∨
          ∃ source, b.Sends beat source ∧ pulse = source.travelled n := by
  constructor
  · rintro ⟨old, hold, rfl⟩
    rcases (h.mem_pulses_update_iff hinside beat old).mp hold with ⟨older, holder, rfl, _⟩ | hsends
    · exact .inl ⟨older, holder, older.travelled_step n⟩
    · exact .inr ⟨old, hsends, rfl⟩
  · rintro (⟨old, hold, rfl⟩ | ⟨source, hsends, rfl⟩)
    · -- the line ends on the board, so the pulse was still there after the first beat
      have hstep : old.step.position ∈ b.size := by
        rw [← Pulse.travelled_one]
        exact Pulse.travelled_inside (Nat.succ_pos n) (hinside old hold) hend
      refine ⟨old.step, ?_, (old.travelled_step n).symm⟩
      exact (h.mem_pulses_update_iff hinside beat _).mpr (.inl ⟨old, hold, rfl, hstep⟩)
    · exact ⟨source, (h.mem_pulses_update_iff hinside beat source).mpr (.inr hsends), rfl⟩

theorem mem_pulsesFrom_iff (h : b.Straight) (beat n : Nat) {P : OrderedSet Pulse}
    (hP : ∀ pulse ∈ P, pulse.position ∈ b.size) (pulse : Pulse)
    : pulse ∈ b.pulsesFrom beat n P ↔
        pulse.position ∈ b.size ∧
          ((∃ old ∈ P, pulse = old.travelled n) ∨ b.SentWithin beat n pulse) := by
  induction n generalizing beat P with
  | zero =>
    have hstart : pulse ∈ b.pulsesFrom beat 0 P ↔ pulse ∈ P := Iff.rfl
    rw [hstart]
    simp only [Pulse.travelled_zero, exists_eq_right', SentWithin, Nat.not_lt_zero, false_and,
      exists_false, or_false]
    exact ⟨fun hpulse => ⟨hP pulse hpulse, hpulse⟩, And.right⟩
  | succ n ih =>
    have hnext : ∀ pulse ∈ ((b.withPulses P).update beat).pulses, pulse.position ∈ b.size := by
      intro pulse hpulse
      rcases ((h.withPulses P).mem_pulses_update_iff hP beat pulse).mp hpulse with
        ⟨_, _, _, hinside⟩ | hsends
      · exact hinside
      · exact hsends.inside
    have hfirst : pulse ∈ b.pulsesFrom beat (n + 1) P ↔
        pulse ∈ b.pulsesFrom (beat + 1) n ((b.withPulses P).update beat).pulses := Iff.rfl
    rw [hfirst, ih (beat + 1) hnext, sentWithin_succ_iff, ← or_assoc]
    apply and_congr_right
    intro hend
    exact or_congr_left ((h.withPulses P).exists_travelled_update_iff hP beat hend)

end Straight

end Board

namespace Workbench

/--
Without spreaders the pulses in flight after `n` beats are those that were there at the start, each `n` cells
further on, and those that emitters have sent out since, each as many cells further on as there were beats
after it came up; as far as these are on the board. So pulses pass each other and emitters, and a pulse whose
line has left the board does not come back.
-/
theorem pulses_on_straight_lines (size : Size) (ops : List BoardOperation)
    : let b := ((new size).run ops).board
      (∀ p m, b.get? p = some m → m.position = p) →
      (∀ p m, b.get? p = some m → m.kind ≠ .spreader) →
      ∀ (P : OrderedSet Pulse), (∀ pulse ∈ P, pulse.position ∈ size) → ∀ beat n : Nat,
        (∀ pulse, pulse ∈ b.pulsesFrom beat n P ↔
          pulse.position ∈ size ∧
            ((∃ old ∈ P, pulse = old.travelled n) ∨
              ∃ k < n, ∃ source, b.Sends (beat + k) source ∧ pulse = source.travelled (n - 1 - k))) ∧
        (∀ old ∈ P, (old.travelled n).position ∈ size → old.travelled n ∈ b.pulsesFrom beat n P) ∧
        ∀ old ∈ P, ∀ m ≤ n, (old.travelled m).position ∉ size → (old.travelled n).position ∉ size := by
  intro b hstored hspreaders P hP beat n
  have hsound := sound_run (sound_new size) ops
  have hsize : b.size = size := hsound.size_eq
  have hstraight : b.Straight := ⟨⟨hstored, hsound.activation⟩, hspreaders⟩
  have hlines := hstraight.mem_pulsesFrom_iff beat n (hsize ▸ hP)
  rw [hsize] at hlines
  refine ⟨hlines, ?_, ?_⟩
  · intro old hold hend
    exact (hlines _).mpr ⟨hend, .inl ⟨old, hold, rfl⟩⟩
  · intro old hold m hmn hout hend
    exact hout (Pulse.travelled_inside hmn (hP old hold) hend)

/--
One pulse has left the board, one has passed it from end to end, and the emitter has sent out one of its own.
-/
theorem pulses_on_straight_lines_emitter
    : let ops := [.apply (.changeType "emitter") ⟨0, 1⟩,
        .apply (.changeProperty [("up_is_output", "false"), ("right_is_output", "true"),
          ("interval", "2"), ("offset", "1")]) ⟨0, 1⟩, .apply (.changeType "emitter") ⟨2, 0⟩]
      let b := ((new ⟨4, 2⟩).run ops).board
      let P : OrderedSet Pulse := .ofList [⟨⟨2, 1⟩, .left⟩, ⟨⟨0, 0⟩, .right⟩]
      (∀ p m, b.get? p = some m → m.position = p) ∧
      (∀ p m, b.get? p = some m → m.kind ≠ .spreader) ∧
      (∀ pulse ∈ P, pulse.position ∈ (⟨4, 2⟩ : Size)) ∧
      (b.pulsesFrom 0 3 P).toList = [⟨⟨3, 0⟩, .right⟩, ⟨⟨1, 1⟩, .right⟩] ∧
      ∃ k < 3, ∃ source, b.Sends (0 + k) source ∧
        (⟨⟨1, 1⟩, .right⟩ : Pulse) = source.travelled (3 - 1 - k) := by
  intro ops b P
  have hplace : (new ⟨4, 2⟩).runsInPlace ops = true := by decide +kernel
  have hstored := (aligned_run ⟨4, 2⟩ hplace).stored
  have hspreaders : ∀ p m, b.get? p = some m → m.kind ≠ .spreader := by
    have hcells : ∀ p ∈ (⟨4, 2⟩ : Size).positions, ∀ m ∈ b.get? p, m.kind ≠ .spreader := by
      decide +kernel
    intro p m hm
    exact hcells p (Size.mem_positions.mpr (Board.mem_size_of_get? hm)) m hm
  have hP : ∀ pulse ∈ P, pulse.position ∈ (⟨4, 2⟩ : Size) := by
    simp only [P, OrderedSet.mem_ofList]
    decide
  have hpulses : (b.pulsesFrom 0 3 P).toList = [⟨⟨3, 0⟩, .right⟩, ⟨⟨1, 1⟩, .right⟩] := by
    decide +kernel
  refine ⟨hstored, hspreaders, hP, hpulses, ?_⟩
  have hlines := (pulses_on_straight_lines ⟨4, 2⟩ ops hstored hspreaders P hP 0 3).1 ⟨⟨1, 1⟩, .right⟩
  rw [OrderedSet.mem_iff, hpulses] at hlines
  obtain ⟨_, ⟨old, hold, heq⟩ | hsent⟩ := hlines.mp (by simp)
  · exact absurd heq (by revert old; simp only [P, OrderedSet.mem_ofList]; decide)
  · exact hsent

end Workbench

end SignalBoard
