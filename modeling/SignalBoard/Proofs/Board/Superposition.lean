import Mathlib.Logic.Basic
import SignalBoard.Proofs.Board.Invariants

/-!
This module lets several beats pass in a row, `Board.advance`, and shows that pulses do not get in each
other's way: sets of pulses that are in flight together become what they would become apart. The main
result is `Board.pulses_superpose`.
-/

namespace SignalBoard

namespace Board

/--
Let `n` beats pass, the first of which is `beat`.
-/
def advance (b : Board) (beat : Nat) : Nat → Board
  | 0 => b
  | n + 1 => (b.update beat).advance (beat + 1) n

theorem mem_pulses_update {b : Board} {beat : Nat} {pulse : Pulse}
    : pulse ∈ (b.update beat).pulses ↔
        (∃ old ∈ b.pulses, pulse ∈ b.routePulse old) ∨ ∃ p ∈ b.active, pulse ∈ b.emitAt beat p := by
  rw [update, OrderedSet.mem_ofList, List.mem_append, List.mem_flatMap, List.mem_flatMap]
  rfl

/--
The boards `parts` have the modules of `whole`, and the pulses of `whole` are those that are in flight on
any of them.
-/
structure Superposes (whole : Board) (parts : List Board) : Prop where
  nonempty : parts ≠ []
  modules : ∀ part ∈ parts, part.modules = whole.modules
  active : ∀ part ∈ parts, part.active = whole.active
  pulses : ∀ pulse, pulse ∈ whole.pulses ↔ ∃ part ∈ parts, pulse ∈ part.pulses

namespace Superposes

variable {whole : Board} {parts : List Board}

theorem mem_pulses_update_of_part (h : whole.Superposes parts) (beat : Nat) {part : Board}
    (hpart : part ∈ parts) {pulse : Pulse} (hpulse : pulse ∈ (part.update beat).pulses)
    : pulse ∈ (whole.update beat).pulses := by
  rw [mem_pulses_update, routePulse_congr (h.modules part hpart), emitAt_congr (h.modules part hpart),
    h.active part hpart] at hpulse
  rw [mem_pulses_update]
  rcases hpulse with ⟨old, hold, hroute⟩ | hemit
  · exact .inl ⟨old, (h.pulses old).mpr ⟨part, hpart, hold⟩, hroute⟩
  · exact .inr hemit

theorem exists_part_of_mem_pulses_update (h : whole.Superposes parts) (beat : Nat) {pulse : Pulse}
    (hpulse : pulse ∈ (whole.update beat).pulses)
    : ∃ part ∈ parts, pulse ∈ (part.update beat).pulses := by
  rcases mem_pulses_update.mp hpulse with ⟨old, hold, hroute⟩ | hemit
  · obtain ⟨part, hpart, hold⟩ := (h.pulses old).mp hold
    refine ⟨part, hpart, mem_pulses_update.mpr (.inl ⟨old, hold, ?_⟩)⟩
    rwa [routePulse_congr (h.modules part hpart)]
  · -- the emitters send out the same pulses on every part, so any of them will do
    obtain ⟨part, hpart⟩ := List.exists_mem_of_ne_nil parts h.nonempty
    refine ⟨part, hpart, mem_pulses_update.mpr (.inr ?_)⟩
    rwa [emitAt_congr (h.modules part hpart), h.active part hpart]

theorem update (h : whole.Superposes parts) (beat : Nat)
    : (whole.update beat).Superposes (parts.map (·.update beat)) := by
  constructor
  case nonempty => simp [h.nonempty]
  case modules =>
    rw [List.forall_mem_map]
    exact h.modules
  case active =>
    rw [List.forall_mem_map]
    exact h.active
  case pulses =>
    intro pulse
    simp only [List.mem_map, exists_exists_and_eq_and]
    constructor
    · exact h.exists_part_of_mem_pulses_update beat
    · rintro ⟨part, hpart, hpulse⟩
      exact h.mem_pulses_update_of_part beat hpart hpulse

theorem advance (h : whole.Superposes parts) (beat n : Nat)
    : (whole.advance beat n).Superposes (parts.map (·.advance beat n)) := by
  induction n generalizing whole parts beat with
  | zero =>
    simp only [Board.advance, List.map_id']
    exact h
  | succ n ih =>
    have hnext := ih (h.update beat) (beat + 1)
    rw [List.map_map] at hnext
    exact hnext

theorem withPulses (b : Board) {pulses : OrderedSet Pulse} {sets : List (OrderedSet Pulse)}
    (hsets : sets ≠ []) (hpulses : ∀ pulse, pulse ∈ pulses ↔ ∃ set ∈ sets, pulse ∈ set)
    : (b.withPulses pulses).Superposes (sets.map b.withPulses) := by
  constructor
  case nonempty => simp [hsets]
  case modules =>
    rw [List.forall_mem_map]
    exact fun _ _ => rfl
  case active =>
    rw [List.forall_mem_map]
    exact fun _ _ => rfl
  case pulses =>
    intro pulse
    simp only [List.mem_map, exists_exists_and_eq_and]
    exact hpulses pulse

end Superposes

/--
The pulses that are in flight after `n` beats, the first of which is `beat`, if `pulses` are in flight
before them.
-/
def pulsesFrom (b : Board) (beat n : Nat) (pulses : OrderedSet Pulse) : OrderedSet Pulse :=
  ((b.withPulses pulses).advance beat n).pulses

theorem mem_pulsesFrom_iff (b : Board) (beat n : Nat) {pulses : OrderedSet Pulse}
    (sets : List (OrderedSet Pulse)) (hsets : sets ≠ [])
    (hpulses : ∀ pulse, pulse ∈ pulses ↔ ∃ set ∈ sets, pulse ∈ set) (pulse : Pulse)
    : pulse ∈ b.pulsesFrom beat n pulses ↔ ∃ set ∈ sets, pulse ∈ b.pulsesFrom beat n set := by
  have h := (Superposes.withPulses b hsets hpulses).advance beat n
  rw [pulsesFrom, h.pulses]
  simp only [List.mem_map, exists_exists_and_eq_and]
  rfl

/--
Two sets of pulses that are in flight together become what each of them becomes alone. So a set of pulses
becomes what there is without any pulses, which is what the emitters send out, and what every single pulse
becomes. More pulses never become less.
-/
theorem pulses_superpose (b : Board) (beat n : Nat) (P Q : OrderedSet Pulse)
    : (∀ pulse, pulse ∈ b.pulsesFrom beat n (P.union Q) ↔
        pulse ∈ b.pulsesFrom beat n P ∨ pulse ∈ b.pulsesFrom beat n Q) ∧
      (∀ pulse, pulse ∈ b.pulsesFrom beat n P ↔
        pulse ∈ b.pulsesFrom beat n .empty ∨
          ∃ single ∈ P, pulse ∈ b.pulsesFrom beat n (.ofList [single])) ∧
      ((∀ pulse ∈ P, pulse ∈ Q) →
        ∀ pulse ∈ b.pulsesFrom beat n P, pulse ∈ b.pulsesFrom beat n Q) := by
  refine ⟨?_, ?_, ?_⟩
  · intro pulse
    rw [b.mem_pulsesFrom_iff beat n [P, Q]]
    · simp
    · simp
    · intro pulse
      simp [OrderedSet.mem_union]
  · intro pulse
    rw [b.mem_pulsesFrom_iff beat n (.empty :: P.toList.map fun single => .ofList [single])]
    · simp [← OrderedSet.mem_iff]
    · simp
    · intro pulse
      simp [← OrderedSet.mem_iff]
  · intro hsubset pulse hpulse
    rw [b.mem_pulsesFrom_iff beat n [P, Q]]
    · exact ⟨P, by simp, hpulse⟩
    · simp
    · intro pulse
      simpa using hsubset pulse

theorem pulses_superpose_spreader
    : let b := (((new ⟨3, 3⟩).install ⟨1, 1⟩ (.new .spreader ⟨1, 1⟩)).install ⟨2, 2⟩
        (.new .emitter ⟨2, 2⟩))
      let P : OrderedSet Pulse := .ofList [⟨⟨0, 1⟩, .right⟩]
      let Q : OrderedSet Pulse := .ofList [⟨⟨1, 2⟩, .up⟩, ⟨⟨0, 1⟩, .right⟩]
      (∀ pulse ∈ P, pulse ∈ Q) ∧
      (b.pulsesFrom 0 2 P).toList = [⟨⟨2, 1⟩, .right⟩, ⟨⟨2, 1⟩, .up⟩] ∧
      (∀ pulse ∈ b.pulsesFrom 0 2 P, pulse ∈ b.pulsesFrom 0 2 Q) := by
  intro b P Q
  have hsubset : ∀ pulse ∈ P, pulse ∈ Q := by simp [P, Q]
  exact ⟨hsubset, by decide +kernel, (pulses_superpose b 0 2 P Q).2.2 hsubset⟩

end Board

end SignalBoard
