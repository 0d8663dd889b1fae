import SignalBoard.Proofs.Board.Invariants
import SignalBoard.Proofs.Space.Grid

/-!
This module shows that edits of different cells do not get in each other's way: `Board.edits_independent`.
What becomes of the module on a cell is decided by the calls that are about this cell, whatever else
happens in between (`Board.get?_callAll`).
-/

namespace SignalBoard

/--
A call of an operation of the board. Any undo can be reverted, wherever it comes from.
-/
inductive BoardCall where
  | addPulse (pulse : Pulse)
  | update (beat : Nat)
  | apply (action : Action) (p : Position)
  | revert (undo : Undo) (p : Position)

namespace BoardCall

/--
The position of the module that a call is about, if it is about one.
-/
def position? : BoardCall → Option Position
  | .addPulse _ => none
  | .update _ => none
  | .apply _ p => some p
  | .revert _ p => some p

/--
What a call leaves behind of the module that it is about. A refusal leaves the module alone.
-/
def replace (m : Module) : BoardCall → Module
  | .addPulse _ => m
  | .update _ => m
  | .apply action _ =>
    match action.apply m with
    | .ok (replacement, _) => replacement
    | .error _ => m
  | .revert undo _ =>
    match undo.apply m with
    | .ok restored => restored
    | .error _ => m

end BoardCall

namespace Board

/--
The board after a call. What it refuses changes nothing.
-/
def call (b : Board) : BoardCall → Board
  | .addPulse pulse => b.addPulse pulse
  | .update beat => b.update beat
  | .apply action p =>
    match b.apply action p with
    | .ok (b, _) => b
    | .error _ => b
  | .revert undo p =>
    match b.revert undo p with
    | .ok b => b
    | .error _ => b

def callAll (b : Board) : List BoardCall → Board
  | [] => b
  | c :: calls => (b.call c).callAll calls

/--
The boards that any calls can make of an empty one.
-/
inductive Reachable : Board → Prop where
  | new (size : Size) : Reachable (.new size)
  | call {b : Board} (c : BoardCall) : Reachable b → Reachable (b.call c)

variable {b c : Board} {p q : Position}

/--
All that a call can do. It leaves the board alone, or is about pulses, or puts another module on the cell
that it is about.
-/
theorem call_cases (b : Board) (c : BoardCall)
    : (b.call c = b ∧ ∀ p, c.position? = some p → (b.get? p).map (c.replace ·) = b.get? p) ∨
        (c.position? = none ∧
          ((∃ pulse, b.call c = b.addPulse pulse) ∨ ∃ beat, b.call c = b.update beat)) ∨
        ∃ p m, c.position? = some p ∧ b.get? p = some m ∧ b.call c = b.install p (c.replace m) := by
  cases c with
  | addPulse pulse => exact .inr (.inl ⟨rfl, .inl ⟨pulse, rfl⟩⟩)
  | update beat => exact .inr (.inl ⟨rfl, .inr ⟨beat, rfl⟩⟩)
  | apply action p =>
    simp only [call, apply, BoardCall.position?, BoardCall.replace, Option.some_inj, forall_eq']
    cases hm : b.get? p with
    | none => exact .inl ⟨rfl, rfl⟩
    | some m =>
      cases haction : action.apply m with
      | error error => simp [haction]
      | ok result => exact .inr (.inr ⟨p, m, rfl, hm, by simp only [haction]⟩)
  | revert undo p =>
    simp only [call, revert, BoardCall.position?, BoardCall.replace, Option.some_inj, forall_eq']
    cases hm : b.get? p with
    | none => exact .inl ⟨rfl, rfl⟩
    | some m =>
      cases hundo : undo.apply m with
      | error error => simp [hundo]
      | ok restored => exact .inr (.inr ⟨p, m, rfl, hm, by simp only [hundo]⟩)

theorem size_call (b : Board) (c : BoardCall) : (b.call c).size = b.size := by
  rcases b.call_cases c with ⟨hb, _⟩ | ⟨_, ⟨pulse, hb⟩ | ⟨beat, hb⟩⟩ | ⟨p, m, _, _, hb⟩ <;> rw [hb]
  · exact size_addPulse b pulse
  · exact size_update b beat
  · exact size_install b p _

theorem activationExact_call (h : b.ActivationExact) (c : BoardCall) : (b.call c).ActivationExact := by
  rcases b.call_cases c with ⟨hb, _⟩ | ⟨_, ⟨pulse, hb⟩ | ⟨beat, hb⟩⟩ | ⟨p, m, _, _, hb⟩ <;> rw [hb]
  · exact h
  · exact h.addPulse pulse
  · exact h.update beat
  · exact h.install p _

theorem activationExact_of_reachable (h : b.Reachable) : b.ActivationExact := by
  induction h with
  | new size => exact activationExact_new size
  | call c _ ih => exact activationExact_call ih c

theorem get?_call (b : Board) (c : BoardCall) (q : Position)
    : (b.call c).get? q
        =
      (b.get? q).map fun m => if c.position? = some q then c.replace m else m := by
  rcases b.call_cases c with ⟨hb, hsame⟩ | ⟨hnone, ⟨pulse, hb⟩ | ⟨beat, hb⟩⟩ | ⟨p, m, hp, hm, hb⟩ <;>
    rw [hb]
  · by_cases hq : c.position? = some q
    · simp [hq, hsame q hq]
    · simp [hq]
  · simp [hnone]
  · simp [hnone]
  · rw [get?_install (mem_size_of_get? hm)]
    by_cases hpq : q = p
    · subst hpq
      simp [hp, hm]
    · simp [hp, hpq, Ne.symm hpq]

theorem get?_call_of_ne {c : BoardCall} (h : c.position? ≠ some q) : (b.call c).get? q = b.get? q := by
  simp [get?_call, h]

theorem activationExact_callAll (h : b.ActivationExact) (calls : List BoardCall)
    : (b.callAll calls).ActivationExact := by
  induction calls generalizing b with
  | nil => exact h
  | cons c calls ih => exact ih (activationExact_call h c)

/--
The module on a cell is what the calls about this cell make of it, one after the other.
-/
theorem get?_callAll (b : Board) (calls : List BoardCall) (q : Position)
    : (b.callAll calls).get? q
        =
      (b.get? q).map fun m => (calls.filter (·.position? = some q)).foldl BoardCall.replace m := by
  induction calls generalizing b with
  | nil => simp [callAll]
  | cons c calls ih =>
    rw [callAll, ih, get?_call, Option.map_map]
    congr 1
    funext m
    by_cases hc : c.position? = some q
    · simp [hc]
    · simp [hc]

theorem get?_callAll_of_ne {calls : List BoardCall} (h : ∀ c ∈ calls, c.position? ≠ some q)
    : (b.callAll calls).get? q = b.get? q := by
  have hnone : calls.filter (·.position? = some q) = [] := by
    rw [List.filter_eq_nil_iff]
    intro c hc
    simpa using h c hc
  rw [get?_callAll, hnone]
  simp

theorem get?_call_comm {c d : BoardCall} (h : c.position? ≠ d.position?) (r : Position)
    : ((b.call c).call d).get? r = ((b.call d).call c).get? r := by
  rw [get?_call, get?_call, get?_call, get?_call, Option.map_map, Option.map_map]
  congr 1
  funext m
  by_cases hc : c.position? = some r
  · have hd : d.position? ≠ some r := fun hd => h (hc.trans hd.symm)
    simp [hc, hd]
  · simp [hc]

theorem ActivationExact.mem_active_congr (hb : b.ActivationExact) (hc : c.ActivationExact)
    (hp : c.get? p = b.get? p) : p ∈ c.active ↔ p ∈ b.active := by
  rw [hc.mem_iff, hb.mem_iff, hp]

theorem pulses_call_apply (b : Board) (action : Action) (p : Position)
    : (b.call (.apply action p)).pulses = b.pulses := by
  cases happly : b.apply action p with
  | error error => simp only [call, happly]
  | ok result =>
    obtain ⟨_, replacement, _, _, hboard⟩ := apply_eq_ok_iff.mp happly
    simp only [call, happly, hboard, pulses_install]

/--
What an action hands back depends on the module that it is about alone.
-/
theorem result_congr (h : c.get? p = b.get? p) (action : Action)
    : (c.apply action p).map Prod.snd = (b.apply action p).map Prod.snd := by
  unfold apply
  rw [h]
  cases b.get? p with
  | none => rfl
  | some m =>
    dsimp only
    cases action.apply m <;> rfl

theorem revert_callAll {action : Action} {undo : Undo} (happly : b.apply action p = .ok (c, undo))
    {calls : List BoardCall} (hcalls : ∀ call ∈ calls, call.position? ≠ some p)
    : let d := c.callAll calls
      ∃ m, b.get? p = some m ∧ p ∈ d.size ∧ d.revert undo p = .ok (d.install p m) := by
  intro d
  obtain ⟨m, replacement, hm, haction, rfl⟩ := apply_eq_ok_iff.mp happly
  -- the undo finds what the action left behind
  have hleft : d.get? p = some replacement := by
    rw [get?_callAll_of_ne hcalls, get?_install (mem_size_of_get? hm), if_pos rfl]
  refine ⟨m, hm, mem_size_of_get? hleft, ?_⟩
  exact revert_eq_ok_iff.mpr ⟨replacement, m, hleft, Undo.apply_of_apply haction, rfl⟩

/--
On every board that can be reached, whatever is done to other cells after an edit of the cell `p`, the
undo of the edit is accepted, puts back the module from before, and makes the cell active again exactly
if it was. All other cells stay as they were left. Two edits of different cells hand back the same in
either order, and leave behind the same modules and the same active cells.
-/
theorem edits_independent {b : Board} (h : b.Reachable)
    : (∀ p action c undo (calls : List BoardCall), b.apply action p = .ok (c, undo) →
        (∀ call ∈ calls, call.position? ≠ some p) →
        let d := c.callAll calls
        ∃ d', d.revert undo p = .ok d' ∧ d'.get? p = b.get? p ∧ (p ∈ d'.active ↔ p ∈ b.active) ∧
          d'.pulses = d.pulses ∧
          ∀ q, q ≠ p → d'.get? q = d.get? q ∧ (q ∈ d'.active ↔ q ∈ d.active)) ∧
      (∀ p q action other, p ≠ q →
        let c := b.call (.apply action p)
        let d := b.call (.apply other q)
        (c.apply other q).map Prod.snd = (b.apply other q).map Prod.snd ∧
        (d.apply action p).map Prod.snd = (b.apply action p).map Prod.snd ∧
        (c.call (.apply other q)).modules = (d.call (.apply action p)).modules ∧
        (∀ r, r ∈ (c.call (.apply other q)).active ↔ r ∈ (d.call (.apply action p)).active) ∧
        (c.call (.apply other q)).pulses = (d.call (.apply action p)).pulses) := by
  have hactivation := activationExact_of_reachable h
  constructor
  · intro p action c undo calls happly hcalls d
    obtain ⟨m, hm, hinside, hrevert⟩ := revert_callAll happly hcalls
    have hd : d.ActivationExact := activationExact_callAll (hactivation.apply happly) calls
    have hd' : (d.install p m).ActivationExact := hd.install p m
    have hget : ∀ q, (d.install p m).get? q = if q = p then some m else d.get? q :=
      get?_install hinside m
    have hback : (d.install p m).get? p = b.get? p := by rw [hget, if_pos rfl, hm]
    refine ⟨d.install p m, hrevert, hback, hactivation.mem_active_congr hd' hback,
      pulses_install d p m, ?_⟩
    intro q hq
    have hkept : (d.install p m).get? q = d.get? q := by rw [hget, if_neg hq]
    exact ⟨hkept, hd.mem_active_congr hd' hkept⟩
  · intro p q action other hpq c d
    have hposition : some p ≠ some q := Option.some_inj.not.mpr hpq
    have hget : ∀ r, (c.call (.apply other q)).get? r = (d.call (.apply action p)).get? r :=
      get?_call_comm hposition
    have hc : (c.call (.apply other q)).ActivationExact :=
      activationExact_call (activationExact_call hactivation _) _
    have hd : (d.call (.apply action p)).ActivationExact :=
      activationExact_call (activationExact_call hactivation _) _
    have hq : c.get? q = b.get? q := get?_call_of_ne hposition
    have hp : d.get? p = b.get? p := get?_call_of_ne hposition.symm
    refine ⟨result_congr hq other, result_congr hp action, ?_, ?_, ?_⟩
    · apply Grid.ext_get?
      · change (c.call (.apply other q)).size = (d.call (.apply action p)).size
        rw [size_call, size_call, size_call, size_call]
      · exact hget
    · intro r
      exact hd.mem_active_congr hc (hget r)
    · simp only [c, d, pulses_call_apply]

theorem edits_independent_spreader
    : let p : Position := ⟨1, 0⟩
      let emitter := Module.new .emitter p
      let undo := Undo.restoreModule " Spreader" emitter
      let calls := [.addPulse ⟨p, .left⟩, .apply (.changeType "emitter") ⟨0, 0⟩, .update 0,
        .apply (.changeType "mixer") ⟨2, 1⟩, .revert undo ⟨0, 0⟩, .apply (.changeProperty []) ⟨9, 9⟩]
      let b := (new ⟨3, 2⟩).call (.apply (.changeType "emitter") p)
      let c := b.call (.apply (.changeType " Spreader") p)
      let d := c.callAll calls
      (∃ d', d.revert undo p = .ok d' ∧ d'.get? p = some emitter ∧ p ∈ d'.active ∧
        d'.get? ⟨0, 0⟩ = some (.new .emitter ⟨0, 0⟩)) ∧
      ∀ r, r ∈ (c.call (.apply (.changeType "emitter") ⟨0, 0⟩)).active ↔
        r ∈ ((b.call (.apply (.changeType "emitter") ⟨0, 0⟩)).call
          (.apply (.changeType " Spreader") p)).active := by
  intro p emitter undo calls b c d
  have happly : b.apply (.changeType " Spreader") p = .ok (c, undo) := by decide +kernel
  have hcalls : ∀ call ∈ calls, call.position? ≠ some p := by decide
  have hemitter : b.get? p = some emitter := by decide +kernel
  have hactive : p ∈ b.active := by decide +kernel
  have hother : d.get? ⟨0, 0⟩ = some (.new .emitter ⟨0, 0⟩) := by decide +kernel
  have hne : p ≠ ⟨0, 0⟩ := by decide
  obtain ⟨hback, hcommute⟩ := edits_independent (b := b) (.call _ (.new _))
  -- from here on the board is only a name, so that nothing is evaluated again
  clear_value p emitter undo calls b
  obtain ⟨d', hrevert, hget, hmem, _, hkept⟩ := hback p _ c undo calls happly hcalls
  refine ⟨⟨d', hrevert, hget.trans hemitter, hmem.mpr hactive, ?_⟩, ?_⟩
  · rw [(hkept ⟨0, 0⟩ hne.symm).1]
    exact hother
  · exact (hcommute p ⟨0, 0⟩ (.changeType " Spreader") (.changeType "emitter") hne).2.2.2.1

end Board

end SignalBoard
