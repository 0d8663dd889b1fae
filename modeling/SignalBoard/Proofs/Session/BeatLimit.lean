import Mathlib.Logic.Function.Iterate
import SignalBoard.CommandLine.Options
import SignalBoard.Proofs.Time.Beats

/-!
This module shows what a session writes that nobody types anything into, when it has a limit and every turn
is long enough for a beat: `Session.ends_at_limit`. The limit is looked at after the beat of a turn, so there
is one beat even if the limit is zero.
-/

namespace SignalBoard

theorem Clock.advance_of_step_le {c : Clock} (hcollected : c.collected = .zero) {elapsed : Duration}
    (helapsed : c.step.nanoseconds ≤ elapsed.nanoseconds) : c.advance elapsed = .ok (true, c) := by
  obtain ⟨step, collected⟩ := c
  dsimp only at hcollected helapsed
  subst hcollected
  have hsum : Duration.zero.add? elapsed = some elapsed := by
    obtain ⟨n, hn⟩ := elapsed
    simp [Duration.add?, Duration.zero, Duration.ofNanoseconds?, hn]
  rw [advance, hsum]
  dsimp only
  rw [if_pos helapsed]

namespace Engine

theorem update_of_step_le {e : Engine} (hcollected : e.clock.collected = .zero) {elapsed : Duration}
    (helapsed : e.clock.step.nanoseconds ≤ elapsed.nanoseconds)
    : e.update elapsed = .ok (true, e.tick) := by
  rw [update, Clock.advance_of_step_le hcollected helapsed]

/--
What is written on the beat that follows `n` others: its number, and the frame after it.
-/
def beatLines (e : Engine) (n : Nat) : List String :=
  [beatLine (e.beats + n), (tick^[n + 1] e).frame.render]

theorem flatMap_beatLines_succ (e : Engine) (n : Nat)
    : (List.range (n + 1)).flatMap e.beatLines
        =
      e.beatLines 0 ++ (List.range n).flatMap e.tick.beatLines := by
  have hnext : ∀ k, e.beatLines (k + 1) = e.tick.beatLines k := by
    intro k
    rw [beatLines, beatLines, Function.iterate_succ_apply, beats_tick, Nat.add_right_comm, Nat.add_assoc]
  rw [List.range_succ_eq_map, List.flatMap_cons, List.flatMap_map]
  simp only [hnext]

end Engine

/--
Whether nothing is typed in a turn, and enough time passes for a beat.
-/
def Turn.Idles (step : Duration) (t : Turn) : Prop :=
  t.lines = [] ∧ step.nanoseconds ≤ t.elapsed.nanoseconds

namespace Session

/--
A session goes through the turns from first to last, and is finished after the last. It writes `output`, and
leaves the engine `e` behind.
-/
inductive Completes : Session → List Turn → List String → Engine → Prop where
  | last {s : Session} {t : Turn} {r : TurnResult} (hturn : s.turn t = .ok r)
      (hfinished : r.finished = true) : Completes s [t] r.output r.session.engine
  | next {s : Session} {t : Turn} {r : TurnResult} {rest : List Turn} {output : List String} {e : Engine}
      (hturn : s.turn t = .ok r) (hfinished : r.finished = false)
      (hrest : Completes r.session rest output e) : Completes s (t :: rest) (r.output ++ output) e

theorem Completes.runTurns_append {s : Session} {turns : List Turn} {output : List String} {e : Engine}
    (h : s.Completes turns output e) (more : List Turn) : s.runTurns (turns ++ more) = .ok output := by
  induction h with
  | last hturn hfinished =>
    rw [List.singleton_append, runTurns, hturn]
    dsimp only
    rw [if_pos hfinished]
  | next hturn hfinished _ ih =>
    rw [List.cons_append, runTurns, hturn]
    dsimp only
    rw [if_neg (by simp [hfinished]), ih]

theorem turn_of_idles {s : Session} {n : Nat} (hlimit : s.limit = some n)
    (hcollected : s.engine.clock.collected = .zero) {t : Turn} (ht : t.Idles s.engine.clock.step)
    : s.turn t
        =
      .ok ⟨{ s with engine := s.engine.tick }, s.engine.beatLines 0, decide (n ≤ s.engine.beats + 1)⟩ := by
  obtain ⟨engine, limit⟩ := s
  dsimp only at hlimit hcollected ht
  subst hlimit
  rw [turn, ht.1]
  simp only [feed, Option.isNone_some, Bool.and_false, Bool.false_eq_true, if_false,
    Engine.update_of_step_le hcollected ht.2]
  rfl

/--
There is one beat in each turn until the limit is reached, which takes at least one beat.
-/
theorem completes_of_idles {n : Nat} {e : Engine} (hcollected : e.clock.collected = .zero)
    {turns : List Turn} (hturns : ∀ t ∈ turns, t.Idles e.clock.step)
    (hlength : turns.length = max 1 (n - e.beats))
    : Completes ⟨e, some n⟩ turns ((List.range turns.length).flatMap e.beatLines)
        (Engine.tick^[turns.length] e) := by
  induction turns generalizing e with
  | nil =>
    rw [List.length_nil] at hlength
    omega
  | cons t rest ih =>
    rw [List.forall_mem_cons] at hturns
    have hturn := turn_of_idles (s := ⟨e, some n⟩) rfl hcollected hturns.1
    rw [List.length_cons] at hlength ⊢
    rw [Engine.flatMap_beatLines_succ, Function.iterate_succ_apply]
    by_cases hlast : n ≤ e.beats + 1
    · have hrest : rest = [] := List.eq_nil_of_length_eq_zero (by omega)
      rw [hrest, List.length_nil, List.range_zero, List.flatMap_nil, List.append_nil]
      exact .last hturn (decide_eq_true hlast)
    · have hrest : rest.length = max 1 (n - e.tick.beats) := by
        rw [Engine.beats_tick]
        omega
      exact .next hturn (decide_eq_false hlast) (ih hcollected hturns.2 hrest)

/--
A session with a limit into which nothing is typed, and which has a beat in every turn, ends after as many
beats as its limit says, but not before the first. It writes the frame at its start and then, for each beat,
its number and the frame after it.
-/
theorem ends_at_limit (config : SessionConfig) {n : Nat} (hlimit : config.ticks = some n)
    (turns : List Turn) (hlength : turns.length = max 1 n) (hturns : ∀ t ∈ turns, t.Idles config.step)
    : let e := (start config).engine
      let output := (List.range (max 1 n)).flatMap fun k =>
        [s!"-- beat {k} --", (Engine.tick^[k + 1] e).frame.render]
      (start config).Completes turns output (Engine.tick^[max 1 n] e) ∧
      ∀ more, (start config).run (turns ++ more) = .ok (e.frame.render :: output) := by
  intro e output
  have hstart : start config = ⟨e, some n⟩ := by
    rw [← hlimit]
    rfl
  have hcompletes : (start config).Completes turns output (Engine.tick^[max 1 n] e) := by
    rw [hstart]
    have hidle := completes_of_idles (n := n) (e := e) rfl hturns hlength
    have hlines : e.beatLines = fun k => [s!"-- beat {k} --", (Engine.tick^[k + 1] e).frame.render] := by
      funext k
      rw [Engine.beatLines, show e.beats = 0 from rfl, Nat.zero_add, beatLine]
    rw [hlength, hlines] at hidle
    exact hidle
  refine ⟨hcompletes, ?_⟩
  intro more
  rw [run, hcompletes.runTurns_append more]
  rfl

theorem ends_at_limit_two
    : let nanosecond : Duration := ⟨1, by decide⟩
      let config : SessionConfig := ⟨⟨2, 1⟩, nanosecond, 25, some 2, .default⟩
      let turns : List Turn := [⟨[], false, nanosecond⟩, ⟨[], true, nanosecond⟩]
      let e := (start config).engine
      (∀ t ∈ turns, t.Idles config.step) ∧
      ∀ more, (start config).run (turns ++ more)
        =
      .ok [e.frame.render, "-- beat 0 --", e.tick.frame.render, "-- beat 1 --",
        e.tick.tick.frame.render] := by
  intro nanosecond config turns e
  have hturns : ∀ t ∈ turns, t.Idles config.step := by
    simp [turns, config, Turn.Idles]
  exact ⟨hturns, (ends_at_limit config rfl turns rfl hturns).2⟩

theorem beat_after_limit_zero
    : let nanosecond : Duration := ⟨1, by decide⟩
      let config : SessionConfig := ⟨⟨1, 1⟩, nanosecond, 20000, some 0, .default⟩
      let t : Turn := ⟨[], true, nanosecond⟩
      let drawn := "   \n[=]\n   \n\n(ilokalama):> "
      t.Idles config.step ∧ (start config).drawing = drawn ∧
      (start config).Completes [t] ["-- beat 0 --", drawn] (start config).engine.tick ∧
      (start config).run [t] = .ok [drawn, "-- beat 0 --", drawn] ∧
      (start config).run [t] ≠ .ok [drawn] := by
  intro nanosecond config t drawn
  have hidles : t.Idles config.step := ⟨rfl, Nat.le_refl _⟩
  have hdrawn : (start config).drawing = drawn := by decide +kernel
  have hbeat : (start config).engine.beatLines 0 = ["-- beat 0 --", drawn] := by decide +kernel
  have hcompletes : (start config).Completes [t] ["-- beat 0 --", drawn] (start config).engine.tick := by
    rw [← hbeat]
    exact .last (turn_of_idles (s := start config) (n := 0) rfl rfl hidles) rfl
  have hrun : (start config).run [t] = .ok [drawn, "-- beat 0 --", drawn] := by
    rw [run, ← List.append_nil [t], hcompletes.runTurns_append, hdrawn]
  refine ⟨hidles, hdrawn, hcompletes, hrun, ?_⟩
  rw [hrun]
  nofun

end Session

end SignalBoard
