import Mathlib.Algebra.GroupWithZero.Nat
import Mathlib.Data.List.DropRight
import SignalBoard.Engine

/-!
This module shows when there is a beat: `Engine.beats_follow_clock`. A clock has one as soon as the time
since its last beat reaches the step, and an engine counts the beats of its clock. Time beyond the step is
dropped, so that there are never more beats than steps that fit into the time.
-/

namespace SignalBoard

/--
The lengths of time that have passed, each with whether there was a beat at its end.
-/
abbrev BeatLog := List (Duration × Bool)

namespace BeatLog

def beats (log : BeatLog) : Nat :=
  log.countP Prod.snd

/--
The time since the last beat, or since the start if there was none.
-/
def waited (log : BeatLog) : Nat :=
  ((log.rtakeWhile fun entry => !entry.2).map (·.1.nanoseconds)).sum

def total (log : BeatLog) : Nat :=
  (log.map (·.1.nanoseconds)).sum

theorem beats_concat (log : BeatLog) (elapsed : Duration) (due : Bool)
    : beats (log ++ [(elapsed, due)]) = log.beats + due.toNat := by
  rw [beats, List.countP_append, List.countP_singleton, beats]
  cases due <;> rfl

theorem waited_concat (log : BeatLog) (elapsed : Duration) (due : Bool)
    : waited (log ++ [(elapsed, due)]) = if due then 0 else log.waited + elapsed.nanoseconds := by
  rw [waited, List.rtakeWhile_concat]
  cases due with
  | true => rfl
  | false => simp [waited]

theorem total_concat (log : BeatLog) (elapsed : Duration) (due : Bool)
    : total (log ++ [(elapsed, due)]) = log.total + elapsed.nanoseconds := by
  simp [total]

/--
There is a beat exactly when the time since the last one reaches the step.
-/
def Follows (step : Duration) (log : BeatLog) : Prop :=
  ∀ front elapsed due later, log = front ++ (elapsed, due) :: later →
    (due = true ↔ step.nanoseconds ≤ waited front + elapsed.nanoseconds)

theorem follows_nil (step : Duration) : Follows step [] := by
  intro front elapsed due later h
  simp at h

theorem follows_concat {step : Duration} {log : BeatLog} (h : log.Follows step) {elapsed : Duration}
    {due : Bool} (hdue : due = true ↔ step.nanoseconds ≤ log.waited + elapsed.nanoseconds)
    : Follows step (log ++ [(elapsed, due)]) := by
  intro front elapsed' due' later hsplit
  rcases List.eq_nil_or_concat later with rfl | ⟨later, last, rfl⟩
  · obtain ⟨rfl, hlast⟩ := List.append_inj' hsplit rfl
    cases hlast
    exact hdue
  · rw [List.concat_eq_append, ← List.cons_append, ← List.append_assoc] at hsplit
    exact h front elapsed' due' later (List.append_inj' hsplit rfl).1

end BeatLog

/--
Let lengths of time pass one after the other, and log the beats.
-/
def passAll {σ : Type} (pass : σ → Duration → Except ClockError (Bool × σ)) (s : σ)
    (ds : List Duration) : Except ClockError (BeatLog × σ) :=
  ds.foldlM
    (fun (log, s) elapsed => (pass s elapsed).map fun (due, s) => (log ++ [(elapsed, due)], s)) ([], s)

section PassAll

variable {σ : Type} {pass : σ → Duration → Except ClockError (Bool × σ)} {s s' : σ}
  {ds : List Duration} {elapsed : Duration} {error : ClockError}

theorem passAll_append_of_error (h : passAll pass s ds = .error error) (es : List Duration)
    : passAll pass s (ds ++ es) = .error error := by
  unfold passAll at h ⊢
  rw [List.foldlM_append, h]
  rfl

theorem passAll_concat_of_ok {log : BeatLog} (h : passAll pass s ds = .ok (log, s'))
    : passAll pass s (ds ++ [elapsed])
        =
      (pass s' elapsed).map fun (due, next) => (log ++ [(elapsed, due)], next) := by
  unfold passAll at h ⊢
  rw [List.foldlM_append, h]
  exact bind_pure (m := Except ClockError) _

theorem exists_of_passAll_concat {log : BeatLog} {next : σ}
    (h : passAll pass s (ds ++ [elapsed]) = .ok (log, next))
    : ∃ front s' due, passAll pass s ds = .ok (front, s') ∧ pass s' elapsed = .ok (due, next) ∧
        log = front ++ [(elapsed, due)] := by
  cases hds : passAll pass s ds with
  | error error =>
    rw [passAll_append_of_error hds] at h
    cases h
  | ok result =>
    obtain ⟨front, s'⟩ := result
    rw [passAll_concat_of_ok hds] at h
    cases hpass : pass s' elapsed with
    | error error =>
      rw [hpass] at h
      cases h
    | ok result =>
      rw [hpass] at h
      cases h
      exact ⟨front, s', result.1, rfl, hpass, rfl⟩

/--
A list of lengths of time is refused for the first one that is.
-/
theorem passAll_eq_error_iff
    : passAll pass s ds = .error error ↔
        ∃ front elapsed later log s', ds = front ++ elapsed :: later ∧
          passAll pass s front = .ok (log, s') ∧ pass s' elapsed = .error error := by
  constructor
  · intro h
    induction ds using List.reverseRecOn with
    | nil => cases h
    | append_singleton ds last ih =>
      cases hds : passAll pass s ds with
      | error refused =>
        rw [passAll_append_of_error hds] at h
        cases h
        obtain ⟨front, elapsed, later, log, s', rfl, hfront, hpass⟩ := ih hds
        exact ⟨front, elapsed, later ++ [last], log, s', by simp, hfront, hpass⟩
      | ok result =>
        obtain ⟨log, s'⟩ := result
        rw [passAll_concat_of_ok hds] at h
        cases hpass : pass s' last with
        | error refused =>
          rw [hpass] at h
          cases h
          exact ⟨ds, last, [], log, s', rfl, hds, hpass⟩
        | ok result =>
          rw [hpass] at h
          cases h
  · rintro ⟨front, elapsed, later, log, s', rfl, hfront, hpass⟩
    have hrefused : passAll pass s (front ++ [elapsed]) = .error error := by
      rw [passAll_concat_of_ok hfront, hpass]
      rfl
    rw [List.append_cons]
    exact passAll_append_of_error hrefused later

theorem map_fst_of_passAll {log : BeatLog} (h : passAll pass s ds = .ok (log, s'))
    : log.map Prod.fst = ds := by
  induction ds using List.reverseRecOn generalizing log s' with
  | nil =>
    cases h
    rfl
  | append_singleton ds last ih =>
    obtain ⟨front, _, due, hfront, _, rfl⟩ := exists_of_passAll_concat h
    rw [List.map_append, ih hfront]
    rfl

end PassAll

namespace Clock

/--
What the clock with this step remembers of the times that have passed.
-/
structure Logged (step : Duration) (log : BeatLog) (c : Clock) : Prop where
  step_eq : c.step = step
  collected : c.collected.nanoseconds = log.waited
  follows : log.Follows step
  total_ge : log.beats * step.nanoseconds + log.waited ≤ log.total

theorem logged_new (step : Duration) : Logged step [] (new step) := by
  constructor
  case follows => exact BeatLog.follows_nil step
  case total_ge => exact Nat.le_of_eq (Nat.zero_mul _)
  all_goals rfl

theorem cases_of_advance {c c' : Clock} {elapsed : Duration} {due : Bool}
    (h : c.advance elapsed = .ok (due, c'))
    : c'.step = c.step ∧
        (due = true ∧ c.step.nanoseconds ≤ c.collected.nanoseconds + elapsed.nanoseconds ∧
            c'.collected.nanoseconds = 0 ∨
          due = false ∧ c.collected.nanoseconds + elapsed.nanoseconds < c.step.nanoseconds ∧
            c'.collected.nanoseconds = c.collected.nanoseconds + elapsed.nanoseconds) := by
  unfold advance at h
  cases hsum : c.collected.add? elapsed with
  | none =>
    rw [hsum] at h
    cases h
  | some sum =>
    rw [hsum] at h
    have hsum := Duration.nanoseconds_of_add? hsum
    dsimp only at h
    split at h
    · rename_i hfull
      cases h
      exact ⟨rfl, .inl ⟨rfl, by omega, rfl⟩⟩
    · rename_i hpart
      cases h
      exact ⟨rfl, .inr ⟨rfl, by omega, hsum⟩⟩

theorem Logged.advance {step : Duration} {log : BeatLog} {c c' : Clock} (h : c.Logged step log)
    {elapsed : Duration} {due : Bool} (hadvance : c.advance elapsed = .ok (due, c'))
    : c'.Logged step (log ++ [(elapsed, due)]) := by
  obtain ⟨hstep, hcollected, hfollows, htotal⟩ := h
  obtain ⟨hstep', hcases⟩ := cases_of_advance hadvance
  rw [hstep, hcollected] at hcases
  constructor
  case step_eq => rw [hstep', hstep]
  case collected =>
    rw [BeatLog.waited_concat]
    rcases hcases with ⟨rfl, _, hzero⟩ | ⟨rfl, _, hmore⟩
    · exact hzero
    · exact hmore
  case follows =>
    apply BeatLog.follows_concat hfollows
    rcases hcases with ⟨rfl, hfull, _⟩ | ⟨rfl, hpart, _⟩
    · simpa using hfull
    · simpa using hpart
  case total_ge =>
    rw [BeatLog.beats_concat, BeatLog.waited_concat, BeatLog.total_concat, Nat.add_mul]
    rcases hcases with ⟨rfl, hfull, _⟩ | ⟨rfl, _, _⟩
    · simp only [Bool.toNat_true, Nat.one_mul, if_true]
      omega
    · simp only [Bool.toNat_false, Nat.zero_mul, Bool.false_eq_true, if_false]
      omega

theorem logged_of_passAll {step : Duration} {ds : List Duration} {log : BeatLog} {c : Clock}
    (h : passAll advance (new step) ds = .ok (log, c)) : c.Logged step log := by
  induction ds using List.reverseRecOn generalizing log c with
  | nil =>
    cases h
    exact logged_new step
  | append_singleton ds last ih =>
    obtain ⟨front, c', due, hfront, hadvance, rfl⟩ := exists_of_passAll_concat h
    exact (ih hfront).advance hadvance

theorem Logged.advance_eq_error_iff {step : Duration} {log : BeatLog} {c : Clock}
    (h : c.Logged step log) {elapsed : Duration}
    : c.advance elapsed = .error .overflow ↔
        (2 ^ 64 - 1) * 10 ^ 9 + 999999999 < log.waited + elapsed.nanoseconds := by
  have hmax : maxNanoseconds = (2 ^ 64 - 1) * 10 ^ 9 + 999999999 := rfl
  rw [Clock.advance_eq_error_iff, h.collected, hmax]

end Clock

namespace Engine

@[simp]
theorem beats_tick (e : Engine) : e.tick.beats = e.beats + 1 := rfl

/--
An engine has a beat exactly when its clock has one.
-/
theorem update_eq (e : Engine) (elapsed : Duration)
    : e.update elapsed
        =
      (e.clock.advance elapsed).map fun (due, clock) =>
        (due, if due then { e with clock := clock }.tick else { e with clock := clock }) := by
  unfold update
  cases e.clock.advance elapsed with
  | error error => rfl
  | ok result =>
    obtain ⟨due, clock⟩ := result
    cases due <;> rfl

theorem update_eq_error_iff {e : Engine} {elapsed : Duration} {error : ClockError}
    : e.update elapsed = .error error ↔ e.clock.advance elapsed = .error error := by
  rw [update_eq]
  cases e.clock.advance elapsed <;> simp [Except.map]

theorem exists_update_of_advance {e : Engine} {elapsed : Duration} {due : Bool} {clock : Clock}
    (h : e.clock.advance elapsed = .ok (due, clock))
    : ∃ e', e.update elapsed = .ok (due, e') ∧ e'.clock = clock ∧ e'.beats = e.beats + due.toNat := by
  rw [update_eq, h]
  cases due with
  | true => exact ⟨_, rfl, rfl, rfl⟩
  | false => exact ⟨_, rfl, rfl, rfl⟩

theorem beats_of_update {e e' : Engine} {elapsed : Duration} {due : Bool}
    (h : e.update elapsed = .ok (due, e')) : e'.beats = e.beats + due.toNat := by
  cases hadvance : e.clock.advance elapsed with
  | error error =>
    rw [update_eq_error_iff.mpr hadvance] at h
    cases h
  | ok result =>
    obtain ⟨next, hupdate, _, hbeats⟩ := exists_update_of_advance hadvance
    rw [hupdate] at h
    cases h
    exact hbeats

theorem exists_passAll_update {e : Engine} {ds : List Duration} {log : BeatLog} {c : Clock}
    (h : passAll Clock.advance e.clock ds = .ok (log, c))
    : ∃ e', passAll update e ds = .ok (log, e') ∧ e'.clock = c ∧ e'.beats = e.beats + log.beats := by
  induction ds using List.reverseRecOn generalizing log c with
  | nil =>
    cases h
    exact ⟨e, rfl, rfl, rfl⟩
  | append_singleton ds last ih =>
    obtain ⟨front, c', due, hfront, hadvance, rfl⟩ := exists_of_passAll_concat h
    obtain ⟨e', hpassed, rfl, hbeats⟩ := ih hfront
    obtain ⟨next, hupdate, hclock, hbeats'⟩ := exists_update_of_advance hadvance
    refine ⟨next, ?_, hclock, ?_⟩
    · rw [passAll_concat_of_ok hpassed, hupdate]
      rfl
    · rw [hbeats', hbeats, BeatLog.beats_concat, Nat.add_assoc]

/--
Lengths of time pass one after the other. This is refused for one that makes the time since the last beat
longer than a length of time can be, and for no other reason. Otherwise there is a beat exactly when the
time since the last one reaches the step, so that the beats take no more time than has passed, and an engine
whose clock is new counts exactly these beats, each time one or none.
-/
theorem beats_follow_clock (step : Duration) (ds : List Duration)
    : (passAll Clock.advance (.new step) ds = .error .overflow ↔
        ∃ front elapsed later log c, ds = front ++ elapsed :: later ∧
          passAll Clock.advance (.new step) front = .ok (log, c) ∧
          (2 ^ 64 - 1) * 10 ^ 9 + 999999999 < log.waited + elapsed.nanoseconds) ∧
      ∀ log c, passAll Clock.advance (.new step) ds = .ok (log, c) →
        log.map Prod.fst = ds ∧
        (∀ front elapsed due later, log = front ++ (elapsed, due) :: later →
          (due = true ↔ step.nanoseconds ≤ BeatLog.waited front + elapsed.nanoseconds)) ∧
        log.beats * step.nanoseconds ≤ (ds.map (·.nanoseconds)).sum ∧
        (∀ elapsed, c.advance elapsed = .error .overflow ↔
          (2 ^ 64 - 1) * 10 ^ 9 + 999999999 < log.waited + elapsed.nanoseconds) ∧
        ∀ e : Engine, e.clock = .new step →
          ∃ e', passAll update e ds = .ok (log, e') ∧ e'.beats = e.beats + log.beats ∧
            (∀ elapsed, e'.update elapsed = .error .overflow ↔
              (2 ^ 64 - 1) * 10 ^ 9 + 999999999 < log.waited + elapsed.nanoseconds) ∧
            ∀ elapsed due next, e'.update elapsed = .ok (due, next) →
              next.beats = e'.beats + due.toNat := by
  constructor
  · rw [passAll_eq_error_iff]
    constructor
    · rintro ⟨front, elapsed, later, log, c, hds, hfront, hadvance⟩
      have hlogged := Clock.logged_of_passAll hfront
      exact ⟨front, elapsed, later, log, c, hds, hfront, hlogged.advance_eq_error_iff.mp hadvance⟩
    · rintro ⟨front, elapsed, later, log, c, hds, hfront, hlong⟩
      have hlogged := Clock.logged_of_passAll hfront
      exact ⟨front, elapsed, later, log, c, hds, hfront, hlogged.advance_eq_error_iff.mpr hlong⟩
  · intro log c h
    have hlogged := Clock.logged_of_passAll h
    have hds := map_fst_of_passAll h
    have htotal : log.total = (ds.map (·.nanoseconds)).sum := by
      rw [← hds, List.map_map]
      rfl
    refine ⟨hds, hlogged.follows, ?_, fun _ => hlogged.advance_eq_error_iff, ?_⟩
    · have := hlogged.total_ge
      omega
    · intro e he
      rw [← he] at h
      obtain ⟨e', hpassed, hclock, hbeats⟩ := exists_passAll_update h
      refine ⟨e', hpassed, hbeats, ?_, fun _ _ _ => beats_of_update⟩
      intro elapsed
      rw [update_eq_error_iff, hclock]
      exact hlogged.advance_eq_error_iff

theorem beats_follow_clock_five
    : let two : Duration := ⟨2, by decide⟩
      let four : Duration := ⟨4, by decide⟩
      let nine : Duration := ⟨9, by decide⟩
      let five : Duration := ⟨5, by decide⟩
      let longest : Duration := ⟨maxNanoseconds, Nat.le_refl _⟩
      let ds := [two, four, nine, .zero, four, two]
      let log := [(two, false), (four, true), (nine, true), (.zero, false), (four, false), (two, true)]
      passAll Clock.advance (.new longest) [two, longest] = .error .overflow ∧
      passAll Clock.advance (.new five) ds = .ok (log, .new five) ∧
      (BeatLog.beats log) * 5 ≤ 21 ∧
      (true = true ↔ 5 ≤ BeatLog.waited [(two, false), (four, true), (nine, true), (.zero, false),
        (four, false)] + 2) ∧
      ∃ e', passAll update (new ⟨2, 1⟩ five .default) ds = .ok (log, e') ∧ e'.beats = 0 + 3 := by
  intro two four nine five longest ds log
  have hoverflow := (beats_follow_clock longest [two, longest]).1.mpr
    ⟨[two], longest, [], [(two, false)], ⟨longest, two⟩, rfl, rfl, by decide⟩
  have hlog : passAll Clock.advance (.new five) ds = .ok (log, .new five) := rfl
  obtain ⟨_, hfollows, htotal, _, hengine⟩ := (beats_follow_clock five ds).2 log _ hlog
  obtain ⟨e', hpassed, hbeats, _⟩ := hengine (new ⟨2, 1⟩ five .default) rfl
  exact ⟨hoverflow, hlog, htotal, hfollows [(two, false), (four, true), (nine, true), (.zero, false),
    (four, false)] two true [] rfl, e', hpassed, hbeats⟩

end Engine

end SignalBoard
