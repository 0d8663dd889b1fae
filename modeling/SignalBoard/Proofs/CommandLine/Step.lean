import SignalBoard.CommandLine.Options
import SignalBoard.Proofs.Time.Beats
import SignalBoard.Proofs.Time.Seconds

/-!
This module shows which steps can be asked for on the command line, and when such a step is positive:
`Options.accepted_step_pos_iff`.
-/

namespace SignalBoard

namespace Arguments

/--
No parameter has more values than times it was named, and the one that waits for a value has fewer.
-/
def Counted (a : Arguments) : Prop :=
  ∀ p, (a.valuesOf p).length + (if a.pending = some p then 1 else 0) ≤ a.count p

theorem counted_empty : Counted empty := by
  intro p
  exact Nat.le_refl _

theorem length_valuesOf_concat {a b : Arguments} {p : Parameter} {text : String}
    (h : b.values = a.values ++ [(p, text)]) (q : Parameter)
    : (b.valuesOf q).length = (a.valuesOf q).length + if p = q then 1 else 0 := by
  rw [valuesOf, valuesOf, h, List.filter_append, List.map_append, List.length_append]
  by_cases hq : p = q <;> simp [hq]

theorem count_concat {a b : Arguments} {p : Parameter} (h : b.named = a.named ++ [p]) (q : Parameter)
    : b.count q = a.count q + if p = q then 1 else 0 := by
  rw [count, count, h, List.count_append, List.count_singleton]
  simp

namespace Counted

variable {a a' : Arguments}

theorem release (h : a.Counted) : Counted { a with pending := none } := by
  intro p
  rw [if_neg (by simp)]
  exact (Nat.le_add_right _ _).trans (h p)

theorem flag (h : a.Counted) {f : Flag} (hf : a.flag f = .ok a') : a'.Counted := by
  cases f with
  | verbose =>
    cases hf
    exact h
  | quiet =>
    cases hf
    exact h
  | help => cases hf
  | version => cases hf

theorem parameter (h : a.Counted) (p : Parameter) (value : Option (List Char))
    : (a.parameter p value).Counted := by
  intro q
  have hq := h q
  cases value with
  | none =>
    have hcount := count_concat (a := a) (b := a.parameter p none) rfl q
    have hvalues : (a.parameter p none).valuesOf q = a.valuesOf q := rfl
    have hpending : (a.parameter p none).pending = some p := rfl
    rw [hcount, hvalues, hpending]
    simp only [Option.some_inj]
    omega
  | some cs =>
    have hcount := count_concat (a := a) (b := a.parameter p (some cs)) rfl q
    have hvalues := length_valuesOf_concat (a := a) (b := a.parameter p (some cs)) rfl q
    have hpending : (a.parameter p (some cs)).pending = a.pending := rfl
    rw [hcount, hvalues, hpending]
    omega

theorem long (h : a.Counted) {cs : List Char} (hcs : a.long cs = .ok a') : a'.Counted := by
  unfold Arguments.long at hcs
  dsimp only at hcs
  split at hcs
  · cases hcs
  · exact h.flag hcs
  · cases hcs
    exact h.parameter _ _

theorem short (h : a.Counted) {cs : List Char} (hcs : a.short cs = .ok a') : a'.Counted := by
  induction cs generalizing a with
  | nil =>
    cases hcs
    exact h
  | cons c cs ih =>
    unfold Arguments.short at hcs
    split at hcs
    · cases hcs
    · split at hcs
      · cases hcs
      · rename_i hflag
        exact ih (h.flag hflag) hcs
    · cases hcs
      exact h.parameter _ _

theorem feed (h : a.Counted) {argument : String} (hfeed : a.feed argument = .ok a') : a'.Counted := by
  unfold Arguments.feed at hfeed
  split at hfeed
  · cases hfeed
  · split at hfeed
    · cases hfeed
      exact h
    · exact h.release.long hfeed
    · exact h.release.short hfeed
    · split at hfeed
      · cases hfeed
      · rename_i p hpending
        cases hfeed
        intro q
        have hq := h q
        rw [hpending] at hq
        rw [length_valuesOf_concat (a := a) rfl q]
        simp only [Option.some_inj, reduceCtorEq, if_false] at hq ⊢
        exact hq

theorem feedAll (h : a.Counted) {arguments : List String}
    (hfeed : arguments.foldlM Arguments.feed a = .ok a') : a'.Counted := by
  induction arguments generalizing a with
  | nil =>
    cases hfeed
    exact h
  | cons argument arguments ih =>
    rw [List.foldlM_cons] at hfeed
    cases hnext : a.feed argument with
    | error error =>
      rw [hnext] at hfeed
      cases hfeed
    | ok next =>
      rw [hnext] at hfeed
      exact ih (h.feed hnext) hfeed

end Counted

theorem counted_of_read {arguments : List String} {a : Arguments} (h : read arguments = .ok a)
    : a.Counted :=
  counted_empty.feedAll h

end Arguments

/--
An engine needs time for its first beat unless its step is none.
-/
theorem Engine.pos_iff_update_zero (size : Size) (step : Duration) (settings : Settings)
    : 0 < step.nanoseconds ↔ ∀ e, (Engine.new size step settings).update .zero ≠ .ok (true, e) := by
  have hclock : (Engine.new size step settings).clock = .new step := rfl
  rw [update_eq, hclock]
  cases hadvance : (Clock.new step).advance .zero with
  | error error =>
    rw [Clock.advance_eq_error_iff] at hadvance
    exact absurd hadvance (Nat.not_lt_zero _)
  | ok result =>
    obtain ⟨due, clock⟩ := result
    rcases (Clock.cases_of_advance hadvance).2 with ⟨rfl, hdue, _⟩ | ⟨rfl, hpos, _⟩
    · have hzero : ¬0 < step.nanoseconds := Nat.not_lt.mpr hdue
      refine iff_of_false hzero fun h => ?_
      exact h _ rfl
    · have hpos : 0 < step.nanoseconds := hpos
      refine iff_of_true hpos fun e h => ?_
      cases h

namespace Options

theorem exists_of_bind {α β : Type} {x : Except ArgumentError α} {f : α → Except ArgumentError β} {b : β}
    (h : (x >>= f) = .ok b) : ∃ a, x = .ok a ∧ f a = .ok b := by
  cases x with
  | error error => cases h
  | ok a => exact ⟨a, rfl, h⟩

theorem exists_of_mapM_singleton {α : Type} {read : String → Except ArgumentError α} {text : String}
    {values : List α} (h : [text].mapM read = .ok values)
    : ∃ value, values = [value] ∧ read text = .ok value := by
  rw [List.mapM_cons] at h
  obtain ⟨value, hread, h⟩ := exists_of_bind h
  cases h
  exact ⟨value, rfl, hread⟩

/--
A parameter that has a default is read from its only value, or from the default if it has none.
-/
theorem exists_of_singleOr {α : Type} {a : Arguments} {p : Parameter} {default : String}
    {read : String → Except ArgumentError α} {value : α} (ha : a.Counted)
    (h : singleOr a p default read = .ok value)
    : ∃ text, (a.valuesOf p = [text] ∨ a.valuesOf p = [] ∧ text = default) ∧ read text = .ok value := by
  unfold singleOr at h
  obtain ⟨values, hvalues, h⟩ := exists_of_bind h
  split at h
  · cases h
  · rename_i hcount
    have hlength := ha p
    rcases hgiven : a.valuesOf p with _ | ⟨text, _ | ⟨second, rest⟩⟩
    · rw [hgiven] at hvalues
      obtain ⟨_, rfl, hread⟩ := exists_of_mapM_singleton hvalues
      cases h
      exact ⟨default, .inr ⟨rfl, rfl⟩, hread⟩
    · rw [hgiven] at hvalues
      obtain ⟨_, rfl, hread⟩ := exists_of_mapM_singleton hvalues
      cases h
      exact ⟨text, .inl rfl, hread⟩
    · rw [hgiven, List.length_cons, List.length_cons] at hlength
      omega

theorem singleOr_step_of_ofArguments {files : Files} {a : Arguments} {options : Options}
    (h : ofArguments files a = .ok options)
    : singleOr a .step "0.2" readStep = .ok options.step := by
  unfold ofArguments at h
  dsimp only at h
  split at h
  · cases h
  · split at h
    · cases h
    · obtain ⟨_, _, h⟩ := exists_of_bind h
      obtain ⟨_, hstep, h⟩ := exists_of_bind h
      obtain ⟨_, _, h⟩ := exists_of_bind h
      obtain ⟨_, _, h⟩ := exists_of_bind h
      obtain ⟨_, _, h⟩ := exists_of_bind h
      obtain ⟨_, _, h⟩ := exists_of_bind h
      cases h
      exact hstep

theorem readStep_eq_ok_iff {text : String} {d : Duration}
    : readStep text = .ok d ↔ Duration.readSeconds text = .ok d := by
  unfold readStep
  cases Duration.readSeconds text with
  | error error => exact iff_of_false nofun nofun
  | ok e =>
    constructor
    · intro h
      cases h
      rfl
    · intro h
      cases h
      rfl

theorem exists_of_toOption_map {α β : Type} {x : Except ArgumentError α} {f : α → β} {b : β}
    (h : x.toOption.map f = some b) : ∃ a, x = .ok a ∧ f a = b := by
  cases x with
  | error error => cases h
  | ok a =>
    cases h
    exact ⟨a, rfl, rfl⟩

/--
What is accepted as the step is a number of more than `2 ^ (-150)` seconds that is not too large. The step is
only positive, so that a beat takes time, if the number is at least `18014399 / 2 ^ 55`, which is a bit more
than half a nanosecond. Smaller numbers are accepted, but are rounded to no nanoseconds.
-/
theorem accepted_step_pos_iff (files : Files)
    : (∀ text : String, (∃ d, readStep text = .ok d) ↔
        ∃ form : Decimal.Form, form.text = text.toList ∧
          1 / 2 ^ 150 < form.value ∧ form.value < 2 ^ 64 - 2 ^ 39) ∧
      ∀ arguments given options, Arguments.read arguments = .ok given →
        read files arguments = .ok options →
        ∃ form : Decimal.Form,
          (given.valuesOf .step = [String.ofList form.text] ∨
            given.valuesOf .step = [] ∧ form.text = "0.2".toList) ∧
          (0 < options.step.nanoseconds ↔ 18014399 / 2 ^ 55 ≤ form.value) ∧
          ∀ settings, 0 < options.step.nanoseconds ↔
            ∀ e, (Engine.new options.size options.step settings).update .zero ≠ .ok (true, e) := by
  constructor
  · intro text
    simp only [readStep_eq_ok_iff]
    constructor
    · rintro ⟨d, hread⟩
      obtain ⟨form, htext⟩ := Duration.exists_form_of_readSeconds hread
      exact ⟨form, htext, (Duration.exists_readSeconds_iff htext).mp ⟨d, hread⟩⟩
    · rintro ⟨form, htext, hbounds⟩
      exact (Duration.exists_readSeconds_iff htext).mpr hbounds
  · intro arguments given options hgiven hread
    unfold read at hread
    rw [hgiven] at hread
    obtain ⟨text, hsource, hstep⟩ :=
      exists_of_singleOr (Arguments.counted_of_read hgiven) (singleOr_step_of_ofArguments hread)
    rw [readStep_eq_ok_iff] at hstep
    obtain ⟨form, htext⟩ := Duration.exists_form_of_readSeconds hstep
    refine ⟨form, ?_, Duration.pos_iff_of_readSeconds htext hstep, ?_⟩
    · rw [htext, String.ofList_toList]
      exact hsource.imp id fun ⟨hnone, hdefault⟩ => ⟨hnone, by rw [hdefault]⟩
    · intro settings
      exact Engine.pos_iff_update_zero options.size options.step settings

theorem accepted_step_pos_iff_nanosecond
    : let files : Files := fun _ => .error .notFound
      let arguments := ["--step=1e-9"]
      ∃ given options, Arguments.read arguments = .ok given ∧ read files arguments = .ok options ∧
        0 < options.step.nanoseconds ∧
        ∃ form : Decimal.Form, String.ofList form.text = "1e-9" ∧ 18014399 / 2 ^ 55 ≤ form.value := by
  intro files arguments
  have hread : (read files arguments).toOption.map (·.step.nanoseconds) = some 1 := by decide +kernel
  have hgiven : (Arguments.read arguments).toOption.map (·.valuesOf .step) = some ["1e-9"] := by decide +kernel
  obtain ⟨options, hread, hstep⟩ := exists_of_toOption_map hread
  obtain ⟨given, hgiven, hvalues⟩ := exists_of_toOption_map hgiven
  obtain ⟨form, hform, hpos, _⟩ := (accepted_step_pos_iff files).2 arguments given options hgiven hread
  have hone : 0 < options.step.nanoseconds := hstep ▸ Nat.one_pos
  rw [hvalues] at hform
  refine ⟨given, options, hgiven, hread, hone, form, ?_, hpos.mp hone⟩
  rcases hform with hform | ⟨hform, _⟩
  · exact (List.singleton_inj.mp hform).symm
  · cases hform

theorem accepts_tenth_of_nanosecond
    : ∃ options, read (fun _ => .error .notFound) ["--step=1e-10"] = .ok options ∧
        ¬0 < options.step.nanoseconds ∧
        ∃ e, (Engine.new options.size options.step .default).update .zero = .ok (true, e) := by
  have hread : (read (fun _ => .error .notFound) ["--step=1e-10"]).toOption.map (·.step.nanoseconds)
      = some 0 := by decide +kernel
  obtain ⟨options, hread, hstep⟩ := exists_of_toOption_map hread
  have hzero : ¬0 < options.step.nanoseconds := Nat.not_lt.mpr (Nat.le_of_eq hstep)
  refine ⟨options, hread, hzero, ?_⟩
  rw [Engine.pos_iff_update_zero options.size options.step .default] at hzero
  simpa using hzero

end Options

end SignalBoard
