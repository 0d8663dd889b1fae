/-!
This module divides texts behind the run of characters of one class with which they begin. Every text can
be divided so in one way only: `Text.append_inj_of_runs`.
-/

namespace SignalBoard

namespace Text

variable {p : Char → Bool} {run rest : List Char}

theorem takeWhile_append_of_run (hrun : ∀ c ∈ run, p c = true) (hrest : ∀ c ∈ rest.head?, p c = false)
    : (run ++ rest).takeWhile p = run := by
  rw [List.takeWhile_append_of_pos hrun]
  cases rest with
  | nil => simp
  | cons c rest =>
    have : p c = false := hrest c rfl
    simp [this]

theorem dropWhile_append_of_run (hrun : ∀ c ∈ run, p c = true) (hrest : ∀ c ∈ rest.head?, p c = false)
    : (run ++ rest).dropWhile p = rest := by
  rw [List.dropWhile_append_of_pos hrun]
  cases rest with
  | nil => rfl
  | cons c rest => simp [hrest c rfl]

theorem append_inj_of_runs {run' rest' : List Char} (hrun : ∀ c ∈ run, p c = true)
    (hrun' : ∀ c ∈ run', p c = true) (hrest : ∀ c ∈ rest.head?, p c = false)
    (hrest' : ∀ c ∈ rest'.head?, p c = false) (h : run ++ rest = run' ++ rest')
    : run = run' ∧ rest = rest' := by
  have hsame : run = run' := by
    rw [← takeWhile_append_of_run hrun hrest, h]
    apply takeWhile_append_of_run hrun' hrest'
  subst hsame
  exact ⟨rfl, List.append_cancel_left h⟩

end Text

end SignalBoard
