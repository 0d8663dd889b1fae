import SignalBoard.Proofs.Engine.Operation

/-!
This module shows that an engine undoes as if it had kept a copy of all modules from before each
batch: `Engine.follows_snapshots`.
-/

namespace SignalBoard

/--
The modules after a batch of actions, unless one of them is refused.
-/
def Grid.batch? (g : Grid Module) (cursor : Position) : List Action → Option (Grid Module)
  | [] => some g
  | action :: rest =>
    match action.scope with
    | .editor => g.batch? (action.applyToCursor cursor g.size) rest
    | .cell =>
      match g.get? cursor with
      | none => none
      | some m =>
        match action.apply m with
        | .error _ => none
        | .ok (replacement, _) => (g.set cursor replacement).batch? cursor rest

theorem batch?_modules (s : Batch) (actions : List Action)
    : s.board.modules.batch? s.cursor actions
        =
      match s.run actions with
      | (s', none) => some s'.board.modules
      | (_, some _) => none := by
  induction actions generalizing s with
  | nil => rfl
  | cons action rest ih =>
    cases hscope : action.scope with
    | editor =>
      simp only [Grid.batch?, Batch.run, Batch.step, hscope]
      exact ih { s with cursor := action.applyToCursor s.cursor s.board.size }
    | cell =>
      simp only [Grid.batch?, Batch.run, Batch.step, hscope, Board.apply, Board.get?]
      cases s.board.modules.get? s.cursor with
      | none => rfl
      | some m =>
        dsimp only
        cases action.apply m with
        | error error => rfl
        | ok result =>
          dsimp only
          rw [← Board.modules_install]
          exact ih ⟨s.board.install s.cursor result.1, s.cursor, ⟨s.cursor, result.2⟩ :: s.records⟩

/--
The modules of a board, with copies of what they were before each batch that can be undone. The newest
copy comes first.
-/
structure Snapshots where
  grid : Grid Module
  stack : List (Grid Module)
  limit : Nat

namespace Snapshots

def new (size : Size) (limit : Nat) : Snapshots :=
  ⟨.ofFn size (Module.new .empty), [], limit⟩

/--
Carry out a batch, and keep a copy of the modules from before it if an action of it acts on a module.
The oldest copies are forgotten first.
-/
def batch (s : Snapshots) (cursor : Position) (actions : List Action) : Snapshots :=
  match s.grid.batch? cursor actions with
  | none => s
  | some grid =>
    if actions.any (·.scope = .cell) then
      { s with grid := grid, stack := (s.grid :: s.stack).take s.limit }
    else
      s

/--
Put back the newest copy. Tells whether there was one.
-/
def undo (s : Snapshots) : Bool × Snapshots :=
  match s.stack with
  | [] => (false, s)
  | grid :: stack => (true, { s with grid := grid, stack := stack })

/--
Do what an operation asks for, where `cursor` is the place in which a batch starts.
-/
def follow (s : Snapshots) (cursor : Position) : Request → Snapshots
  | .batch actions => s.batch cursor actions
  | .undo => s.undo.2
  | .nothing => s

/--
Do what the operations of a run of `e` ask for.
-/
def beside (s : Snapshots) (e : Engine) : List Engine.Operation → Snapshots
  | [] => s
  | op :: ops => (s.follow e.editor.cursor (e.request op)).beside (e.after op) ops

end Snapshots

/--
Going back from the modules `g` through a history, batch by batch, leads through the grids of `stack`.
-/
inductive Replayable : Grid Module → List (List Record) → List (Grid Module) → Prop where
  | nil (g : Grid Module) : Replayable g [] []
  | cons {g g' : Grid Module} {records : List Record} {history : List (List Record)}
      {stack : List (Grid Module)} (hrecords : Restores records g g')
      (hhistory : Replayable g' history stack) : Replayable g (records :: history) (g' :: stack)

namespace Replayable

theorem length_eq {g : Grid Module} {history : List (List Record)} {stack : List (Grid Module)}
    (h : Replayable g history stack) : history.length = stack.length := by
  induction h with
  | nil g => rfl
  | cons _ _ ih => rw [List.length_cons, List.length_cons, ih]

theorem take {g : Grid Module} {history : List (List Record)} {stack : List (Grid Module)}
    (h : Replayable g history stack) (n : Nat) : Replayable g (history.take n) (stack.take n) := by
  induction h generalizing n with
  | nil g =>
    rw [List.take_nil, List.take_nil]
    exact .nil g
  | cons hrecords _ ih =>
    cases n with
    | zero => exact .nil _
    | succ n => exact .cons hrecords (ih n)

theorem cases_of {g : Grid Module} {history : List (List Record)} {stack : List (Grid Module)}
    (h : Replayable g history stack)
    : (history = [] ∧ stack = []) ∨
        (∃ records older g' copies, history = records :: older ∧ stack = g' :: copies ∧
          Restores records g g' ∧ Replayable g' older copies) := by
  cases h with
  | nil => exact .inl ⟨rfl, rfl⟩
  | cons hrecords hhistory => exact .inr ⟨_, _, _, _, rfl, rfl, hrecords, hhistory⟩

end Replayable

namespace Engine

/--
The engine holds the modules of `s`, and its history leads back through the copies of `s`.
-/
structure Mirrors (e : Engine) (s : Snapshots) : Prop where
  modules : e.board.modules = s.grid
  limit : e.maxHistory = s.limit
  history : Replayable s.grid e.history s.stack

namespace Mirrors

variable {e : Engine} {s : Snapshots}

theorem new (size : Size) (step : Duration) (settings : Settings)
    : (Engine.new size step settings).Mirrors (.new size settings.maxHistory) where
  modules := rfl
  limit := rfl
  history := .nil _

theorem quiet {e' : Engine} (h : e.Mirrors s) (hquiet : e.Quiet e') : e'.Mirrors s where
  modules := by rw [hquiet.modules, h.modules]
  limit := by rw [hquiet.maxHistory, h.limit]
  history := by
    rw [hquiet.history]
    exact h.history

theorem perform (h : e.Mirrors s) (actions : List Action)
    : (e.perform actions).2.Mirrors (s.batch e.editor.cursor actions) := by
  have hbatch := batch?_modules e.startBatch actions
  change e.board.modules.batch? e.editor.cursor actions = _ at hbatch
  rw [h.modules] at hbatch
  unfold Snapshots.batch
  rcases perform_cases e actions with ⟨t, hrun, hperform⟩ | ⟨t, error, hrun, hperform⟩
  · rw [hrun] at hbatch
    rw [hbatch, hperform]
    have hrestores : Restores t.records t.board.modules e.board.modules := restores_of_run hrun
    have hrecords : t.records.isEmpty = !actions.any (·.scope = .cell) :=
      Batch.isEmpty_records_of_run hrun
    dsimp only
    cases hany : actions.any (·.scope = .cell) with
    | true =>
      rw [hany] at hrecords
      -- the records of the batch lead back to the copy that is made, and both histories are cut alike
      constructor
      · exact board_accepted e t ▸ rfl
      · rw [maxHistory_accepted, h.limit]
        rfl
      · rw [history_accepted, hrecords, h.limit]
        apply Replayable.take
        exact .cons (h.modules ▸ hrestores) h.history
    | false =>
      rw [hany] at hrecords
      -- without records, going back is standing still
      rw [List.isEmpty_iff.mp hrecords] at hrestores
      obtain ⟨b, hback, hmodules⟩ := hrestores t.board rfl
      cases hback
      constructor
      · rw [board_accepted, hmodules, h.modules]
        rfl
      · rw [maxHistory_accepted, h.limit]
        rfl
      · rw [history_accepted, hrecords]
        exact h.history
  · rw [hrun] at hbatch
    rw [hbatch, hperform]
    constructor
    · rw [modules_rejected hrun, h.modules]
    · exact h.limit
    · exact h.history

theorem undo (h : e.Mirrors s) : e.undo.2.Mirrors s.undo.2 := by
  unfold Snapshots.undo
  rcases h.history.cases_of with ⟨hhistory, hstack⟩ |
    ⟨records, older, g, copies, hhistory, hstack, hrecords, holder⟩
  · rw [undo_nil hhistory, hstack]
    exact ⟨h.modules, h.limit, h.history⟩
  · rw [undo_cons hhistory, hstack]
    obtain ⟨b, hback, hmodules⟩ := hrecords e.board h.modules
    constructor
    · change (e.board.revertAll records).1.modules = g
      rw [Board.revertEach_eq_ok_iff.mp hback]
      exact hmodules
    · exact h.limit
    · exact holder

theorem fst_undo (h : e.Mirrors s) : e.undo.1 = s.undo.1 := by
  unfold Snapshots.undo
  rcases h.history.cases_of with ⟨hhistory, hstack⟩ |
    ⟨records, older, g, copies, hhistory, hstack, _, _⟩
  · rw [undo_nil hhistory, hstack]
  · rw [undo_cons hhistory, hstack]

theorem revertAll_eq (h : e.Mirrors s) {records : List Record} {older : List (List Record)}
    (hhistory : e.history = records :: older)
    : e.board.revertAll records = (e.undo.2.board, none) := by
  rcases h.history.cases_of with ⟨hnil, _⟩ | ⟨_, _, g, copies, hcons, _, hrecords, _⟩
  · rw [hnil] at hhistory
    cases hhistory
  · rw [hcons] at hhistory
    cases hhistory
    obtain ⟨b, hback, _⟩ := hrecords e.board h.modules
    rw [undo_cons hcons]
    rw [Board.revertEach_eq_ok_iff] at hback
    rw [hback]
    exact congrArg (·, none) (congrArg Prod.fst hback).symm

theorem after (h : e.Mirrors s) (op : Operation)
    : (e.after op).Mirrors (s.follow e.editor.cursor (e.request op)) := by
  have hresponds := responds_after e op
  generalize e.request op = request, e.after op = next at hresponds ⊢
  cases hresponds with
  | batch actions hstart hnext =>
    rw [← hstart.cursor]
    exact ((h.quiet hstart).perform actions).quiet hnext
  | undo hstart hnext => exact (h.quiet hstart).undo.quiet hnext
  | nothing hnext => exact h.quiet hnext

theorem run (h : e.Mirrors s) (ops : List Operation) : (e.run ops).Mirrors (s.beside e ops) := by
  induction ops generalizing e s with
  | nil => exact h
  | cons op ops ih => exact ih (h.after op)

end Mirrors

theorem isSome_batch?_iff (e : Engine) (actions : List Action)
    : (e.board.modules.batch? e.editor.cursor actions).isSome ↔
        (e.perform actions).1 = .ok () := by
  have hbatch := batch?_modules e.startBatch actions
  change e.board.modules.batch? e.editor.cursor actions = _ at hbatch
  rcases perform_cases e actions with ⟨s, hrun, hperform⟩ | ⟨s, error, hrun, hperform⟩
  · rw [hrun] at hbatch
    simp [hbatch, hperform]
  · rw [hrun] at hbatch
    simp [hbatch, hperform]

/--
Whatever is done to an engine, its modules are those of a board that keeps a copy of all modules from
before each batch, as many as the settings allow. It accepts the same batches, can undo as often, and
undoing puts back the newest copy without meeting a conflict.
-/
theorem follows_snapshots (size : Size) (step : Duration) (settings : Settings)
    (ops : List Operation)
    : let e := (Engine.new size step settings).run ops
      let s := (Snapshots.new size settings.maxHistory).beside (.new size step settings) ops
      e.board.modules = s.grid ∧ e.history.length = s.stack.length ∧
      e.undo.1 = s.undo.1 ∧ e.undo.2.board.modules = s.undo.2.grid ∧
      (∀ actions, (s.grid.batch? e.editor.cursor actions).isSome ↔
        (e.perform actions).1 = .ok ()) ∧
      ∀ records older, e.history = records :: older →
        e.board.revertAll records = (e.undo.2.board, none) := by
  intro e s
  have h : e.Mirrors s := (Mirrors.new size step settings).run ops
  refine ⟨h.modules, h.history.length_eq, h.fst_undo, h.undo.modules, ?_, ?_⟩
  · intro actions
    rw [← h.modules]
    exact isSome_batch?_iff e actions
  · intro records older hhistory
    exact h.revertAll_eq hhistory

theorem follows_snapshots_capped
    : let e := (Engine.new ⟨3, 3⟩ .zero { Settings.default with maxHistory := 2 }).run
        [.submit "s", .submit "e", .tick, .submit "s"]
      e.history.length = 2 ∧
      ∃ records older, e.history = records :: older ∧
        e.board.revertAll records = (e.undo.2.board, none) ∧
        (e.undo.2.board.get? .origin).map Module.kind = some .empty := by
  intro e
  have hlength : e.history.length = 2 := by decide +kernel
  have hkind : (e.undo.2.board.get? .origin).map Module.kind = some .empty := by decide +kernel
  have h := follows_snapshots ⟨3, 3⟩ .zero { Settings.default with maxHistory := 2 }
    [.submit "s", .submit "e", .tick, .submit "s"]
  have hback : ∀ records older, e.history = records :: older →
      e.board.revertAll records = (e.undo.2.board, none) := h.2.2.2.2.2
  clear_value e
  cases hhistory : e.history with
  | nil =>
    rw [hhistory] at hlength
    cases hlength
  | cons records older =>
    rw [hhistory] at hlength
    exact ⟨hlength, records, older, rfl, hback records older hhistory, hkind⟩

end Engine

end SignalBoard
