import SignalBoard.Text.Blank
import SignalBoard.Text.Lowercase

/-!
This module contains the kinds of modules, and the names by which operators refer to them.
-/

namespace SignalBoard

/--
What a module does with signals.
-/
inductive ModuleKind where
  /-- Lets every pulse pass. -/
  | empty
  /-- Sends a pulse that enters through an input out of all outputs. -/
  | spreader
  /-- Sends out pulses of its own. -/
  | emitter
deriving DecidableEq, Inhabited

namespace ModuleKind

def all : List ModuleKind := [.empty, .spreader, .emitter]

def name : ModuleKind → String
  | .empty => "empty"
  | .spreader => "spreader"
  | .emitter => "emitter"

/--
The form in which names are compared: blank characters at the ends and the case of letters do not
matter.
-/
def normalize (text : String) : String :=
  Text.lowercase (Text.trim text)

/--
Find the kind that an operator calls `text`.
-/
def ofName? (text : String) : Option ModuleKind :=
  let name := normalize text
  all.find? (·.name = name)

theorem mem_all (kind : ModuleKind) : kind ∈ all := by
  cases kind <;> decide

theorem name_inj {k l : ModuleKind} : k.name = l.name ↔ k = l := by
  cases k <;> cases l <;> decide

/--
A text names a kind exactly if its normal form is the name of the kind.
-/
theorem ofName?_eq_some_iff {text : String} {kind : ModuleKind}
    : ofName? text = some kind ↔ normalize text = kind.name := by
  unfold ofName?
  constructor
  · intro h
    have := List.find?_some h
    simp only [decide_eq_true_eq] at this
    exact this.symm
  · intro h
    simp only [h]
    cases kind <;> decide

end ModuleKind

/--
Why a text is refused as the name of a kind. The name is the normal form of the text.
-/
inductive KindError where
  | unknown (name : String)
deriving DecidableEq

def KindError.message : KindError → String
  | .unknown name => s!"invalid module name '{name}'"

end SignalBoard
