import SignalBoard.Action

/-!
This module contains the keytable, which gives the meaning of single-character commands.
-/

namespace SignalBoard

/--
What a key stands for.
-/
inductive Binding where
  | changeType (target : String)
  | moveCursor (direction : Direction)
deriving DecidableEq, Inhabited

def Binding.action : Binding → Action
  | .changeType target => .changeType target
  | .moveCursor direction => .moveCursor direction

/--
The keys that are bound, each once, in the order in which they were bound first.
-/
structure Keytable where
  bindings : List (Char × Binding)
deriving DecidableEq

namespace Keytable

def lookup (t : Keytable) (key : Char) : Option Binding :=
  t.bindings.lookup key

def contains (t : Keytable) (key : Char) : Bool :=
  (t.lookup key).isSome

/--
The action that a key stands for.
-/
def resolve? (t : Keytable) (key : Char) : Option Action :=
  (t.lookup key).map Binding.action

/--
Bind a key. A key that is bound already keeps its place and gets the new meaning.
-/
def insert (t : Keytable) (key : Char) (binding : Binding) : Keytable :=
  if t.contains key then
    ⟨t.bindings.map fun entry => if entry.1 = key then (key, binding) else entry⟩
  else
    ⟨t.bindings ++ [(key, binding)]⟩

/--
Bind keys one after the other, from front to back.
-/
def ofList (entries : List (Char × Binding)) : Keytable :=
  entries.foldl (fun t entry => t.insert entry.1 entry.2) ⟨[]⟩

/--
The keytable of an operator who has set up none: four keys move the cursor and three change the type
of a module.
-/
def default : Keytable := ofList [
  ('h', .moveCursor .left),
  ('j', .moveCursor .down),
  ('k', .moveCursor .up),
  ('l', .moveCursor .right),
  ('e', .changeType "empty"),
  ('m', .changeType "spreader"),
  ('s', .changeType "emitter")
]

theorem contains_iff_resolve? {t : Keytable} {key : Char}
    : t.contains key = true ↔ ∃ action, t.resolve? key = some action := by
  simp only [contains, resolve?]
  cases t.lookup key <;> simp

end Keytable

end SignalBoard
