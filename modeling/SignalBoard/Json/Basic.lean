/-!
This module contains the documents in which settings are written. Of their numbers only the natural
ones are told apart.
-/

namespace SignalBoard

inductive Json where
  | null
  | bool (value : Bool)
  /-- A number that is written without sign, fraction and exponent. -/
  | natural (value : Nat)
  /-- Any other number. -/
  | number
  /-- A string, which has no text if an escape in it stands for half of a surrogate pair. -/
  | string (text : Option String)
  | array (elements : List Json)
  | object (members : List (Option String × Json))
deriving Inhabited

end SignalBoard
