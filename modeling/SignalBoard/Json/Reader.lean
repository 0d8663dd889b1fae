import SignalBoard.Json.Basic
import SignalBoard.Text.Numeral

/-!
This module reads JSON documents by the strict grammar: nothing is forgiven, and nothing may follow
the document but blank characters.
-/

namespace SignalBoard

namespace Json

def isSpace (c : Char) : Bool :=
  c = ' ' || c = '\n' || c = '\t' || c = '\r'

def skipSpace (cs : List Char) : List Char :=
  cs.dropWhile isSpace

/--
A part of a string: a character, or the code of an escape.
-/
inductive StringPart where
  | char (c : Char)
  | code (n : Nat)

def hexDigit? (c : Char) : Option Nat :=
  if '0' ≤ c ∧ c ≤ '9' then
    some (c.toNat - '0'.toNat)
  else if 'a' ≤ c ∧ c ≤ 'f' then
    some (c.toNat - 'a'.toNat + 10)
  else if 'A' ≤ c ∧ c ≤ 'F' then
    some (c.toNat - 'A'.toNat + 10)
  else
    none

def hexCode? (a b c d : Char) : Option Nat := do
  return ((← hexDigit? a) * 16 + (← hexDigit? b)) * 256 + (← hexDigit? c) * 16 + (← hexDigit? d)

/--
The character that a letter behind a backslash stands for.
-/
def escape? : Char → Option Char
  | '"' => some '"'
  | '\\' => some '\\'
  | '/' => some '/'
  | 'b' => some '\x08'
  | 'f' => some '\x0c'
  | 'n' => some '\n'
  | 'r' => some '\r'
  | 't' => some '\t'
  | _ => none

/--
Read a string up to the closing quote. Control characters have to be escaped.
-/
def readParts : List Char → Option (List StringPart × List Char)
  | [] => none
  | '"' :: cs => some ([], cs)
  | '\\' :: 'u' :: a :: b :: c :: d :: cs => do
    let n ← hexCode? a b c d
    let (parts, cs) ← readParts cs
    return (.code n :: parts, cs)
  | '\\' :: c :: cs => do
    let c ← escape? c
    let (parts, cs) ← readParts cs
    return (.char c :: parts, cs)
  | c :: cs => do
    if c = '\\' ∨ c.toNat < 0x20 then
      none
    else
      let (parts, cs) ← readParts cs
      return (.char c :: parts, cs)

/--
The text that the parts of a string make up, where two codes can be the halves of a surrogate pair.
-/
def assemble : List StringPart → Option (List Char)
  | [] => some []
  | .char c :: parts => (assemble parts).map (c :: ·)
  | .code high :: .code low :: parts =>
    if 0xd800 ≤ high ∧ high < 0xdc00 then
      if 0xdc00 ≤ low ∧ low < 0xe000 then
        (assemble parts).map
          (Char.ofNat (0x10000 + (high - 0xd800) * 0x400 + (low - 0xdc00)) :: ·)
      else
        none
    else if 0xdc00 ≤ high ∧ high < 0xe000 then
      none
    else
      (assemble (.code low :: parts)).map (Char.ofNat high :: ·)
  | .code n :: parts =>
    if 0xd800 ≤ n ∧ n < 0xe000 then none else (assemble parts).map (Char.ofNat n :: ·)

/--
Read a string whose opening quote has been read.
-/
def readString (cs : List Char) : Option (Option String × List Char) :=
  (readParts cs).map fun (parts, cs) => ((assemble parts).map String.ofList, cs)

/--
Read a run of digits, which must not be empty.
-/
def readDigits (cs : List Char) : Option (List Char × List Char) :=
  let digits := cs.takeWhile Char.isDigit
  if digits.isEmpty then none else some (digits, cs.dropWhile Char.isDigit)

/--
Skip a fraction, and tell whether there was one.
-/
def skipFraction : List Char → Option (Bool × List Char)
  | '.' :: cs => (readDigits cs).map fun (_, cs) => (true, cs)
  | cs => some (false, cs)

def skipSign : List Char → List Char
  | '+' :: cs => cs
  | '-' :: cs => cs
  | cs => cs

/--
Skip an exponent, and tell whether there was one.
-/
def skipExponent : List Char → Option (Bool × List Char)
  | 'e' :: cs => (readDigits (skipSign cs)).map fun (_, cs) => (true, cs)
  | 'E' :: cs => (readDigits (skipSign cs)).map fun (_, cs) => (true, cs)
  | cs => some (false, cs)

/--
Read a number. Leading zeros are not allowed.
-/
def readNumber (cs : List Char) : Option (Json × List Char) := do
  let negative := cs.head? = some '-'
  let (digits, cs) ← readDigits (if negative then cs.tail else cs)
  if digits.head? = some '0' ∧ digits.length ≠ 1 then
    none
  else
    let (fraction, cs) ← skipFraction cs
    let (exponent, cs) ← skipExponent cs
    if negative || fraction || exponent then
      return (.number, cs)
    else
      return (.natural (Numeral.value digits), cs)

mutual

/--
Read a value. Every call goes one step down from `fuel`; two steps for each character are enough.
-/
def readValue (fuel : Nat) (cs : List Char) : Option (Json × List Char) :=
  match fuel with
  | 0 => none
  | fuel + 1 =>
    match skipSpace cs with
    | 'n' :: 'u' :: 'l' :: 'l' :: cs => some (.null, cs)
    | 't' :: 'r' :: 'u' :: 'e' :: cs => some (.bool true, cs)
    | 'f' :: 'a' :: 'l' :: 's' :: 'e' :: cs => some (.bool false, cs)
    | '"' :: cs => (readString cs).map fun (text, cs) => (.string text, cs)
    | '[' :: cs =>
      match skipSpace cs with
      | ']' :: cs => some (.array [], cs)
      | cs => (readElements fuel cs).map fun (elements, cs) => (.array elements, cs)
    | '{' :: cs =>
      match skipSpace cs with
      | '}' :: cs => some (.object [], cs)
      | cs => (readMembers fuel cs).map fun (members, cs) => (.object members, cs)
    | cs => readNumber cs

/--
Read the elements of an array, of which there is at least one more, and the closing bracket.
-/
def readElements (fuel : Nat) (cs : List Char) : Option (List Json × List Char) :=
  match fuel with
  | 0 => none
  | fuel + 1 => do
    let (element, cs) ← readValue fuel cs
    match skipSpace cs with
    | ',' :: cs =>
      let (elements, cs) ← readElements fuel cs
      return (element :: elements, cs)
    | ']' :: cs => return ([element], cs)
    | _ => none

/--
Read the members of an object, of which there is at least one more, and the closing brace.
-/
def readMembers (fuel : Nat) (cs : List Char) : Option (List (Option String × Json) × List Char) :=
  match fuel with
  | 0 => none
  | fuel + 1 =>
    match skipSpace cs with
    | '"' :: cs => do
      let (name, cs) ← readString cs
      match skipSpace cs with
      | ':' :: cs =>
        let (value, cs) ← readValue fuel cs
        match skipSpace cs with
        | ',' :: cs =>
          let (members, cs) ← readMembers fuel cs
          return ((name, value) :: members, cs)
        | '}' :: cs => return ([(name, value)], cs)
        | _ => none
      | _ => none
    | _ => none

end

/--
Read a whole document.
-/
def read? (text : String) : Option Json := do
  let cs := text.toList
  let (document, cs) ← readValue (2 * cs.length + 2) cs
  if (skipSpace cs).isEmpty then return document else none

end Json

end SignalBoard
