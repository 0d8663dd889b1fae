/-!
This module contains trees of files, and the way in which a path leads through them. Its main
definition is `FileTree.openPath`, which tells what is found at a path or why nothing can be opened
there.
-/

namespace SignalBoard

/--
Why nothing can be opened at a path.
-/
inductive OpenError where
  | nulCharacter
  | nameTooLong
  | notFound
  | notDirectory
  | permissionDenied
  | other (reason : String)
deriving DecidableEq

def OpenError.message : OpenError → String
  | .nulCharacter => "file name contained an unexpected NUL byte"
  | .nameTooLong => "File name too long (os error 36)"
  | .notFound => "No such file or directory (os error 2)"
  | .notDirectory => "Not a directory (os error 20)"
  | .permissionDenied => "Permission denied (os error 13)"
  | .other reason => reason

/--
What was opened, by what can be read of it.
-/
inductive Opened where
  | text (content : String)
  /-- A directory, or a file that holds no text. -/
  | unreadable
deriving DecidableEq

namespace Path

/--
Paths have to be shorter than this. Lengths are counted in bytes of UTF-8.
-/
def lengthBound : Nat := 4096

/--
The largest length of the names that a path consists of.
-/
def maxNameLength : Nat := 255

/--
Why a path leads nowhere in any tree, if there is a reason for that.
-/
def error? (path : String) : Option OpenError :=
  if '\x00' ∈ path.toList then
    some .nulCharacter
  else if path.isEmpty then
    some .notFound
  else if lengthBound ≤ path.utf8ByteSize then
    some .nameTooLong
  else
    none

/--
The names between the slashes of a path.
-/
def names (path : String) : List String :=
  (path.toList.splitOn '/').map String.ofList

def isAbsolute (path : String) : Bool :=
  path.toList.head? = some '/'

end Path

/--
What stands at a place in a tree.
-/
inductive FileNode where
  | directory
  | file (content : String)
deriving DecidableEq

namespace FileNode

def opened : FileNode → Opened
  | .directory => .unreadable
  | .file content => .text content

end FileNode

/--
A tree of files. Its places are given by the names that lead to them, the innermost of which comes
first. The root, which has no name, is always a directory.
-/
structure FileTree where
  nodes : List (List String × FileNode)
  /-- The place that paths without a leading slash start from. -/
  workingDirectory : List String

namespace FileTree

def nodeAt? (t : FileTree) (place : List String) : Option FileNode :=
  if place.isEmpty then some .directory else t.nodes.lookup place

/--
Follow names from a place. Only directories can be left by a name, which includes the empty name and
the dots that stand for the directory itself and the one around it.
-/
def walk (t : FileTree) (place : List String) (names : List String) : Except OpenError FileNode :=
  match t.nodeAt? place, names with
  | none, _ => .error .notFound
  | some node, [] => .ok node
  | some (.file _), _ :: _ => .error .notDirectory
  | some .directory, name :: names =>
    if name = "" ∨ name = "." then
      t.walk place names
    else if name = ".." then
      t.walk place.tail names
    else if Path.maxNameLength < name.utf8ByteSize then
      .error .nameTooLong
    else
      t.walk (name :: place) names

/--
Open what a path leads to.
-/
def openPath (t : FileTree) (path : String) : Except OpenError Opened :=
  match Path.error? path with
  | some error => .error error
  | none =>
    let start := if Path.isAbsolute path then [] else t.workingDirectory
    (t.walk start (Path.names path)).map FileNode.opened

end FileTree

end SignalBoard
