import TapeMips.Entries
import TapeMips.Files.Path

/-!
# File trees

A tree of files as a program sees it from its working directory: regular files
with their bytes, directories, and links to a device that accepts no data. A
path is followed component by component, so what stops it first decides the
error: a component that is not there, one that is no directory, or a name that
is too long.

The directories above the working directory, and the root, are there and can be
walked through, but nothing in them is: a path that leaves the tree never comes
back.
-/

namespace TapeMips.Files

/-- What a path can lead to. -/
inductive Node where
  | file (content : List UInt8)
  | directory
  /-- A link to a device that can be opened and accepts no data. Whoever reads it
  reads without an end. -/
  | fullDevice
  deriving DecidableEq, Repr

/-- The nodes below the working directory, each under its components. -/
structure Tree where
  nodes : List (List String × Node) := []
  deriving DecidableEq, Repr

/-- Why the system refused a request. -/
inductive SystemError where
  | noSuchFile (path : String)
  | isDirectory (path : String)
  | nameTooLong (path : String)
  | noSpace
  /-- Anything else that a system may complain of, in its own words. -/
  | other (complaint : String)
  deriving DecidableEq, Repr

def SystemError.message : SystemError → String
  | .noSuchFile path => "[Errno 2] No such file or directory: " ++ Text.quoted path
  | .isDirectory path => "[Errno 21] Is a directory: " ++ Text.quoted path
  | .nameTooLong path => "[Errno 36] File name too long: " ++ Text.quoted path
  | .noSpace => "[Errno 28] No space left on device"
  | .other complaint => complaint

/-- The largest number of bytes in one component, on Linux file systems. -/
def maxNameBytes : Nat := 255

/-- The largest number of bytes in a path on Linux, without the zero byte that
ends it. -/
def maxPathBytes : Nat := 4095

namespace Tree

/-- What stands under these components; the working directory stands under none. -/
def node? (t : Tree) (place : List String) : Option Node :=
  if place.isEmpty then some .directory else t.nodes.lookup place

/-- Puts a node in place of what was there. -/
def insert (t : Tree) (place : List String) (node : Node) : Tree :=
  { nodes := Entries.bind t.nodes place node }

/-- Takes a node away. -/
def erase (t : Tree) (place : List String) : Tree :=
  { nodes := Entries.without t.nodes place }

/-- A place to which a path has led. -/
inductive Place where
  /-- In the tree, under these components. -/
  | within (components : List String)
  /-- In a directory above the working directory, or the root. -/
  | outside
  deriving DecidableEq, Repr

/-- What stands at a place. -/
def at? (t : Tree) : Place → Option Node
  | .within components => t.node? components
  | .outside => some .directory

/-- The directory above a place. -/
def Place.parent : Place → Place
  | .within [] | .outside => .outside
  | .within components => .within components.dropLast

/-- Where following a path ends. -/
inductive Walk where
  /-- All directories on the way are there; the last component need not be. -/
  | found (place : Place)
  | absent
  | nameTooLong
  deriving DecidableEq, Repr

/-- Follows components from a directory. -/
def walkFrom (t : Tree) (here : Place) : List String → Walk
  | [] => .found here
  | name :: rest =>
    match t.at? here with
    | some .directory =>
      if name = ".." then t.walkFrom here.parent rest
      else if maxNameBytes < name.utf8ByteSize then .nameTooLong
      else
        match here with
        | .within components => t.walkFrom (.within (components ++ [name])) rest
        | .outside => .absent
    | _ => .absent

/-- Follows a path. -/
def walk (t : Tree) (p : Path) : Walk :=
  if p.text.toList.contains '\x00' then .absent
  else if maxPathBytes < p.text.utf8ByteSize then .nameTooLong
  else t.walkFrom (if p.root = .relative then .within [] else .outside) p.components

/-- What a path leads to, `none` if it leads nowhere. -/
def find (t : Tree) (p : Path) : Except SystemError (Option Node) :=
  match t.walk p with
  | .found place => .ok (t.at? place)
  | .absent => .ok none
  | .nameTooLong => .error (.nameTooLong p.text)

/-- Something stands where a path leads. -/
def exists? (t : Tree) (p : Path) : Except SystemError Bool :=
  (t.find p).map Option.isSome

/-- Opens a file to be written: what it held is gone, and it is made where nothing
was. The answer is its place, and the tree in which it is open. -/
def openToWrite (t : Tree) (p : Path) : Except SystemError (List String × Tree) :=
  match t.walk p with
  | .nameTooLong => .error (.nameTooLong p.text)
  | .absent => .error (.noSuchFile p.text)
  | .found .outside => .error (.isDirectory p.text)
  | .found (.within place) =>
    match t.node? place with
    | some .directory => .error (.isDirectory p.text)
    | some .fullDevice => .ok (place, t)
    | _ => .ok (place, t.insert place (.file []))

/-- Takes a file or a link away. -/
def unlink (t : Tree) (p : Path) : Except SystemError Tree :=
  match t.walk p with
  | .nameTooLong => .error (.nameTooLong p.text)
  | .absent => .error (.noSuchFile p.text)
  | .found .outside => .error (.isDirectory p.text)
  | .found (.within place) =>
    match t.node? place with
    | none => .error (.noSuchFile p.text)
    | some .directory => .error (.isDirectory p.text)
    | some _ => .ok (t.erase place)

end Tree

end TapeMips.Files
