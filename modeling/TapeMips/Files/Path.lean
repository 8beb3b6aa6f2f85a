import TapeMips.Text.Layout
import TapeMips.Text.Quoted

/-!
# Paths

A path is read from text by cutting it at slashes. Empty components and single
dots mean nothing and vanish; double dots are kept, because what they mean
depends on what is there. Whether the path starts at the root is told by the
slashes in front: none, one, or exactly two, which are kept apart from one; any
larger number counts as one.
-/

namespace TapeMips.Files

open Text

/-- Where a path starts. -/
inductive Root where
  | relative
  | slash
  | doubleSlash
  deriving DecidableEq, Repr

def Root.text : Root → String
  | .relative => ""
  | .slash => "/"
  | .doubleSlash => "//"

/-- A path without empty and dot components. -/
structure Path where
  root : Root := .relative
  components : List String
  deriving DecidableEq, Repr

namespace Path

/-- Where a text with these leading slashes starts. -/
def rootOf (cs : List Char) : Root :=
  match (cs.takeWhile (· = '/')).length with
  | 0 => .relative
  | 2 => .doubleSlash
  | _ => .slash

/-- Reads a path. -/
def ofText (text : String) : Path where
  root := rootOf text.toList
  components := ((splitAt '/' text.toList).map String.ofList).filter fun c =>
    c ≠ "" ∧ c ≠ "."

/-- The path as text; a path of nothing is a dot. -/
def text (p : Path) : String :=
  match p.root, p.components with
  | .relative, [] => "."
  | root, components => root.text ++ "/".intercalate components

/-- The last component cut at its last dot: what stands before the dot, and the
suffix that it begins. There is no suffix without something before the dot and
something behind it. -/
def splitSuffix (name : String) : String × String :=
  let fromEnd := name.toList.reverse
  let extension := (fromEnd.takeWhile (· ≠ '.')).reverse
  let stem := ((fromEnd.dropWhile (· ≠ '.')).drop 1).reverse
  if stem.isEmpty || extension.isEmpty then (name, "")
  else (String.ofList stem, String.ofList ('.' :: extension))

/-- The path with the suffix `old` of its last component replaced; `none` if it
has another. -/
def replaceSuffix? (p : Path) (old new : String) : Option Path := do
  let name ← p.components.getLast?
  let (stem, suffix) := splitSuffix name
  guard (suffix = old)
  return { p with components := p.components.dropLast ++ [stem ++ new] }

end Path

/-- The suffix of sources. -/
def sourceSuffix : String := ".bf"

/-- The suffix of compiled programs. -/
def outputSuffix : String := ".asm"

/-- A source was named that does not carry the suffix of sources. -/
structure WrongSuffix where
  path : String
  deriving DecidableEq, Repr

def WrongSuffix.message (e : WrongSuffix) : String :=
  "Source file must end with '" ++ sourceSuffix ++ "': " ++ e.path

/-- Where the program compiled from a source goes: beside it, under its own name
but for the suffix. -/
def outputPath (source : String) : Except WrongSuffix Path :=
  match (Path.ofText source).replaceSuffix? sourceSuffix outputSuffix with
  | some p => .ok p
  | none => .error ⟨source⟩

end TapeMips.Files
