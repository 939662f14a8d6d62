import LuaLint.Text.Split

/-!
# Paths

A path is read from text by its components. Empty components and `.` vanish, so a doubled or a
trailing slash says nothing; `..` stays, because what it means depends on the links before it. A path
is absolute if its text begins with a slash; two slashes and no third are a root of their own.

Paths are compared by their components, one after the other and each by code points. This is not the
order of their texts: `a/b` comes before `a-b`.
-/

namespace LuaLint

/-- A path as it was written. -/
structure Path where
  /-- `/` or `//` for an absolute path, else empty. -/
  root : String := ""
  parts : List String := []
deriving Repr, DecidableEq

namespace Path

/-- How many slashes a text begins with count as the root. -/
def rootOf : List Char → String
  | '/' :: '/' :: '/' :: _ => "/"
  | '/' :: '/' :: _ => "//"
  | '/' :: _ => "/"
  | _ => ""

/-- The path that a text writes. -/
def ofText (text : String) : Path :=
  { root := rootOf text.toList
    parts := ((Text.split '/' text.toList).map String.ofList).filter fun part =>
      part != "" && part != "." }

/-- The steps that the text of a link asks for. Other than in a path, `.` counts as a step, and a slash at
the end counts as one more: nothing but a directory allows for either. -/
def stepsOfText (text : String) : List String :=
  let parts := Text.split '/' text.toList
  (parts.filter (!·.isEmpty)).map String.ofList ++ match parts.getLast? with
    | some [] => ["."]
    | _ => []

/-- The text of a path. -/
def text (p : Path) : String :=
  if p.root = "" && p.parts.isEmpty then "." else p.root ++ String.intercalate "/" p.parts

/-- The path does not depend on the working directory. -/
def isAbsolute (p : Path) : Bool := p.root != ""

/-- The path of something below the directory. -/
def below (p : Path) (parts : List String) : Path := { p with parts := p.parts ++ parts }

/-- The absolute path with the given components. -/
def absolute (parts : List String) : Path := ⟨"/", parts⟩

/-- The path and those that its text shows to be above it, nearest first. -/
def upward (p : Path) : List Path :=
  (List.range (p.parts.length + 1)).map fun n => { p with parts := p.parts.take (p.parts.length - n) }

/-- The order of paths. -/
def le (p q : Path) : Bool := !q.parts.lex p.parts fun a b => decide (a < b)

end Path

end LuaLint
