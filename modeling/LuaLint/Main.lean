import LuaLint.Command.Run
import LuaLint.Lua.Tree

/-!
# The program

A run is a function of a `Disk`, so the program first reads the part of the file system that the run can
look at, then runs, and then prints.

It runs on the parser of this library, with the limits that the interpreter sets by default.

**What is read**: the entries that the paths on the command line lead to, with the Lua files below those
that are directories; and the files of settings in the working directory and above it. A link is kept as
a link, to the place where it leads in the end. What cannot be read counts as missing.
-/

namespace LuaLint

/-! ## Reading the disk -/

/-- What an action gives, if it does not fail. -/
def attempt {α : Type} (action : IO α) : IO (Option α) := do
  try return some (← action)
  catch _ => return none

/-- The text of a location. -/
def Location.text (l : Location) : String := (Path.absolute l).text

/-- Where a path leads, if anywhere. -/
def realLocation? (text : String) : IO (Option Location) := do
  return (← attempt (IO.FS.realPath text)).map fun p => (Path.ofText (toString p)).parts

/-- The names in a directory; `none` if there is no directory. -/
def namesAt? (l : Location) : IO (Option (List String)) := do
  attempt do return (← (← IO.FS.realPath l.text).readDir).toList.map (·.fileName)

namespace Disk

/-- Takes what is at a location. A directory is taken without its members. -/
def takeAt (d : Disk) (l : Location) : IO Disk := do
  let p := Path.absolute l
  if (← namesAt? l).isSome then return d.makeDirectory p
  match ← attempt (IO.FS.readBinFile l.text) with
  | some bytes => return d.write p bytes.toList
  | none => return d

/-- Takes a link and what it leads to. No name has a NUL in it, so a link to such a name leads nowhere, and
to another nowhere than any other link. -/
def takeLink (d : Disk) (p : Path) : Option Location → IO Disk
  | some target => do (d.link p target.text).takeAt target
  | none => return d.link p (p.text ++ "\x00")

/-- Takes what is at the end of a path whose directories have been taken. -/
def takeEntry (d : Disk) (p : Path) : IO Disk := do
  let here := d.location p
  match ← realLocation? p.text with
  | some real =>
    if p.parts.getLast? = some ".." || real = here then d.takeAt real else d.takeLink p real
  | none => return d

/-- Takes a path: its directories, links among them, and what it leads to. -/
def takePath (d : Disk) (p : Path) : IO Disk := p.upward.reverse.foldlM takeEntry d

/-- Takes the Lua files below a directory, links among them. Directories without code of the project
are passed over. -/
partial def takeBelow (d : Disk) (l : Location) : IO Disk := do
  let mut d := d
  for name in (← namesAt? l).getD [] do
    let member := l ++ [name]
    let real ← realLocation? member.text
    if real != some member then
      if isLuaName name then d ← d.takeLink (.absolute member) real
    else if (← namesAt? member).isSome then
      d ← d.takeAt member
      if !skippedNames.contains name then d ← d.takeBelow member
    else if isLuaName name then d ← d.takeAt member
  return d

/-- Takes what a run for the given paths can look at. -/
def ofFileSystem (paths : List Path) : IO Disk := do
  let cwd := (← realLocation? ".").getD []
  let mut d : Disk := ({ cwd } : Disk).makeDirectory (.absolute cwd)
  for directory in (Path.absolute cwd).upward do
    d ← d.takePath (directory.below [Settings.fileName])
  for p in paths do
    d ← d.takePath p
    match d.follow p with
    | .ok l => d ← d.takeBelow l
    | .error _ => pure ()
  return d

end Disk

/-! ## Running and printing -/

/-- How the program is called. -/
def usageText : String :=
  "usage: lualint [--verbose | -v] check [--deny-warnings] <path>..."

/-- What the program runs on here. -/
def standardHost : Command.Host := { parser := Lua.parser }

/-- A record of the log as it is printed. One without a wording ends the run before it is written. -/
def wording (e : LogEvent) : String := (e.fullLine standardHost.limits).toOption.getD ""

/-- Prints what a run wrote, in its order. -/
def printWritten (l : Logger NumberedSinks) (written : List Command.Message) : IO Unit :=
  written.forM fun m => do
    (Command.standardOutput [m]).forM (IO.println ·)
    (Command.standardError LogLibrary.numbered wording l [m]).forM (IO.eprintln ·)

end LuaLint

open LuaLint in
/-- Runs the command line on the files that are there. -/
def main (args : List String) : IO UInt32 := do
  let line := Command.Line.ofArgs args
  let disk ← Disk.ofFileSystem (line.paths.map Path.ofText)
  let logger := Logger.start LogLibrary.numbered .initial
  match Command.run LogLibrary.numbered standardHost disk Registry.standard logger line with
  | (_, .usage code) =>
    IO.eprintln usageText
    return code.toUInt32
  | (logger, .exit code written) =>
    printWritten logger written
    return code.toUInt32
  | (logger, .crash reason written) =>
    printWritten logger written
    IO.eprintln ("error: " ++ reason.message)
    return 1
