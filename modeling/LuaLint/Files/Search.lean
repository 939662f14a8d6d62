import LuaLint.Files.Disk

/-!
# The files to check

Paths on the command line are expanded to the list of files to check. A path that leads to a directory
stands for every entry below it whose name ends in `.lua`, at any depth and of any kind; links to
directories are not entered, though the path itself may be one. **Entries are skipped by their path as
it is written**: any component that names a directory of tools or build products drops the entry, also
one that was already in the path on the command line. The entries of a directory come in the order of
paths. Any other path stands for itself.

Of several paths that mean the same location only the first is kept.
-/

namespace LuaLint

/-- Names of directories that hold no code of the project. -/
def skippedNames : List String :=
  [".git", ".luarocks", "lua_modules", "node_modules", "build", "dist"]

/-- The name of a Lua file. -/
def isLuaName (name : String) : Bool := ".lua".toList.isSuffixOf name.toList

mutual

/-- The entries below another one whose names are those of Lua files, as components from it. -/
def Entry.luaBelow : Entry → List (List String)
  | .directory members => luaAmong members
  | _ => []

/-- The same below a directory with the given members. -/
def Entry.luaAmong : List (String × Entry) → List (List String)
  | [] => []
  | (name, e) :: rest =>
    (if isLuaName name then [[name]] else []) ++ e.luaBelow.map (name :: ·) ++ luaAmong rest

end

namespace Disk

/-- The path has a component that is never looked into. -/
def isSkipped (p : Path) : Bool := p.parts.any skippedNames.contains

/-- The Lua files below a directory. -/
def luaFiles (d : Disk) (p : Path) : List Path :=
  match d.entry p with
  | .ok e => ((e.luaBelow.map p.below).filter (!isSkipped ·)).mergeSort Path.le
  | .error _ => []

/-- What a path on the command line stands for. -/
def expand (d : Disk) (p : Path) : List Path :=
  if d.isDirectory p then d.luaFiles p else [p]

/-- The items whose keys have not come up before, where `seen` are the keys that have. -/
def firstsBy {α β : Type} [BEq β] (key : α → β) (seen : List β) : List α → List α
  | [] => []
  | a :: rest =>
    if seen.contains (key a) then firstsBy key seen rest
    else a :: firstsBy key (key a :: seen) rest

/-- The files to check for the paths of a command line. -/
def filesToCheck (d : Disk) (paths : List Path) : List Path :=
  firstsBy d.canonical [] (paths.flatMap d.expand)

end Disk

end LuaLint
