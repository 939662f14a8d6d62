import LuaLint.Files.Path
import LuaLint.Table
import LuaLint.Text.Quoted

/-!
# Files, directories and links

The files that the program sees are data: a tree of entries and a working directory. An entry is a file
with its bytes, a link with the text of its target, or a directory.

A path is followed in two ways. `Disk.follow` follows it as an access does: everything before a slash
has to be a directory that is there, no more than `linkLimit` links are followed, and the answer is a
location that exists, or the reason why there is none. `Disk.canonical` names the location that the path
means without asking whether it is there: links are followed where there are any, and `..` takes back one
component, also one that is missing. **The two differ only on paths that cannot be accessed.**
-/

namespace LuaLint

/-- What a name in a directory stands for. -/
inductive Entry
  | file (content : List UInt8)
  | link (target : String)
  | directory (members : List (String × Entry))
deriving Repr, Inhabited

/-- Components from the root down. Nothing in a location is a link or `..`, unless it is missing. -/
abbrev Location := List String

/-- Files and a working directory. -/
structure Disk where
  /-- The members of the root directory. -/
  root : List (String × Entry) := []
  cwd : Location := []
deriving Repr

/-- Why a file cannot be read. -/
inductive FileError
  | notFound
  | notADirectory
  | isADirectory
  | tooManyLinks
deriving Repr, DecidableEq

/-- The number and the wording of the reason. -/
def FileError.message (path : Path) (e : FileError) : String :=
  let (number, reason) := match e with
    | notFound => (2, "No such file or directory")
    | notADirectory => (20, "Not a directory")
    | isADirectory => (21, "Is a directory")
    | tooManyLinks => (40, "Too many levels of symbolic links")
  s!"[Errno {number}] {reason}: " ++ Text.quoted path.text

/-! ## Entries by location -/

/-- The entry below another one. -/
def Entry.at? : Entry → Location → Option Entry
  | e, [] => some e
  | .directory members, name :: rest => match Table.get? members name with
    | some e => e.at? rest
    | none => none
  | _, _ :: _ => none

mutual

/-- How many links there are below an entry, with the entry itself. -/
def Entry.links : Entry → Nat
  | .file _ => 0
  | .link _ => 1
  | .directory members => linksAmong members

/-- The same for all members of a directory. -/
def Entry.linksAmong : List (String × Entry) → Nat
  | [] => 0
  | (_, e) :: rest => e.links + linksAmong rest

end

/-- The entry below another one is replaced by what `f` makes of it. Directories on the way are made
where they are missing. -/
def Entry.alter (f : Option Entry → Entry) : Location → Option Entry → Entry
  | [], e => f e
  | name :: rest, some (.directory members) =>
    .directory (Table.put name (alter f rest (Table.get? members name)) members)
  | name :: rest, _ => .directory [(name, alter f rest none)]

/-- The entry without the one at a location below it. -/
def Entry.without : Location → Entry → Entry
  | [name], .directory members => .directory (members.filter (·.1 != name))
  | name :: rest, .directory members => match Table.get? members name with
    | some e => .directory (Table.put name (without rest e) members)
    | none => .directory members
  | _, e => e

namespace Disk

/-- How many links an access follows before it gives up. -/
def linkLimit : Nat := 40

/-- The entry at a location. -/
def at? (d : Disk) (l : Location) : Option Entry := (Entry.directory d.root).at? l

/-- Where a path begins. -/
def origin (d : Disk) (p : Path) : Location := if p.isAbsolute then [] else d.cwd

/-- Where the steps of a link in the directory at `here` begin. -/
def linkOrigin (here : Location) (target : String) : Location :=
  bif (Path.ofText target).isAbsolute then [] else here

/-! ## Following a path -/

/-- The location that components lead to from `here`, following at most `links` links. -/
def followFrom (d : Disk) (links : Nat) (here : Location) :
    List String → Except FileError Location
  | [] => .ok here
  | name :: rest => match d.at? here with
    | some (.directory members) =>
      if name = "." then followFrom d links here rest
      else if name = ".." then followFrom d links here.dropLast rest
      else match Table.get? members name with
        | none => .error .notFound
        | some (.link target) => match links with
          | 0 => .error .tooManyLinks
          | links + 1 =>
            followFrom d links (linkOrigin here target) (Path.stepsOfText target ++ rest)
        | some _ => followFrom d links (here ++ [name]) rest
    | some _ => .error .notADirectory
    | none => .error .notFound
termination_by parts => (links, parts.length)

/-- The location that a path leads to. -/
def follow (d : Disk) (p : Path) : Except FileError Location :=
  d.followFrom linkLimit (d.origin p) p.parts

/-- The entry that a path leads to, which is no link. -/
def entry (d : Disk) (p : Path) : Except FileError Entry := do
  match d.at? (← d.follow p) with
  | some e => return e
  | none => throw .notFound

/-- The path leads to a file. -/
def isFile (d : Disk) (p : Path) : Bool :=
  match d.entry p with
  | .ok (.file _) => true
  | _ => false

/-- The path leads to a directory. -/
def isDirectory (d : Disk) (p : Path) : Bool :=
  match d.entry p with
  | .ok (.directory _) => true
  | _ => false

/-- The bytes of the file that a path leads to. -/
def read (d : Disk) (p : Path) : Except FileError (List UInt8) := do
  match ← d.entry p with
  | .file content => return content
  | .directory _ => throw .isADirectory
  | .link _ => throw .tooManyLinks

/-! ## The meaning of a path -/

/-- The location that components mean from `here`. The target of a link is resolved before what comes after
the link, and in it the targets of other links, at most `depth` inside one another. -/
def canonicalFrom (d : Disk) (depth : Nat) (here : Location) : List String → Location
  | [] => here
  | name :: rest =>
    if name = "." then canonicalFrom d depth here rest
    else if name = ".." then canonicalFrom d depth here.dropLast rest
    else match d.at? (here ++ [name]) with
      | some (.link target) => match depth with
        | 0 => here ++ name :: rest
        | depth + 1 =>
          let reached := canonicalFrom d depth (linkOrigin here target) (Path.stepsOfText target)
          canonicalFrom d (depth + 1) reached rest
      | _ => canonicalFrom d depth (here ++ [name]) rest
termination_by parts => (depth, parts.length)

/-- A depth that no path reaches, unless links lead round in a circle: more links than there are. -/
def linkDepth (d : Disk) : Nat := linkLimit + (Entry.directory d.root).links

/-- The location that a path means. -/
def canonical (d : Disk) (p : Path) : Location :=
  d.canonicalFrom d.linkDepth (d.origin p) p.parts

/-! ## Changes -/

/-- The members of an entry that is a directory. -/
def members : Entry → List (String × Entry)
  | .directory members => members
  | _ => []

/-- The disk with the entry at a location replaced. -/
def alter (f : Option Entry → Entry) (l : Location) (d : Disk) : Disk :=
  { d with root := members (Entry.alter f l (some (.directory d.root))) }

/-- Writes a file, through links if need be. Missing directories are made. -/
def write (p : Path) (content : List UInt8) (d : Disk) : Disk :=
  d.alter (fun _ => .file content) (d.canonical p)

/-- Makes a directory and those above it, as far as they are missing. -/
def makeDirectory (p : Path) (d : Disk) : Disk :=
  d.alter (fun e => match e with
    | some (.directory members) => .directory members
    | _ => .directory []) (d.canonical p)

/-- The location of a path's last component itself, even if it is a link. -/
def location (d : Disk) (p : Path) : Location :=
  match p.parts.getLast? with
  | none => d.canonical p
  | some name => d.canonical { p with parts := p.parts.dropLast } ++ [name]

/-- Makes a link. -/
def link (p : Path) (target : String) (d : Disk) : Disk :=
  d.alter (fun _ => .link target) (d.location p)

/-- Removes a file, a link, or a directory with all that is in it. -/
def remove (p : Path) (d : Disk) : Disk :=
  { d with root := members ((Entry.directory d.root).without (d.location p)) }

/-- Goes to the directory that a path leads to. -/
def enter (p : Path) (d : Disk) : Disk := { d with cwd := d.canonical p }

end Disk

end LuaLint
