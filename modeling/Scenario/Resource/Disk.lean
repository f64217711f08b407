/-!
# Files

The part of a file system that resources see: regular files with their content and time of change,
and directories. A path is a list of names joined by slashes; `.` stays where it is and `..` goes
one up.
-/

namespace Scenario

/-- A moment. Stamps are only compared with stamps of the same resource, so the unit matters only
where one is computed from another, in `Document.tick`. -/
abbrev Stamp := Int

/-- A path reduced to the names on it. -/
abbrev DiskPath := List String

/-- A regular file. -/
structure DiskFile where
  /-- Its content. -/
  content : String
  /-- When it was changed last. -/
  modified : Stamp
  deriving DecidableEq, Inhabited

/-- What a path leads to. -/
inductive DiskEntry where
  /-- A regular file. -/
  | file (f : DiskFile)
  /-- A directory and when it was changed last. -/
  | directory (modified : Stamp)
  deriving DecidableEq

/-- When what a path leads to was changed last. -/
def DiskEntry.modified : DiskEntry → Stamp
  | file f => f.modified
  | directory stamp => stamp

/-- Why a path could not be used. -/
inductive DiskError where
  /-- Nothing is there. -/
  | notFound
  /-- A directory is there. -/
  | isDirectory
  /-- A regular file stands where a directory is needed. -/
  | notDirectory
  deriving DecidableEq

/-- The text of a failed access. -/
def DiskError.message : DiskError → String
  | notFound => "No such file or directory (os error 2)"
  | isDirectory => "Is a directory (os error 21)"
  | notDirectory => "Not a directory (os error 20)"

/-- Files and directories. -/
structure Disk where
  /-- What stands at each path. -/
  entries : List (DiskPath × DiskEntry) := []
  deriving Inhabited

namespace Disk

/-- One name further on a path. -/
def step (path : DiskPath) (name : String) : DiskPath :=
  if name = "" || name = "." then path else if name = ".." then path.dropLast else path ++ [name]

/-- The names on a path. -/
def resolve (path : String) : DiskPath := (path.splitOn "/").foldl step []

/-- What stands at a path. -/
def entry? (d : Disk) (path : DiskPath) : Option DiskEntry := List.lookup path d.entries

/-- Every path that leads to a path, itself apart, shortest first. -/
def parents (path : DiskPath) : List DiskPath :=
  (List.range path.length).map fun n => path.take n

/-- What a path leads to, or why it leads nowhere. -/
def find (d : Disk) (path : DiskPath) : Except DiskError DiskEntry :=
  match d.entry? path with
  | some e => .ok e
  | none =>
    let blocked := (parents path).any fun p =>
      match d.entry? p with
      | some (.file _) => true
      | _ => false
    .error (if blocked then .notDirectory else .notFound)

/-- Puts an entry at a path, in place of what was there. -/
def put (d : Disk) (path : DiskPath) (e : DiskEntry) : Disk :=
  ⟨(d.entries.filter fun x => x.1 != path) ++ [(path, e)]⟩

/-- Makes a directory and those on the way to it. -/
def makeDirectory (d : Disk) (path : DiskPath) : Disk :=
  (parents path ++ [path]).foldl
    (fun d p => if (d.entry? p).isSome then d else d.put p (.directory 0)) d

/-- Writes a file, with the directories on the way to it. -/
def write (d : Disk) (path : String) (f : DiskFile) : Disk :=
  (d.makeDirectory (resolve path).dropLast).put (resolve path) (.file f)

/-- Removes a file. -/
def remove (d : Disk) (path : String) : Disk :=
  ⟨d.entries.filter fun x => x.1 != resolve path⟩

/-- The regular file at a path. -/
def file? (d : Disk) (path : String) : Option DiskFile :=
  match d.entry? (resolve path) with
  | some (.file f) => some f
  | _ => none

/-- When what stands at a path was changed last. -/
def modified? (d : Disk) (path : String) : Option Stamp :=
  (d.entry? (resolve path)).map DiskEntry.modified

/-- The content of the regular file at a path. -/
def read (d : Disk) (path : String) : Except DiskError String := do
  match ← d.find (resolve path) with
  | .file f => return f.content
  | .directory _ => throw .isDirectory

/-- The names of the regular files in a directory, in order. -/
def filesIn (d : Disk) (dir : String) : Except DiskError (List String) := do
  match ← d.find (resolve dir) with
  | .file _ => throw .notDirectory
  | .directory _ =>
    let here := d.entries.filterMap fun (p, e) =>
      match e with
      | .file _ => if p.dropLast = resolve dir then p.getLast? else none
      | .directory _ => none
    return here.mergeSort fun a b => a ≤ b

end Disk

/-- A file name without its last extension. A point in front begins no extension. -/
def fileStem (name : String) : String :=
  let cs := name.toList.reverse
  match cs.dropWhile (· != '.') with
  | [] | [_] => name
  | _ :: stem => String.ofList stem.reverse

/-- The last extension of a file name. A point in front begins no extension. -/
def fileExtension? (name : String) : Option String :=
  let cs := name.toList.reverse
  match cs.dropWhile (· != '.') with
  | [] | [_] => none
  | _ => some (String.ofList (cs.takeWhile (· != '.')).reverse)

/-- The name of the last entry on a path, if it has one. -/
def fileName? (path : String) : Option String :=
  ((path.splitOn "/").filter fun n => n != "" && n != ".").getLast?.filter (· != "..")

/-- A path with a name put after it. -/
def joinPath (dir name : String) : String :=
  if name.toList.head? = some '/' then name
  else if dir.isEmpty || dir.toList.getLast? = some '/' then dir ++ name
  else dir ++ "/" ++ name

end Scenario
