import Scenario.Resource.Disk

/-!
# Resources

A resource is a named document that can be read. Its identity is its path: two handles with one
path stand for one resource. The content lives elsewhere, in a document held in memory or in a file,
so it can change behind a handle.
-/

namespace Scenario

/-- A document held in memory. -/
inductive Document where
  /-- A document edited in place. Deleting it takes the content away and leaves the stamp. -/
  | memory (content : Option String) (stamp : Stamp)
  /-- A document whose owner states separately whether it exists and when it was changed. -/
  | custom (content : Option String) (present : Bool) (modified : Option Stamp)
  deriving DecidableEq, Inhabited

namespace Document

/-- What an edit adds to the last stamp when the clock shows nothing later: one millisecond, in
nanoseconds. -/
def tick : Stamp := 1000000

/-- The stamp of an edit: the time on the clock, in nanoseconds, if that is later than the last
stamp, otherwise one tick after it. -/
def nextStamp (previous now : Stamp) : Stamp := if previous < now then now else previous + tick

/-- Gives a document in memory another content. -/
def setContent (now : Stamp) (content : String) : Document → Document
  | memory _ stamp => memory (some content) (nextStamp stamp now)
  | d => d

/-- Marks a document in memory as changed. -/
def touch (now : Stamp) : Document → Document
  | memory content stamp => memory content (nextStamp stamp now)
  | d => d

/-- Deletes a document in memory. -/
def delete : Document → Document
  | memory _ stamp => memory none stamp
  | d => d

/-- Whether there is a document. -/
def present : Document → Bool
  | memory content _ => content.isSome
  | custom _ present _ => present

/-- When the document was changed, if that is known. -/
def modified : Document → Option Stamp
  | memory content stamp => content.map fun _ => stamp
  | custom _ _ modified => modified

end Document

/-- Where the content of a resource lives. -/
inductive Source where
  /-- In a document held in memory. -/
  | stored (key : Nat)
  /-- In a file. -/
  | file (path : String)
  deriving DecidableEq

/-- A handle to a named document. -/
structure Resource where
  /-- The name under which documents refer to it. -/
  name : String
  /-- The path, which begins with the kind of the resource. -/
  path : String
  /-- Whether what is parsed from it may be kept. -/
  cacheable : Bool := true
  /-- Where its content lives. -/
  source : Source
  deriving DecidableEq

/-- The handle of a file. -/
def Resource.ofFile (file : String) : Resource where
  name := ((fileName? file).map fileStem).getD ""
  path := "file:" ++ file
  source := .file file

/-- The contents of all resources. -/
structure Storage where
  /-- The documents held in memory, by key. -/
  documents : Array Document := #[]
  /-- The files. -/
  disk : Disk := {}
  deriving Inhabited

namespace Storage

/-- The document behind a handle. -/
def document? (s : Storage) (r : Resource) : Option Document :=
  match r.source with
  | .stored key => s.documents[key]?
  | .file _ => none

/-- Adds a document held in memory. -/
def add (s : Storage) (d : Document) : Storage × Nat :=
  ({ s with documents := s.documents.push d }, s.documents.size)

/-- Changes the document behind a handle. -/
def edit (s : Storage) (r : Resource) (f : Document → Document) : Storage :=
  match r.source with
  | .stored key => { s with documents := s.documents.modify key f }
  | .file _ => s

/-- Whether the document of a resource exists. -/
def isPresent (s : Storage) (r : Resource) : Bool :=
  match r.source with
  | .stored key => (s.documents[key]?.map Document.present).getD false
  | .file path => (s.disk.file? path).isSome

/-- When the document of a resource was changed, if that is known. -/
def modified (s : Storage) (r : Resource) : Option Stamp :=
  match r.source with
  | .stored key => s.documents[key]?.bind Document.modified
  | .file path => s.disk.modified? path

/-- The content of a resource, or the text of the failure to read it. -/
def read (s : Storage) (r : Resource) : Except String String :=
  match r.source with
  | .stored key =>
    match s.documents[key]? with
    | some (.memory (some content) _) | some (.custom (some content) _ _) => .ok content
    | some (.custom none _ _) => .error "custom resource has no content"
    | _ => .error s!"{r.path} was deleted"
  | .file path => (s.disk.read path).mapError DiskError.message

end Storage

/-- Resources by name, in the order of their first registration. -/
abbrev Locator := List (String × Resource)

namespace Locator

/-- The resource registered under a name. -/
def get? (l : Locator) (name : String) : Option Resource := List.lookup name l

/-- The registered names, in order. -/
def names (l : Locator) : List String := l.map Prod.fst

/-- Registers a resource. One of the same name is replaced and keeps its place. -/
def insert : Locator → Resource → Locator
  | [], r => [(r.name, r)]
  | (n, r') :: l, r => if n = r.name then (n, r) :: l else (n, r') :: insert l r

end Locator

end Scenario
