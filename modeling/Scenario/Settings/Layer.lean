import Scenario.Json.Reader
import Scenario.Text.Blank
import Scenario.Text.LowerCase

/-!
# Configuration layers

A configuration is a tree of settings to which layers are added one after the other: the members
of a configuration file, then the variables of the environment. Names are compared in lower case.
A table added to a table is merged name by name; anything else replaces what was there.

## Scope

A configuration file is a JSON object. Other formats, the search for a file by its name without an
ending, and a file of variables that is added to the environment first are left out: the content of
the file and the variables are given.
-/

namespace Scenario.Settings

/-- A setting. -/
inductive Setting where
  /-- Nothing. -/
  | nil
  /-- A truth value. -/
  | bool (b : Bool)
  /-- An integer. -/
  | int (n : Int)
  /-- Any other number. -/
  | real (x : Number)
  /-- A text. -/
  | text (s : String)
  /-- A list of settings. -/
  | list (items : List Setting)
  /-- Settings by name. -/
  | table (entries : List (String × Setting))
  deriving Inhabited

namespace Setting

/-- The settings of a table; anything else has none. -/
def entries : Setting → List (String × Setting)
  | table es => es
  | _ => []

/-- The setting under a name. -/
def get? (s : Setting) (name : String) : Option Setting := List.lookup name s.entries

/-- Puts a setting under a name. -/
def put : List (String × Setting) → String → Setting → List (String × Setting)
  | [], k, v => [(k, v)]
  | (k', v') :: es, k, v => if k' = k then (k', v) :: es else (k', v') :: put es k v

mutual

/-- Adds a setting under a name of a table. What is no table becomes one. -/
def add (root : Setting) (name : String) : Setting → Setting
  | table incoming =>
    table (put root.entries name (addAll ((root.get? name).getD (table [])) incoming))
  | v => table (put root.entries name v)

/-- Adds settings by name to a table. -/
def addAll (root : Setting) : List (String × Setting) → Setting
  | [] => root
  | (k, v) :: rest => addAll (root.add k v) rest

end

/-- Adds a setting at the end of a path of names. -/
def addAt (root : Setting) (path : List String) (v : Setting) : Setting :=
  match path with
  | [] => root
  | [name] => root.add name v
  | name :: rest => table (put root.entries name (addAt ((root.get? name).getD (table [])) rest v))

/-- A character of a name in a path. -/
def isPathChar (c : Char) : Bool := c.isAlphanum || c = '_' || c = '-' || c = ' '

/-- The path that a name with points in it stands for; any other name stands for itself. -/
def pathOf (key : String) : List String :=
  let parts := key.splitOn "."
  if parts.all fun p => !p.isEmpty && p.toList.all isPathChar then parts else [key]

/-- Whether an integer fits in a signed word of 64 bits. -/
def isWord (n : Int) : Bool := -9223372036854775808 ≤ n && n ≤ 9223372036854775807

/-- The number of a JSON number. -/
def ofNumeral : Json.Numeral → Setting
  | .integer n => if isWord n then int n else real (Number.ofInt n)
  | .real x => real x

mutual

/-- The setting of a JSON document. Names are put in lower case; of names that then coincide the
one that sorts last counts. -/
def ofDoc : Json.Doc → Setting
  | .null => nil
  | .bool b => bool b
  | .num n => ofNumeral n
  | .str s => text s
  | .list items => list (ofDocs items)
  | .object members =>
    let ordered := (ofMembers members).mergeSort fun a b => a.1 ≤ b.1
    table (ordered.foldl (fun es e => put es (Text.lower e.1) e.2) [])

/-- The settings of documents. -/
def ofDocs : List Json.Doc → List Setting
  | [] => []
  | d :: ds => ofDoc d :: ofDocs ds

/-- The settings of named documents. -/
def ofMembers : List (String × Json.Doc) → List (String × Setting)
  | [] => []
  | (k, d) :: ds => (k, ofDoc d) :: ofMembers ds

end

/-- A text without the byte order mark at its front. -/
def withoutMark (s : String) : String :=
  match s.toList with
  | c :: cs => if c.toNat = 0xFEFF then String.ofList cs else s
  | [] => s

/-- The settings of a configuration file: a JSON object. -/
def ofFile? (content : String) : Option (List (String × Setting)) :=
  match Json.Doc.ofString? (withoutMark content) with
  | some (.object members) => some (ofDoc (.object members)).entries
  | _ => none

/-- The integer of 64 bits that a text writes, with an optional sign. -/
def intOf? (s : String) : Option Int :=
  let (negative, ds) := match s.toList with
    | '-' :: r => (true, r)
    | '+' :: r => (false, r)
    | r => (false, r)
  if ds.isEmpty || !ds.all Char.isDigit then none
  else
    let n : Int := Number.digitsValue ds
    let n := if negative then -n else n
    if isWord n then some n else none

/-- What every variable of the environment begins with, in lower case. -/
def variableStem : String := "tagflow_"

/-- The names whose variables hold lists separated by commas. -/
def listNames : List String := ["resource_dirs"]

/-- The setting that the text of a variable stands for: a truth value, a number, a list for the
names that take one, or a text. -/
def ofVariable (key value : String) : Setting :=
  if Text.lower value = "true" then bool true
  else if Text.lower value = "false" then bool false
  else match intOf? value with
    | some n => int n
    | none =>
      match Number.ofString? value with
      | some x => real x
      | none => if listNames.contains key then list ((value.splitOn ",").map text) else text value

/-- The name and setting of a variable that belongs to the configuration. Two underscores in a
variable's name stand for a point. -/
def ofVariablePair? (v : String × String) : Option (String × Setting) :=
  let name := Text.lower v.1
  if variableStem.toList.isPrefixOf name.toList then
    let key := ".".intercalate
      ((String.ofList (name.toList.drop variableStem.length)).splitOn "__")
    some (key, ofVariable key v.2)
  else none

/-- Adds a layer of settings. Names with points in them are paths. -/
def addLayer (root : Setting) (layer : List (String × Setting)) : Setting :=
  layer.foldl (fun root e => root.addAt (pathOf e.1) e.2) root

/-- The settings of the environment; of variables with one name the last one counts. -/
def ofEnvironment (vars : List (String × String)) : List (String × Setting) :=
  (vars.filterMap ofVariablePair?).foldl (fun es e => put es e.1 e.2) []

end Setting

end Scenario.Settings
