import Scenario.Settings.Layer

/-!
# Settings

The settings of an engine and how they are read from a configuration: a setting of another type is
converted where that makes sense, and refused otherwise. Unknown names are ignored.
-/

namespace Scenario

/-- The settings of an engine. -/
structure Settings where
  /-- Directories whose documents are registered when the engine is built. -/
  resourceDirs : List String := []
  /-- Whether beans refuse parameters that are no fields. -/
  strictParameters : Bool := true
  /-- Whether parsed entities are kept between calls. -/
  cacheEntities : Bool := true
  /-- How long a mutex waits, in milliseconds. -/
  mutexTimeoutMs : Nat := 120000
  /-- Texts bound in the root scope of every run. -/
  properties : List (String × String) := []
  /-- Which log records are shown. -/
  logFilter : String := "info"
  deriving DecidableEq, Inhabited

namespace Settings

/-- Why settings could not be read. -/
inductive LoadError where
  /-- The file is missing or is no configuration. -/
  | file
  /-- A setting has the wrong type. -/
  | invalid
  deriving DecidableEq

/-- The text of a failure to read settings. -/
def LoadError.message : LoadError → String
  | file => "Failed to load configuration"
  | invalid => "Invalid configuration"

/-- The truth value that a text spells. -/
def spelledBool? (s : String) : Option Bool :=
  let s := Text.lower s
  if ["true", "on", "yes"].contains s then some true
  else if ["false", "off", "no"].contains s then some false
  else none

namespace Setting

/-- The setting as a truth value. -/
def toBool? : Setting → Option Bool
  | bool b => some b
  | int n => some (n != 0)
  | real x => some !x.isZero
  | text s => if s = "1" then some true else if s = "0" then some false else spelledBool? s
  | _ => none

/-- The setting as a text. -/
def toText? : Setting → Option String
  | text s => some s
  | bool b => some (if b then "true" else "false")
  | int n => some (toString n)
  | real x => some (Number.Layout.shown.write x)
  | _ => none

/-- A number rounded to the nearest natural number of 64 bits, a half away from zero. -/
def roundNat (x : Number) : Nat :=
  if x.isNaN || (x.isNegative && !x.isZero) then 0
  else if !x.isFinite then Nat.pow 2 64 - 1
  else
    let (num, den) := x.toRatio
    min ((2 * num + den) / (2 * den)) (Nat.pow 2 64 - 1)

/-- The natural number of 64 bits that a text writes, with an optional plus sign. -/
def natOf? (s : String) : Option Nat :=
  let ds := match s.toList with
    | '+' :: r => r
    | r => r
  if ds.isEmpty || !ds.all Char.isDigit then none
  else
    let n := Number.digitsValue ds
    if n < Nat.pow 2 64 then some n else none

/-- The setting as a natural number. -/
def toNat? : Setting → Option Nat
  | int n => if 0 ≤ n then some n.toNat else none
  | bool b => some b.toNat
  | real x => some (roundNat x)
  | text s =>
    match spelledBool? s with
    | some b => some b.toNat
    | none => natOf? s
  | _ => none

/-- The setting as a list of texts. -/
def toTexts? : Setting → Option (List String)
  | list items => items.mapM toText?
  | _ => none

/-- The setting as texts by name. -/
def toTextTable? : Setting → Option (List (String × String))
  | table es => es.mapM fun e => e.2.toText?.map fun t => (e.1, t)
  | _ => none

/-- A setting read by `f`, or the default when there is none under its name. -/
def read {α : Type} (root : Setting) (name : String) (f : Setting → Option α) (dflt : α) :
    Except LoadError α :=
  match root.get? name with
  | none => .ok dflt
  | some s =>
    match f s with
    | some a => .ok a
    | none => .error .invalid

end Setting

/-- Puts a text under a name: a present name keeps its place, a new one goes to the end. -/
def putProperty : List (String × String) → String → String → List (String × String)
  | [], k, v => [(k, v)]
  | (k', v') :: ps, k, v => if k' = k then (k', v) :: ps else (k', v') :: putProperty ps k v

/-- The properties with others put over them. -/
def overlay (ps : List (String × String)) (top : List (String × String)) :
    List (String × String) :=
  top.foldl (fun ps p => putProperty ps p.1 p.2) ps

/-- The settings that a configuration holds. -/
def ofSetting (root : Setting) : Except LoadError Settings := do
  let d : Settings := {}
  return {
    resourceDirs := ← root.read "resource_dirs" Setting.toTexts? d.resourceDirs
    strictParameters := ← root.read "strict_parameters" Setting.toBool? d.strictParameters
    cacheEntities := ← root.read "cache_entities" Setting.toBool? d.cacheEntities
    mutexTimeoutMs := ← root.read "mutex_timeout_ms" Setting.toNat? d.mutexTimeoutMs
    properties := ← root.read "properties" Setting.toTextTable? d.properties
    logFilter := ← root.read "log_filter" Setting.toText? d.logFilter }

/-- The configuration file of an engine. -/
inductive ConfigFile where
  /-- No file is named. -/
  | unnamed
  /-- The named file does not exist. -/
  | missing
  /-- The content of the named file. -/
  | content (text : String)

/-- The settings of the file layer. -/
def ConfigFile.layer : ConfigFile → Except LoadError (List (String × Setting))
  | unnamed => .ok []
  | missing => .error .file
  | content text =>
    match Setting.ofFile? text with
    | some layer => .ok layer
    | none => .error .file

/-- Reads settings: the file, over it the environment, and at the end the directories and
properties given directly. -/
def load (file : ConfigFile) (env : List (String × String)) (dirs : List String)
    (properties : List (String × String)) : Except LoadError Settings := do
  let layer ← file.layer
  let root := ((Setting.table []).addLayer layer).addLayer (Setting.ofEnvironment env)
  let s ← ofSetting root
  return { s with
    resourceDirs := s.resourceDirs ++ dirs
    properties := overlay s.properties properties }

end Settings

end Scenario
