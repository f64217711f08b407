import Scenario.Library.Builtin

/-!
# Probing tags

Tags for looking into an engine from a document: beans that note how they were called, fail, open
closeables, or tell what they see of the run, tags that tell where they stand in the document, and
roots that are transparent or refused.
-/

namespace Scenario.Probe

/-- Makes a note of its fields and gives its name. -/
def record : Bean where
  typeName := "record"
  schema := {
    fields := [⟨"name", .text, true⟩, ⟨"count", .integer, false⟩, ⟨"loud", .bool, false⟩]
    baseline := [("count", .num 1), ("loud", .bool false)] }
  act fs := .note fs (.done (fs.value? "name"))

/-- Gives a tree of its fields. -/
def probe : Bean where
  typeName := "probe"
  schema := {
    fields := [⟨"text", .text, false⟩, ⟨"flag", .bool, false⟩, ⟨"num", .number, false⟩,
      ⟨"int", .integer, false⟩, ⟨"any", .any, false⟩]
    baseline := [("flag", .bool true), ("num", .num (Number.ofRatio false 1 2)), ("int", .num 7)] }
  act fs := .done (some (.ofEntries fs))

/-- Takes any parameters and gives its value. -/
def lax : Bean where
  typeName := "lax"
  schema := { fields := [⟨"value", .any, false⟩], strict := false }
  act fs := .done (fs.value? "value")

/-- Fails with its message, inside its context if it has one. -/
def fail : Bean where
  typeName := "fail"
  schema := { fields := [⟨"message", .text, false⟩, ⟨"context", .text, false⟩] }
  act fs := .fail (.causes ((fs.text? "context").toList ++ [(fs.text? "message").getD "boom"]))

/-- A closeable that fails as told. -/
def closeable (name : String) (failFlush failClose : Bool) : Closeable where
  name
  flushError := if failFlush then some "flush failed" else none
  closeError := if failClose then some "close failed" else none

/-- Opens a closeable. -/
def closer : Bean where
  typeName := "closer"
  schema := {
    fields := [⟨"name", .text, false⟩, ⟨"fail_flush", .bool, false⟩, ⟨"fail_close", .bool, false⟩] }
  act fs :=
    .register (closeable ((fs.text? "name").getD "closer") ((fs.bool? "fail_flush").getD false)
      ((fs.bool? "fail_close").getD false)) (.done none)

/-- Permits or forbids binding results anew. -/
def overwrite : Bean where
  typeName := "overwrite"
  schema := { fields := [⟨"allowed", .bool, false⟩], baseline := [("allowed", .bool true)] }
  act fs := .allowOverwrite ((fs.bool? "allowed").getD true) (.done none)

/-- A part of what a bean sees of the run. -/
def aspect? (view : CallView) : String → Option Value
  | "trace" => some (.ofItems (view.trace.map .str))
  | "seq" => some (.num (Number.ofNat (view.scopes.seq view.scope)))
  | "entity_seq" => some (.num (Number.ofNat (view.scopes.seq view.entityScope)))
  | "visible" => some (.ofEntries (view.scopes.visible view.scope))
  | "names" => some (.ofEntries (view.scopes.nameMap view.scope true true))
  | "local" => some (.ofEntries (view.scopes.frame view.entityScope).consts.entries)
  | "stack" => some (.num (Number.ofNat view.trace.length))
  | "overwrite" => some (.bool (view.scopes.overwriteAllowed view.entityScope))
  | "entity" => some (.str view.entityName)
  | _ => none

/-- Gives a part of what it sees of the run. -/
def inspect : Bean where
  typeName := "inspect"
  schema := { fields := [⟨"what", .text, true⟩] }
  act fs :=
    let what := (fs.text? "what").getD ""
    .look fun view =>
      match aspect? view what with
      | some v => .done (some v)
      | none => .fail (.because s!"cannot inspect '{what}'")

/-- A tag whose value is null and that must not be skipped. -/
def null : Maker := .fixed "null" false (fun _ => .null) (some "null was skipped")

/-- The place of an element as text: the path of the document, the part of the tag around it, the
name of the instruction in front of it, and the names of all resources. -/
def place (site : Site) : String :=
  "|".intercalate [site.path, s!"Some({site.enclosing.name})",
    (site.previous.map Instruction.name).getD "-", ",".intercalate site.names]

/-- A tag that tells where it stands. -/
def siteInfo : Maker := .fixed "cxinfo" true (fun site => .str (place site)) none

/-- The library of the probing tags. -/
def library : Library where
  name := "test"
  ns := "urn:tagflow:test"
  tags := [
    ("record", .bean record),
    ("probe", .bean probe),
    ("lax", .bean lax),
    ("fail", .bean fail),
    ("closer", .bean closer),
    ("overwrite", .bean overwrite),
    ("inspect", .bean inspect),
    ("null", null),
    ("cxinfo", siteInfo)]

/-- The reason for refusing a root, which tells how many children it has. -/
def refusal (root : Xml.Element) : String := s!"broken root with {root.children.length} children"

/-- The registry with the built-in and the probing tags. -/
def registry : Registry where
  libraries := [Builtin.library, library]
  roots := Builtin.registry.roots ++ [("flow", .block "flow"), ("broken", .refused refusal)]

/-- The built-in tags, with references to resources that tell what their entities look like instead
of calling them. -/
def describingRegistry : Registry := { Builtin.registry with reference := .describe "cxinfo" }

end Scenario.Probe
