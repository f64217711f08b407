import Scenario.Registry

/-!
# The built-in tags

Everything that a document can use without a library of its own: data tags, expressions, branches,
locked sections, and the beans `log`, `return` and `exit`.
-/

namespace Scenario.Builtin

/-- The level that a log tag was given: blanks around it and the case of its letters do not
matter. -/
def checkLevel (fs : Fields) : Except String Fields :=
  let level := String.ofList
    ((Text.trim ((fs.text? "level").getD Level.info.name)).toList.map Char.toLower)
  if (Level.ofName? level).isSome then .ok (fs.insert "level" (.str level))
  else .error s!"Unknown log level '{level}'"

/-- Writes its value to the log and gives it on. -/
def log : Bean where
  typeName := "log"
  schema := {
    fields := [⟨"value", .any, false⟩, ⟨"level", .text, false⟩]
    baseline := [("level", .str Level.info.name)]
    after := checkLevel }
  act fs :=
    let v := fs.value? "value"
    let message := (v.map Value.display).getD "null"
    let level := ((fs.text? "level").bind Level.ofName?).getD .info
    .look fun view =>
      .write ⟨level, message, [("resource", view.entityName)], true⟩ (.done v)

/-- Makes the entity return its value. -/
def «return» : Bean where
  typeName := "return"
  schema := { fields := [⟨"value", .any, false⟩] }
  act fs :=
    let v := fs.value? "value"
    .setResult v (.returnEntity (.look fun view =>
      .write ⟨.debug, "Returning from entity", [("resource", view.entityPath)], false⟩ (.done v)))

/-- Gives up the whole run. -/
def exit : Bean where
  typeName := "exit"
  schema := { fields := [] }
  act _ :=
    .look fun view =>
      .write ⟨.info, "Exit requested, aborting", [("resource", view.entityPath)], false⟩
        (.abort (.done none))

/-- The library of the built-in tags. -/
def library : Library where
  name := "builtin"
  ns := rootNs
  tags := [
    ("data", .data false),
    ("const", .data false),
    ("default", .data true),
    ("literal", .literal),
    ("expression", .expression),
    ("if", .conditional),
    ("else", .alternative),
    ("mutex", .mutex),
    ("log", .bean log),
    ("return", .bean «return»),
    ("exit", .bean exit)]

/-- The registry with the built-in tags only. -/
def registry : Registry where
  libraries := [library]
  roots := [("scenario", .scenario)]

end Scenario.Builtin
