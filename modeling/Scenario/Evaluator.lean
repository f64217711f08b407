import Scenario.Template

/-!
# Evaluators

An evaluator compiles the texts of a document into expressions, which give a value in a scope. The
usual one takes texts as templates.
-/

namespace Scenario

/-- A compiled text. -/
structure Compiled where
  /-- The text it was compiled from. -/
  source : String
  /-- Its value in a scope, or the reason why it has none. -/
  eval : Arena → ScopeId → Except String Value

namespace Compiled

/-- The text of the value in a scope; null has none. -/
def text? (c : Compiled) (a : Arena) (s : ScopeId) : Except String (Option String) :=
  (c.eval a s).map fun v => if v.isNull then none else some v.display

/-- Whether the value in a scope counts as true. -/
def truth (c : Compiled) (a : Arena) (s : ScopeId) : Except String Bool :=
  (c.eval a s).map Value.isTruthy

end Compiled

/-- A way to compile texts; a text that cannot be compiled gives the reason. -/
structure Evaluator where
  /-- Compiles a text. -/
  compile : String → Except String Compiled

namespace Evaluator

/-- Compiles a text, naming it in the reason for a failure. -/
def compileNamed (e : Evaluator) (source : String) : Except String Compiled :=
  (e.compile source).mapError fun reason => s!"Invalid expression '{source}': {reason}"

/-- Texts are templates. -/
def template : Evaluator where
  compile source :=
    match Template.compile source with
    | .ok t => .ok ⟨t.source, fun a s => .ok (t.evalIn a s)⟩
    | .error e => .error e.message

/-- What is left of a text after a beginning. -/
def after? (start s : String) : Option String :=
  if start.toList.isPrefixOf s.toList then some (String.ofList (s.toList.drop start.length))
  else none

/-- Texts are templates, except that what follows `nocompile:` is the reason why the text does not
compile and what follows `fail:` the reason why it has no value. -/
def faulty : Evaluator where
  compile source :=
    match after? "nocompile:" source with
    | some reason => .error reason
    | none =>
      match after? "fail:" source with
      | some reason => .ok ⟨source, fun _ _ => .error reason⟩
      | none => template.compile source

end Evaluator

end Scenario
