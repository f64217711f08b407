import Scenario.Expr.Token
import Scenario.Value.Basic

/-!
# Expressions

Expressions over the names of a scope: literals, paths, negation, comparison, conjunction and
disjunction. Evaluation always gives a value; a path that leads nowhere gives null.
-/

namespace Scenario

/-- A step of a path. -/
inductive Step where
  /-- The value under a name of a tree. -/
  | key (name : String)
  /-- The member of a list at a position. -/
  | index (i : Nat)
  deriving DecidableEq

/-- An expression. -/
inductive Expr where
  /-- A literal. -/
  | lit (v : Value)
  /-- A name of the scope, then steps into its value. -/
  | path (head : String) (steps : List Step)
  /-- Negation of truth. -/
  | not (e : Expr)
  /-- Comparison; `negated` for `!=`. -/
  | compare (negated : Bool) (l r : Expr)
  /-- Conjunction of truth. -/
  | and (l r : Expr)
  /-- Disjunction of truth. -/
  | or (l r : Expr)
  deriving Inhabited

/-- The value that a step leads to. -/
def Value.step? : Value → Step → Option Value
  | .tree _ es, .key k => Entries.get? es k
  | .list _ items, .index i => items[i]?
  | _, _ => none

/-- The value at the end of a path of steps. -/
def Value.walk? : Value → List Step → Option Value
  | v, [] => some v
  | v, s :: ss => (v.step? s).bind fun w => w.walk? ss

/-- The number that a text denotes, compared with a number. -/
def Value.numericEq (x : Number) (s : String) : Bool :=
  ((Value.str s).toNumber?.map fun y => y.eqv x).getD false

/-- Equality in expressions: a text equals the number that it denotes and the truth value that it
spells; all else as values. -/
def Value.looseEq : Value → Value → Bool
  | .num x, .str s => Value.numericEq x s
  | .str s, .num x => Value.numericEq x s
  | .bool b, .str s => s == (Value.bool b).display
  | .str s, .bool b => s == (Value.bool b).display
  | v, w => v.eqv w

/-- The value of an expression where `env` gives the values of names. -/
def Expr.eval (env : String → Option Value) : Expr → Value
  | lit v => v
  | path head steps => ((env head).bind fun v => v.walk? steps).getD .null
  | not e => .bool (!(e.eval env).isTruthy)
  | compare negated l r => .bool (((l.eval env).looseEq (r.eval env)) != negated)
  | and l r => .bool ((l.eval env).isTruthy && (r.eval env).isTruthy)
  | or l r => .bool ((l.eval env).isTruthy || (r.eval env).isTruthy)

end Scenario
