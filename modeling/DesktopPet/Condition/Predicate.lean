import DesktopPet.Condition.Eval
import DesktopPet.Condition.Parser

/-!
# Compiled conditions

A predicate is a condition together with the text from which it was compiled.
-/

namespace DesktopPet.Condition

structure Predicate where
  source : String
  expr : Expr
  deriving DecidableEq, Repr

/-- The predicate that never holds; it takes the place of a text that does not compile. -/
def Predicate.never (source : String) : Predicate :=
  ⟨source, .literal (.bool false)⟩

/-- Compiles a text. The source of the predicate is the text without the blanks around it. -/
def compile (text : String) : Except CompileError Predicate := do
  let tokens ← tokenize (stripWrapper text.toList)
  let expr ← parse tokens
  return ⟨Text.trimmed text, expr⟩

/-- Whether a predicate holds, with a draw for each random number it asks for. -/
def Predicate.holds (p : Predicate) (view : View) : StateM Random Bool :=
  fun r => p.expr.holds view r

end DesktopPet.Condition
