import Archetype.Condition.Kind
import Archetype.Condition.Symbol

/-!
What can be wrong with a condition, and the wording of each case.
-/

namespace Archetype.Condition

inductive Cause where
  | unterminatedText
  | unexpectedCharacter (c : Char)
  | tooDeep
  | unexpectedToken (shown : String)
  /-- A symbol was needed; `found` is the token in its place, or nothing at the end. -/
  | expectedSymbol (symbol : Symbol) (found : Option String)
  | expectedMemberName
  | expectedExpression
  | unknownName (name : String)
  /-- A member of a value that is no bag. -/
  | noMembers (kind : Kind) (name : String)
  | unknownProperty (name : String)
  | unknownMethod (name : String)
  | wrongArgumentCount (name : String) (given : Nat)
  | missingItems (name : String)
  | wrongItemKind (position : Nat) (name : String) (kind : Kind)
  | notIndexable (kind : Kind)
  | wrongIndexKind (kind : Kind)
  | notRuleName
  | referencesUnavailable
  | unknownRule (name : String)
  | ambiguousRule (name : String)
  | wrongOperand (kind : Kind)
  | wrongOperands (op : BinaryOp) (left right : Kind)
  | notBool (kind : Kind)
  | tooDeepThroughReferences
deriving DecidableEq, Repr

def Cause.message : Cause → String
  | .unterminatedText => "Unterminated string literal"
  | .unexpectedCharacter c => s!"Unexpected character '{c}'"
  | .tooDeep => "Expression is nested too deeply"
  | .unexpectedToken shown => s!"Unexpected token '{shown}'"
  | .expectedSymbol symbol (some found) => s!"Expected '{symbol.text}' but found '{found}'"
  | .expectedSymbol symbol none => s!"Expected '{symbol.text}' but found end of expression"
  | .expectedMemberName => "Expected member name after '.'"
  | .expectedExpression => "Expected expression"
  | .unknownName name => s!"The name '{name}' does not exist in the current context"
  | .noMembers kind name => s!"'{kind.name}' does not contain a definition for '{name}'"
  | .unknownProperty name => s!"Unknown property '{name}'"
  | .unknownMethod name => s!"Unknown method '{name}'"
  | .wrongArgumentCount name given => s!"'{name}' takes exactly 1 argument, got {given}"
  | .missingItems name => s!"'{name}' requires at least 1 item"
  | .wrongItemKind position name kind =>
    s!"Argument {position} of '{name}' must be str, not {kind.name}"
  | .notIndexable kind => s!"Cannot apply indexing to '{kind.name}'"
  | .wrongIndexKind kind => s!"Index must be str, not {kind.name}"
  | .notRuleName => "matches() takes a single rule name literal"
  | .referencesUnavailable => "matches() is not available here"
  | .unknownRule name => s!"No earlier rule named '{name}' to match against"
  | .ambiguousRule name => s!"Rule name '{name}' is ambiguous"
  | .wrongOperand kind => s!"Operator '!' cannot be applied to {kind.name}"
  | .wrongOperands op left right =>
    s!"Operator '{op.text}' cannot be applied to operands of type '{left.name}' and '{right.name}'"
  | .notBool kind => s!"Expression must evaluate to bool, not {kind.name}"
  | .tooDeepThroughReferences => "Expression is nested too deeply through matches()"

/-- Something wrong at a place of a condition, counted in characters from its start. -/
structure Issue where
  cause : Cause
  offset : Nat
deriving DecidableEq, Repr

def Issue.message (issue : Issue) : String :=
  issue.cause.message

end Archetype.Condition
