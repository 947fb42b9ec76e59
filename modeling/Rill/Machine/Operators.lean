import Rill.Machine.Fault
import Rill.Machine.Value

/-!
# Operators

What operators do to values. Equality takes any operands; a sum takes two numbers or two texts, and
everything else takes numbers.
-/

namespace Rill

variable {ε : Type}

/-- Applies an operator to the operand behind it. -/
def UnaryOp.apply : UnaryOp → Value ε → Except OperandRule (Value ε)
  | minus, .number a => .ok (.number (-a))
  | minus, _ => .error .number
  | bang, a => .ok (.bool !a.isTruthy)

/-- Applies an operator to two numbers. -/
def BinaryOp.applyNumbers (a b : Number) : BinaryOp → Value ε
  | plus => .number (a + b)
  | minus => .number (a - b)
  | star => .number (a * b)
  | slash => .number (a / b)
  | equalEqual => .bool (a.equals b)
  | bangEqual => .bool !(a.equals b)
  | greater => .bool (b.less a)
  | greaterEqual => .bool (b.lessEqual a)
  | less => .bool (a.less b)
  | lessEqual => .bool (a.lessEqual b)

/-- Applies an operator to the operands around it. -/
def BinaryOp.apply : BinaryOp → Value ε → Value ε → Except OperandRule (Value ε)
  | equalEqual, a, b => .ok (.bool (a.equals b))
  | bangEqual, a, b => .ok (.bool !(a.equals b))
  | plus, .string a, .string b => .ok (.string (a ++ b))
  | operator, .number a, .number b => .ok (operator.applyNumbers a b)
  | plus, _, _ => .error .numbersOrStrings
  | _, _, _ => .error .numbers

/-- Whether the left operand decides the value, so that the right one is not evaluated. -/
def LogicalOp.isDecidedBy : LogicalOp → Value ε → Bool
  | or, left => left.isTruthy
  | and, left => !left.isTruthy

end Rill
