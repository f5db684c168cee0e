import Stencil.Routine.Convert

/-!
# Signs between and before operands

What a sign computes from the values of its operands.  Nothing here changes the heap; it is needed
because arrays and objects among the operands count as their texts.

* `Heap.sum` — texts are joined and numbers added;
* `Heap.ordered` — two texts are compared as texts, everything else as numbers;
* `Heap.binary`, `Heap.unary` — all signs.
-/

namespace Stencil.Routine

/-- Whether the value is a text. -/
def Value.isText : Value → Bool
  | .text _ => true
  | _ => false

/-- What a comparing sign says of two texts. -/
def BinaryOp.ordersTexts (op : BinaryOp) (s t : String) : Bool :=
  match op with
  | .less => s < t
  | .atMost => !decide (t < s)
  | .greater => t < s
  | _ => !decide (s < t)

/-- What a comparing sign says of two numbers. -/
def BinaryOp.ordersNumbers (op : BinaryOp) (x y : Float) : Bool :=
  match op with
  | .less => x < y
  | .atMost => x ≤ y
  | .greater => y < x
  | _ => y ≤ x

namespace Heap

/-- The sum of two values: their texts joined if one of them is a text without its structure, else
the sum of their numbers. -/
def sum (h : Heap) (a b : Value) : Option Value := do
  let a ← h.primitive a
  let b ← h.primitive b
  if a.isText || b.isText then return .text (plainText a ++ plainText b)
  else return .number ((← h.toNumber a) + (← h.toNumber b))

/-- What a comparing sign says of two values. -/
def ordered (h : Heap) (op : BinaryOp) (a b : Value) : Option Bool := do
  match ← h.primitive a, ← h.primitive b with
  | .text s, .text t => return op.ordersTexts s t
  | a, b => return op.ordersNumbers (← h.toNumber a) (← h.toNumber b)

/-- What a function of two numbers makes of two values. -/
def arithmetic (h : Heap) (f : Float → Float → Float) (a b : Value) : Option Value := do
  return .number (f (← h.toNumber a) (← h.toNumber b))

/-- What a sign between two operands computes. -/
def binary (h : Heap) (op : BinaryOp) (a b : Value) : Option Value :=
  match op with
  | .add => h.sum a b
  | .subtract => h.arithmetic (· - ·) a b
  | .multiply => h.arithmetic (· * ·) a b
  | .divide => h.arithmetic (· / ·) a b
  | .remainder => h.arithmetic Decimal.remainder a b
  | .equal => do return .bool (← h.looseEqual a b)
  | .unequal => do return .bool !(← h.looseEqual a b)
  | .strictEqual => some (.bool (a.same b))
  | .strictUnequal => some (.bool !(a.same b))
  | .less => do return .bool (← h.ordered .less a b)
  | .atMost => do return .bool (← h.ordered .atMost a b)
  | .greater => do return .bool (← h.ordered .greater a b)
  | .atLeast => do return .bool (← h.ordered .atLeast a b)

/-- What a sign or word before its operand computes. -/
def unary (h : Heap) (op : UnaryOp) (a : Value) : Option Value :=
  match op with
  | .negation => some (.bool !a.truthy)
  | .minus => do return .number (-(← h.toNumber a))
  | .plus => do return .number (← h.toNumber a)
  | .kind => some (.text a.kindName)

end Heap

end Stencil.Routine
