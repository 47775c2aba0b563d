import Grf.Expr
import Grf.Failure

namespace Grf

/-- What the identifiers of an expression can stand for: named constants, and the names of
sprite sets, groups and layouts. -/
structure Scope where
  constants : List (String × Expr)
  isBlock : String → Bool

namespace Expr

/-- The wrap-around arithmetic of the known operators. -/
def compute? : Operator → Int64 → Int64 → Option Int64
  | .add, a, b => some (a + b)
  | .sub, a, b => some (a - b)
  | .mul, a, b => some (a * b)
  | .unknown _, _, _ => none

/-- Folds an operation whose operands are reduced. Operands that are no numbers are found
before an operator that is unknown. -/
def fold (op : Operator) (position : Option Position) : Expr → Expr → Except Failure Expr
  | number a _, number b _ =>
    match compute? op a b with
    | some value => .ok (number value position)
    | none => .error (.unknownOperator op.code)
  | _, _ => .error (.inScript (.operands op.symbol) position)

mutual

/-- Reduces an expression from left to right, given what its identifiers reduce to. -/
def reduceWith (resolve : Identifier → Except Failure Expr) : Expr → Except Failure Expr
  | ident id => resolve id
  | text value p => .ok (text value p)
  | number value p => .ok (number value p)
  | ref target args p =>
    match reduceAllWith resolve args with
    | .ok reduced => .ok (ref target reduced p)
    | .error failure => .error failure
  | binary op left right p =>
    match left.reduceWith resolve with
    | .error failure => .error failure
    | .ok l =>
      match right.reduceWith resolve with
      | .error failure => .error failure
      | .ok r => fold op p l r

def reduceAllWith (resolve : Identifier → Except Failure Expr) :
    List Expr → Except Failure (List Expr)
  | [] => .ok []
  | e :: rest =>
    match e.reduceWith resolve with
    | .error failure => .error failure
    | .ok reduced =>
      match reduceAllWith resolve rest with
      | .error failure => .error failure
      | .ok others => .ok (reduced :: others)

end

end Expr

namespace Scope

/-- What an identifier reduces to while the constants in `expanding` are being expanded. At most
`depth` more constants are expanded inside each other. When there are as many constants as
`depth` and `expanding` count together, a constant met at depth zero is being expanded, so it
refers to itself. -/
def resolve (scope : Scope) : Nat → List String → Identifier → Except Failure Expr
  | depth, expanding, id =>
    match scope.constants.lookup id.name with
    | some value =>
      if id.name ∈ expanding then .error (.inScript (.constantLoop id.name) id.position)
      else match depth with
        | 0 => .error (.inScript (.constantLoop id.name) id.position)
        | depth + 1 => value.reduceWith (scope.resolve depth (id.name :: expanding))
    | none =>
      if scope.isBlock id.name then .ok (.ref id [] id.position)
      else .error (.inScript (.unknownIdentifier id.name) id.position)

end Scope

/-- Folds an expression as far as it goes: constants are replaced by their values, names of
blocks by references, and operations on numbers by their results. -/
def Expr.reduce (scope : Scope) (e : Expr) : Except Failure Expr :=
  e.reduceWith (scope.resolve scope.constants.length [])

end Grf
