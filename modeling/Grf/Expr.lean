import Grf.Position
import Grf.Text.Quoted

namespace Grf

/-- A name and the place where it is written. -/
structure Identifier where
  name : String
  position : Option Position
deriving DecidableEq

/-- The arithmetic operators, and any code that is none of them. -/
inductive Operator where
  | add
  | sub
  | mul
  | unknown (code : Int64)
deriving DecidableEq

namespace Operator

def ofCode (code : Int64) : Operator :=
  if code = 0 then .add else if code = 1 then .sub else if code = 2 then .mul else .unknown code

def code : Operator → Int64
  | .add => 0
  | .sub => 1
  | .mul => 2
  | .unknown code => code

/-- The symbol in scripts; an unknown operator has none. -/
def symbol : Operator → String
  | .add => "+"
  | .sub => "-"
  | .mul => "*"
  | .unknown _ => ""

end Operator

/-- An expression of a script. -/
inductive Expr where
  | ident (id : Identifier)
  | text (value : String) (position : Option Position)
  | number (value : Int64) (position : Option Position)
  /-- A reference to a sprite set, sprite group or sprite layout. -/
  | ref (target : Identifier) (args : List Expr) (position : Option Position)
  | binary (op : Operator) (left right : Expr) (position : Option Position)
deriving Inhabited

namespace Expr

def position : Expr → Option Position
  | ident id => id.position
  | text _ p => p
  | number _ p => p
  | ref _ _ p => p
  | binary _ _ _ p => p

mutual

/-- The expression as script source. -/
def source : Expr → String
  | ident id => id.name
  | text value _ => Text.quote value
  | number value _ => toString value
  | ref target args _ =>
    match sources args with
    | [] => target.name
    | shown => target.name ++ "(" ++ ", ".intercalate shown ++ ")"
  | binary op left right _ =>
    "(" ++ left.source ++ " " ++ op.symbol ++ " " ++ right.source ++ ")"

def sources : List Expr → List String
  | [] => []
  | e :: rest => e.source :: sources rest

end

/-- Expressions as the items of an argument list. -/
def sourceList (exprs : List Expr) : String :=
  ", ".intercalate (sources exprs)

end Expr

/-- A reference to a block, taken out of its expression. -/
structure Reference where
  target : Identifier
  args : List Expr
  position : Option Position

namespace Reference

def toExpr (r : Reference) : Expr :=
  .ref r.target r.args r.position

/-- The reference that an expression is, if it is one. -/
def ofExpr? : Expr → Option Reference
  | .ref target args position => some ⟨target, args, position⟩
  | _ => none

end Reference

end Grf
