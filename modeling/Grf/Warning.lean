import Grf.Position

namespace Grf

/-- What is worth telling the author of a script although nothing has failed. -/
inductive Warning where
  | unreferenced (kind name : String) (position : Option Position)
  | layoutParameters (position : Option Position)
  /-- A warning raised outside this library. -/
  | raised (kind message : String) (position : Option Position)
deriving DecidableEq

namespace Warning

def kind : Warning → String
  | unreferenced _ _ _ => "Usage"
  | layoutParameters _ => "Unsupported"
  | raised kind _ _ => kind

def message : Warning → String
  | unreferenced kind name _ => kind ++ " '" ++ name ++ "' is not referenced, ignoring."
  | layoutParameters _ => "spritelayout parameters are not (yet) supported, ignoring."
  | raised _ message _ => message

def position : Warning → Option Position
  | unreferenced _ _ p => p
  | layoutParameters p => p
  | raised _ _ p => p

end Warning

end Grf
