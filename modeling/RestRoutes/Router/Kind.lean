import RestRoutes.Router.Crow
import RestRoutes.Router.Actix

namespace RestRoutes

inductive RouterKind where
  | crow
  | actix
  deriving DecidableEq, Repr, Inhabited

namespace RouterKind

def name : RouterKind → String
  | .crow => "crow"
  | .actix => "actix"

/-- A name that no router has, in small letters. -/
structure Unknown where
  name : String
  deriving DecidableEq, Repr

def Unknown.message (u : Unknown) : String :=
  "Unknown router '" ++ u.name ++ "' (expected 'crow' or 'actix')"

/-- The letters' case does not matter. -/
def ofName (s : String) : Except Unknown RouterKind :=
  let s := Method.lowerAscii s
  if s = "crow" then .ok .crow
  else if s = "actix" || s = "actix-web" then .ok .actix
  else .error ⟨s⟩

def router (k : RouterKind) (crow : Crow.Options) (actix : Actix.Options) : Router :=
  match k with
  | .crow => Crow.router crow
  | .actix => Actix.router actix

end RouterKind

end RestRoutes
