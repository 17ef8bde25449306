import RestRoutes.Route.Build

namespace RestRoutes

structure Router where
  bindingsOpening : String
  registration : Route → String
  bindingsClosing : String
  dispatchOpening : String
  entry : Route → String
  dispatchClosing : String

namespace Router

/-- One registration for each route, in order. -/
def bindings (r : Router) (routes : List Route) : String :=
  r.bindingsOpening ++ String.join (routes.map r.registration) ++ r.bindingsClosing

/-- One entry for each dispatchable route, in order. -/
def dispatchMap (r : Router) (routes : List Route) : String :=
  r.dispatchOpening ++ String.join ((routes.filter (·.dispatchable)).map r.entry) ++ r.dispatchClosing

/-- The first lines of every generated source. -/
def notice : String := "// Generated by routegen. Do not edit.\n\n"

end Router

end RestRoutes
