import RestRoutes.Spec.Document
import RestRoutes.Reference.Page
import RestRoutes.Router.Kind

namespace RestRoutes

structure CompileOptions where
  policy : Policy := {}
  title : Option String := none
  deriving DecidableEq, Repr, Inhabited

structure Generated where
  routes : List Route
  bindings : String
  dispatchMap : String
  reference : String
  /-- Blocks that document no operation. -/
  unmatched : List Block

def defaultTitle : String := "REST API Reference"

/-- The given title, or the document's, or a common one. -/
def titleOf (o : CompileOptions) (d : ApiDocument) : String :=
  (o.title.or d.title).getD defaultTitle

def compile (r : Router) (d : ApiDocument) (blocks : List Block) (o : CompileOptions) :
    Except BuildError Generated := do
  let routes ← Route.table o.policy d.operations
  return {
    routes
    bindings := r.bindings routes
    dispatchMap := r.dispatchMap routes
    reference := Page.ofEntries (titleOf o d) (ReferenceEntry.all routes blocks)
    unmatched := ReferenceEntry.unmatched routes blocks }

end RestRoutes
