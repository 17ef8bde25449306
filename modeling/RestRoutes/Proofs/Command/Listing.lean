import Mathlib.Data.List.Forall2
import Mathlib.Data.List.Nodup
import RestRoutes.Proofs.Command.Frame
import RestRoutes.Proofs.Compile.Policy

namespace RestRoutes

/-- The printed table of these rows. -/
def Listing.text (rows : List Listing.Row) : String :=
  String.ofList ((Listing.header :: rows).flatMap (Listing.line (Listing.widths rows)))

variable {o : GenerateOptions} {p : RoutesOptions} {t : FileTree}

/-- The routes that are generated from these inputs. -/
def Inputs.table (o : GenerateOptions) (i : Inputs) : Except BuildError (List Route) :=
  Route.table ⟨i.config.excluded ++ o.excluded⟩ i.document.operations

end RestRoutes
