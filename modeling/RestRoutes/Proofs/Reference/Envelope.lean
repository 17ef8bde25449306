import Mathlib.Data.List.Forall2
import RestRoutes.Proofs.Block.Language
import RestRoutes.Proofs.Block.Layout
import RestRoutes.Proofs.Json.Names
import RestRoutes.Proofs.Reference.Markup

namespace RestRoutes

namespace Payload

variable {raw v : Json} {members entries : Table Json} {declared : FieldTable} {p : Payload}

end Payload

namespace Page

end Page

end RestRoutes
