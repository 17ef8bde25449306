import RestRoutes.Block.Scan
import RestRoutes.Route.Build

namespace RestRoutes

structure ReferenceEntry where
  path : String
  method : Method
  operation : String
  /-- The dispatch key, which is the anchor of the entry too. -/
  key : String
  /-- What the block says, or else the summary of the operation. -/
  purpose : Option String
  block : Option Block
  deriving Inhabited

namespace ReferenceEntry

def input (e : ReferenceEntry) : FieldTable := (e.block.bind (·.payload.input)).getD []

def output (e : ReferenceEntry) : FieldTable :=
  match e.block with
  | some b => b.payload.output
  | none => []

/-- The last of several blocks that document one operation counts. -/
def blockFor? (blocks : List Block) (operation : String) : Option Block :=
  blocks.reverse.find? (·.operation = operation)

def ofRoute (blocks : List Block) (r : Route) : ReferenceEntry :=
  let block := blockFor? blocks r.operation
  { path := r.path
    method := r.method
    operation := r.operation
    key := r.key
    purpose := (block.bind (·.payload.purpose)).or r.summary
    block }

/-- One entry for each route, in order. -/
def all (routes : List Route) (blocks : List Block) : List ReferenceEntry :=
  routes.map (ofRoute blocks)

/-- The blocks that document no route's operation. -/
def unmatched (routes : List Route) (blocks : List Block) : List Block :=
  blocks.filter fun b => routes.all (·.operation ≠ b.operation)

end ReferenceEntry

end RestRoutes
