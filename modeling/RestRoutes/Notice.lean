import RestRoutes.Artifact
import RestRoutes.Block.Scan

namespace RestRoutes

inductive Severity where
  | warning
  | error
  deriving DecidableEq, Repr

inductive Notice where
  /-- A block documents no operation. -/
  | unmatched (b : Block)
  /-- A place that was taken has been given back, or could not be. -/
  | rollback (r : Rollback)

namespace Notice

def severity : Notice → Severity
  | .unmatched _ => .warning
  | .rollback r =>
    match r.result with
    | .ok () => .warning
    | .error _ => .error

def message : Notice → String
  | .unmatched _ => "annotation does not match any operationId"
  | .rollback r =>
    match r.result with
    | .ok () => "rolled back artifact"
    | .error _ => "failed to roll back artifact"

/-- Named values that say what the notice is about. -/
def fields : Notice → List (String × String)
  | .unmatched b => [
      ("operation", b.operation), ("method", b.qualifiedName), ("file", b.location.file),
      ("line", toString b.location.first)]
  | .rollback r =>
    match r.result with
    | .ok () => [("path", r.path)]
    | .error e => [("path", r.path), ("error", e.message)]

end Notice

end RestRoutes
