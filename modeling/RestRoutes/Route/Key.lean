namespace RestRoutes

/-- The last segment of a path that is not empty, without braces; `root` when there is none. -/
def dispatchSegment (path : String) : String :=
  match (path.toList.splitOn '/').reverse.find? (!·.isEmpty) with
  | some segment => String.ofList (segment.filter fun c => c ≠ '\x7b' && c ≠ '\x7d')
  | none => "root"

/-- The number is the place of the operation among all operations, so no two keys are equal. -/
def dispatchKey (path : String) (number : Nat) : String :=
  dispatchSegment path ++ "_" ++ toString number

end RestRoutes
