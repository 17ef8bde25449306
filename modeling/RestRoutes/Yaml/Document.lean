import RestRoutes.Yaml.Node

namespace RestRoutes.Yaml

structure Document where
  /-- There is no root in a text without any content. -/
  root : Option Node
  /-- Whether the text is well-formed to its end and holds no further document. -/
  complete : Bool

namespace Document

open Composer

/-- Directives: at most one version, of the two that are known, and at most one for each handle. -/
def directives (version : Bool) (handles : List (List Char × List UInt8)) :
    List Token → Option (List (List Char × List UInt8) × List Token)
  | ⟨.version major minor, _, _⟩ :: ts =>
    if version || major ≠ 1 || (minor ≠ 1 && minor ≠ 2) then none else directives true handles ts
  | ⟨.handle name stem, _, _⟩ :: ts =>
    if (handles.lookup name).isSome then none else directives version (handles ++ [(name, stem)]) ts
  | ts => some (handles, ts)

def malformed : Document := ⟨some .cut, false⟩

/-- A document behind its start. Only the ends of documents may follow it. -/
def body (handles : List (List Char × List UInt8)) (explicit : Bool) (ts : List Token) : Document :=
  let root : Compose Node := do
    let bare ← match ← peek with
      | some ⟨.version .., _, _⟩ | some ⟨.handle .., _, _⟩ => pure true
      | _ => nextIs [.documentStart, .documentEnd, .streamEnd]
    if explicit && bare then emptyHere else node handles true false (4 * (ts.length + 2))
  let (root, after) := root.run { tokens := ts }
  let rest := after.tokens.dropWhile fun t => t.kind = .documentEnd
  ⟨some root, rest.head?.any fun t => t.kind = .streamEnd⟩

/-- A document begins with its directives and a line of hyphens, or at once with its content. -/
def ofTokens (ts : List Token) : Document :=
  let explicit :=
    match directives false [] ts with
    | some (handles, ⟨.documentStart, _, _⟩ :: ts) => body handles true ts
    | _ => malformed
  match ts with
  | [] => malformed
  | ⟨.streamEnd, _, _⟩ :: _ => ⟨none, true⟩
  | ⟨.version .., _, _⟩ :: _ | ⟨.handle .., _, _⟩ :: _ | ⟨.documentStart, _, _⟩ :: _ => explicit
  | _ => body [] false ts

def ofText (text : String) : Document := ofTokens (tokens text.toList)

end Document

end RestRoutes.Yaml
