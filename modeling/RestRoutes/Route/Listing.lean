import RestRoutes.Route.Build
import RestRoutes.Text.Blank
import RestRoutes.Text.Utf8

namespace RestRoutes.Listing

abbrev Row := List String

def header : Row := ["METHOD", "PATTERN", "DISPATCH KEY", "OPERATION", "DISPATCH"]

def row (r : Route) : Row :=
  [r.method.name, r.pattern, r.key, r.operation, if r.dispatchable then "yes" else "no"]

/-- The bytes of the longest cell in each column. -/
def widths (rows : List Row) : List Nat :=
  rows.foldl (fun ws row => ws.zipWith (fun w cell => max w (Text.Utf8.size cell.toList)) row)
    (header.map fun cell => Text.Utf8.size cell.toList)

/-- At least `width` characters. -/
def pad (width : Nat) (cell : List Char) : List Char :=
  cell ++ List.replicate (width - cell.length) ' '

/-- The cells of a row with two blanks between them, and no white space at the end. -/
def line (ws : List Nat) (row : Row) : List Char :=
  Text.trimEnd ([' ', ' '].intercalate (row.zipWith (fun cell w => pad w cell.toList) ws)) ++ ['\n']

def render (routes : List Route) : String :=
  let rows := routes.map row
  String.ofList ((header :: rows).flatMap (line (widths rows)))

end RestRoutes.Listing
