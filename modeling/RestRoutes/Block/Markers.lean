import RestRoutes.Text.Utf8
import RestRoutes.Text.Search
import RestRoutes.Text.Blank

namespace RestRoutes

/-- The text that opens a block, the text that closes it, and the comment leaders that may stand before
each line of it. -/
structure Markers where
  opening : String := "BEGIN_REST_API_DOCUMENTATION"
  closing : String := "END_REST_API_DOCUMENTATION"
  leaders : List String := ["///", "//", "/*", "*", "#"]
  deriving DecidableEq, Repr, Inhabited

namespace Markers

/-- Longer leaders come first, so that the longest one that fits a line is the first that does. -/
def leadersLongestFirst (m : Markers) : List (List Char) :=
  (m.leaders.map String.toList).mergeSort fun a b => Text.Utf8.size b ≤ Text.Utf8.size a

/-- A line without the white space and the comment leader before it. -/
def strip (leaders : List (List Char)) (line : List Char) : List Char :=
  let line := Text.trimStart line
  (leaders.findSome? (Text.after? · line)).getD line

/-- A line with no code on it: blank, the end of a comment, or one that a leader opens. -/
def isComment (leaders : List (List Char)) (line : List Char) : Bool :=
  let line := Text.trim line
  line.isEmpty || Text.startsWith ['*', '/'] line || leaders.any (Text.startsWith · line)

end Markers

end RestRoutes
