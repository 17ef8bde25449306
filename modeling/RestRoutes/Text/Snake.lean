import RestRoutes.Text.Case

namespace RestRoutes.Text

/-- A capital becomes small and, but for the first character, gets an underscore before it. -/
def snakeFrom (first : Bool) : List Char → List Char
  | [] => []
  | c :: s =>
    (if isUpper c then (if first then [] else ['_']) ++ toLower c else [c]) ++ snakeFrom false s

def snakeCase (s : String) : String := String.ofList (snakeFrom true s.toList)

end RestRoutes.Text
