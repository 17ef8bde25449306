import RestRoutes.Files.Error
import RestRoutes.Text.Quoted
import RestRoutes.Yaml.Mark

namespace RestRoutes

/-- What is wrong with a part of a configuration. -/
inductive ConfigFault where
  | type (found expected : String)
  | value (text expected : String)
  | unknownField (name : String) (known : List String)
  | duplicateField (name : String)
  | unknownChoice (name : String) (known : List String)
  deriving DecidableEq, Repr

/-- Where a part of a configuration stands, and the names that lead to it; the whole has none. -/
structure ConfigPlace where
  mark : Yaml.Mark
  path : String
  deriving DecidableEq, Repr

/-- Why a text is no configuration. -/
inductive ConfigProblem where
  /-- The text is not YAML. -/
  | malformed
  | unfit (fault : ConfigFault) (place : ConfigPlace)
  | emptyMarker (name : String)
  | sameMarkers
  deriving DecidableEq, Repr

inductive ConfigError where
  | unreadable (path : String) (e : FileError)
  | invalid (path : String) (problem : ConfigProblem)
  deriving DecidableEq, Repr

/-- Names in a message: two of them as an alternative, more as a list. -/
def choiceText (names : List String) : String :=
  let marked := names.map fun n => "`" ++ n ++ "`"
  if marked.length ≤ 2 then " or ".intercalate marked else "one of " ++ ", ".intercalate marked

def ConfigFault.message : ConfigFault → String
  | .type found expected => "invalid type: " ++ found ++ ", expected " ++ expected
  | .value text expected => "invalid value: string " ++ Text.quoted text ++ ", expected " ++ expected
  | .unknownField name known => "unknown field `" ++ name ++ "`, expected " ++ choiceText known
  | .duplicateField name => "duplicate field `" ++ name ++ "`"
  | .unknownChoice name known => "unknown variant `" ++ name ++ "`, expected " ++ choiceText known

/-- The start of the text is not worth naming. Lines and columns count from one. -/
def Yaml.Mark.message (m : Yaml.Mark) : String :=
  if m.line = 0 && m.column = 0 then ""
  else " at line " ++ toString (m.line + 1) ++ " column " ++ toString (m.column + 1)

def ConfigProblem.message : ConfigProblem → String
  | .malformed => "malformed YAML"
  | .unfit fault place =>
    (if place.path.isEmpty then "" else place.path ++ ": ") ++ fault.message ++ place.mark.message
  | .emptyMarker name => name ++ " must not be empty"
  | .sameMarkers => "annotations.begin_marker and annotations.end_marker must differ"

def ConfigError.message : ConfigError → String
  | .unreadable path e => "Failed to read config " ++ Text.quoted path ++ ": " ++ e.message
  | .invalid path problem => "Invalid config " ++ Text.quoted path ++ ": " ++ problem.message

end RestRoutes
