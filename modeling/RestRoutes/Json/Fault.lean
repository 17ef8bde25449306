import RestRoutes.Text.Utf8

namespace RestRoutes.Json

inductive Fault where
  | endInList
  | endInObject
  | endInString
  | endInValue
  | expectedColon
  | expectedItemEnd
  | expectedMemberEnd
  | expectedWord
  | expectedValue
  | invalidEscape
  | invalidNumber
  | numberOutOfRange
  | controlCharacter
  | nameNotString
  | loneSurrogate
  | missingSurrogate
  | trailingComma
  | trailingCharacters
  | tooDeep
  deriving DecidableEq, Repr

def Fault.message : Fault → String
  | .endInList => "EOF while parsing a list"
  | .endInObject => "EOF while parsing an object"
  | .endInString => "EOF while parsing a string"
  | .endInValue => "EOF while parsing a value"
  | .expectedColon => "expected `:`"
  | .expectedItemEnd => "expected `,` or `]`"
  | .expectedMemberEnd => "expected `,` or `\x7d`"
  | .expectedWord => "expected ident"
  | .expectedValue => "expected value"
  | .invalidEscape => "invalid escape"
  | .invalidNumber => "invalid number"
  | .numberOutOfRange => "number out of range"
  | .controlCharacter => "control character (\\u0000-\\u001F) found while parsing a string"
  | .nameNotString => "key must be a string"
  | .loneSurrogate => "lone leading surrogate in hex escape"
  | .missingSurrogate => "unexpected end of hex escape"
  | .trailingComma => "trailing comma"
  | .trailingCharacters => "trailing characters"
  | .tooDeep => "recursion limit exceeded"

/-- A fault and the number of bytes read when it showed. -/
structure FaultAt where
  fault : Fault
  offset : Nat
  deriving DecidableEq, Repr

/-- A fault at a line and a byte column. -/
structure ReadError where
  fault : Fault
  line : Nat
  column : Nat
  deriving DecidableEq, Repr

def ReadError.message (e : ReadError) : String :=
  e.fault.message ++ " at line " ++ toString e.line ++ " column " ++ toString e.column

/-- Line and column after `n` more bytes. -/
def locate (n line column : Nat) : List Char → Nat × Nat
  | [] => (line, column)
  | c :: s =>
    if n = 0 then (line, column)
    else if c = '\n' then locate (n - 1) (line + 1) 0 s
    else
      let k := min n (Text.Utf8.encodeChar c).length
      locate (n - k) line (column + k) s

def FaultAt.locateIn (e : FaultAt) (text : List Char) : ReadError :=
  let (line, column) := locate e.offset 1 0 text
  ⟨e.fault, line, column⟩

end RestRoutes.Json
