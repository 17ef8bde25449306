import RestRoutes.Json.Token

namespace RestRoutes.Json

/-- A container with a value under construction inside it. -/
inductive Frame where
  | items (done : List Json)
  | member (done : Table Json) (name : String)
  deriving Inhabited

/-- What the reader waits for. Items are kept in reverse. A list or an object that already has
something in it when it waits for more has just read a comma. -/
inductive Reader where
  | needValue (stack : List Frame)
  | needItem (done : List Json) (stack : List Frame)
  | needItemEnd (done : List Json) (stack : List Frame)
  | needName (done : Table Json) (stack : List Frame)
  | needColon (done : Table Json) (name : String) (stack : List Frame)
  | needMemberEnd (done : Table Json) (stack : List Frame)
  | finished (v : Json)
  deriving Inhabited

/-- The number of open containers at which one more is refused. -/
def depthLimit : Nat := 127

/-- A value is complete. -/
def Reader.complete (v : Json) : List Frame → Reader
  | [] => .finished v
  | .items done :: stack => .needItemEnd (v :: done) stack
  | .member done name :: stack => .needMemberEnd (done.put name v) stack

/-- A value begins with this token. -/
def Reader.begin (stack : List Frame) (t : Token) : Except FaultAt Reader :=
  match t.lexeme with
  | .literal v => .ok (complete v stack)
  | .text s => .ok (complete (.string s) stack)
  | .openArray =>
    if stack.length < depthLimit then .ok (.needItem [] stack) else .error ⟨.tooDeep, t.offset + 1⟩
  | .openObject =>
    if stack.length < depthLimit then .ok (.needName [] stack) else .error ⟨.tooDeep, t.offset + 1⟩
  | .faultyText e => .error e
  | .faultyLiteral e => .error e
  | _ => .error ⟨.expectedValue, t.offset + 1⟩

def Reader.step (r : Reader) (t : Token) : Except FaultAt Reader :=
  let fault (f : Fault) : Except FaultAt Reader := .error ⟨f, t.offset + 1⟩
  match r with
  | .needValue stack => begin stack t
  | .needItem done stack =>
    match t.lexeme with
    | .closeArray => if done.isEmpty then .ok (complete (.array []) stack) else fault .trailingComma
    | _ => begin (.items done :: stack) t
  | .needItemEnd done stack =>
    match t.lexeme with
    | .comma => .ok (.needItem done stack)
    | .closeArray => .ok (complete (.array done.reverse) stack)
    | _ => fault .expectedItemEnd
  | .needName done stack =>
    match t.lexeme with
    | .text name => .ok (.needColon done name stack)
    | .faultyText e => .error e
    | .closeObject => if done.isEmpty then .ok (complete (.object []) stack) else fault .trailingComma
    | _ => fault .nameNotString
  | .needColon done name stack =>
    match t.lexeme with
    | .colon => .ok (.needValue (.member done name :: stack))
    | _ => fault .expectedColon
  | .needMemberEnd done stack =>
    match t.lexeme with
    | .comma => .ok (.needName done stack)
    | .closeObject => .ok (complete (.object done) stack)
    | _ => fault .expectedMemberEnd
  | .finished _ => fault .trailingCharacters

/-- What is missing when the text ends. -/
def Reader.finish : Reader → Except Fault Json
  | .needValue _ => .error .endInValue
  | .needItem done _ => .error (if done.isEmpty then .endInList else .endInValue)
  | .needItemEnd _ _ => .error .endInList
  | .needName done _ => .error (if done.isEmpty then .endInObject else .endInValue)
  | .needColon _ _ _ => .error .endInObject
  | .needMemberEnd _ _ => .error .endInObject
  | .finished v => .ok v

def Reader.run (r : Reader) : List Token → Except FaultAt Reader
  | [] => .ok r
  | t :: ts =>
    match r.step t with
    | .ok r => r.run ts
    | .error e => .error e

/-- The value of a JSON text, or the first fault in it. -/
def read (text : List Char) : Except ReadError Json :=
  match (Reader.needValue []).run (tokens 0 text) with
  | .error e => .error (e.locateIn text)
  | .ok r =>
    match r.finish with
    | .ok v => .ok v
    | .error f => .error (FaultAt.locateIn ⟨f, Text.Utf8.size text⟩ text)

end RestRoutes.Json
