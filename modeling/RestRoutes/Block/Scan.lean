import RestRoutes.Block.Payload
import RestRoutes.Block.Definition
import RestRoutes.Block.Markers
import RestRoutes.Json.Reader
import RestRoutes.Text.Lines

namespace RestRoutes

/-- Lines count from one. -/
structure SourceLocation where
  file : String
  first : Nat
  last : Nat
  deriving DecidableEq, Repr, Inhabited

structure Block where
  qualifiedName : String
  method : String
  payload : Payload
  /-- The payload as it was written. -/
  raw : Json
  location : SourceLocation
  deriving Inhabited

/-- The operation that a block documents: the one it names, or else the one its method is named for. -/
def Block.operation (b : Block) : String := b.payload.function.getD b.method

/-- What is wrong with the text between two markers. -/
inductive ContentsFault where
  | text (e : Json.ReadError)
  | payload (e : PayloadError)

def ContentsFault.message : ContentsFault → String
  | .text e => e.message
  | .payload e => e.message

/-- A marker that is not where it should be, or a definition that is not there. -/
inductive PlacementFault where
  | closingAlone (opening closing : String)
  | openingInside (opening : String) (first : Nat)
  | markerBeforeDefinition (last line : Nat)
  | noDefinition (last : Nat) (found : List Char)
  | unclosed (opening closing : String)
  | noDefinitionLeft (last : Nat)
  | alreadyDocumented (operation file : String) (first : Nat)
  deriving DecidableEq, Repr

def PlacementFault.message : PlacementFault → String
  | .closingAlone opening closing => closing ++ " without a preceding " ++ opening
  | .openingInside opening first => opening ++ " inside the block opened at line " ++ toString first
  | .markerBeforeDefinition last line =>
    "block ending at line " ++ toString last ++
      " is not followed by a method definition before line " ++ toString line
  | .noDefinition last found =>
    "expected a `Type::method(...)` definition after the block ending at line " ++ toString last ++
      ", found `" ++ String.ofList found ++ "`"
  | .unclosed opening closing => opening ++ " has no matching " ++ closing ++ " before end of file"
  | .noDefinitionLeft last =>
    "block ending at line " ++ toString last ++
      " is not followed by a method definition before end of file"
  | .alreadyDocumented operation file first =>
    "operation '" ++ operation ++ "' is already documented at " ++ file ++ ":" ++ toString first

inductive BlockError where
  | contents (file : String) (first last : Nat) (fault : ContentsFault)
  | placement (file : String) (line : Nat) (fault : PlacementFault)

def BlockError.message : BlockError → String
  | .contents file first last fault =>
    file ++ " (lines " ++ toString first ++ "-" ++ toString last ++ "): " ++ fault.message
  | .placement file line fault => file ++ ":" ++ toString line ++ ": " ++ fault.message

/-- A closed block that waits for its definition. -/
structure ClosedBlock where
  first : Nat
  last : Nat
  payload : Payload
  raw : Json

/-- Where the scanner stands between two lines. The body of an open block is kept in reverse. -/
inductive ScanState where
  | outside
  | inside (first : Nat) (body : List (List Char))
  | closed (b : ClosedBlock)

/-- What a scanner needs besides the text. -/
structure Scanner where
  file : String
  markers : Markers

namespace Scanner

def leaders (s : Scanner) : List (List Char) := s.markers.leadersLongestFirst

def isOpening (s : Scanner) (line : List Char) : Bool :=
  Text.occursIn s.markers.opening.toList line

/-- A line with both markers opens a block. -/
def isClosing (s : Scanner) (line : List Char) : Bool :=
  !s.isOpening line && Text.occursIn s.markers.closing.toList line

/-- The text of a body whose lines are kept in reverse. -/
def bodyText (body : List (List Char)) : List Char := body.reverse.flatMap (· ++ ['\n'])

/-- Reads the payload of the block on the lines from `first` to `last`. -/
def close (s : Scanner) (first last : Nat) (body : List (List Char)) :
    Except BlockError ClosedBlock :=
  match Json.read (bodyText body) with
  | .error e => .error (.contents s.file first last (.text e))
  | .ok raw =>
    match Payload.ofJson raw with
    | .error e => .error (.contents s.file first last (.payload e))
    | .ok payload => .ok ⟨first, last, payload, raw⟩

/-- The block as it documents a definition. -/
def complete (s : Scanner) (b : ClosedBlock) (d : Definition) : Block where
  qualifiedName := String.ofList d.qualifiedName
  method := String.ofList d.method
  payload := b.payload
  raw := b.raw
  location := ⟨s.file, b.first, b.last⟩

/-- One line: the state behind it, and the block that it completes. -/
def step (s : Scanner) (state : ScanState) (number : Nat) (line : List Char) :
    Except BlockError (ScanState × Option Block) :=
  let fault (line : Nat) (f : PlacementFault) := Except.error (.placement s.file line f)
  match state with
  | .outside =>
    if s.isOpening line then .ok (.inside number [], none)
    else if s.isClosing line then
      fault number (.closingAlone s.markers.opening s.markers.closing)
    else .ok (.outside, none)
  | .inside first body =>
    if s.isOpening line then fault number (.openingInside s.markers.opening first)
    else if s.isClosing line then do
      return (.closed (← s.close first number body), none)
    else .ok (.inside first (Markers.strip s.leaders line :: body), none)
  | .closed b =>
    if s.isOpening line || s.isClosing line then
      fault b.last (.markerBeforeDefinition b.last number)
    else if Markers.isComment s.leaders line then .ok (.closed b, none)
    else
      match Definition.find? line with
      | some d => .ok (.outside, some (s.complete b d))
      | none => fault number (.noDefinition b.last (Text.trim line))

/-- No block may be open, or wait for its definition, at the end. -/
def finish (s : Scanner) : ScanState → Except BlockError Unit
  | .outside => .ok ()
  | .inside first _ =>
    .error (.placement s.file first (.unclosed s.markers.opening s.markers.closing))
  | .closed b => .error (.placement s.file b.last (.noDefinitionLeft b.last))

/-- The blocks that the lines from `number` on complete. -/
def scanFrom (s : Scanner) (state : ScanState) (number : Nat) :
    List (List Char) → Except BlockError (List Block)
  | [] => do
    s.finish state
    return []
  | line :: rest => do
    let (state, found) ← s.step state number line
    return found.toList ++ (← s.scanFrom state (number + 1) rest)

/-- The blocks of a text in their order. -/
def scan (s : Scanner) (text : String) : Except BlockError (List Block) :=
  s.scanFrom .outside 1 (Text.lines text.toList)

end Scanner

/-- The first block with the operation of an earlier one is refused. -/
def requireDistinct (seen : List Block) : List Block → Except BlockError Unit
  | [] => .ok ()
  | b :: rest =>
    match seen.find? (·.operation = b.operation) with
    | some first =>
      .error (.placement b.location.file b.location.first
        (.alreadyDocumented b.operation first.location.file first.location.first))
    | none => requireDistinct (b :: seen) rest

end RestRoutes
