import RestRoutes.Json.Value
import RestRoutes.Json.Token

namespace RestRoutes.Json

/-- A list position has no sign and no leading zero, and fits a machine word. -/
def index? (segment : List Char) : Option Nat :=
  match segment with
  | [] => none
  | '0' :: _ :: _ => none
  | _ =>
    if segment.all isDigit then
      let n := segment.foldl (fun n c => n * 10 + digitValue c) 0
      if n ≤ wordLimit then some n else none
    else none

/-- The value one segment below. -/
def child? (v : Json) (segment : List Char) : Option Json :=
  match v with
  | .object members => Table.get? members (String.ofList segment)
  | .array items => (index? segment).bind (items[·]?)
  | _ => none

/-- The value at a path of decoded segments. -/
def at? (v : Json) : List (List Char) → Option Json
  | [] => some v
  | segment :: rest => (child? v segment).bind (at? · rest)

/-- In a segment `~1` stands for a slash and `~0` for a tilde. -/
def unescape : List Char → List Char
  | '~' :: '1' :: s => '/' :: unescape s
  | '~' :: '0' :: s => '~' :: unescape s
  | c :: s => c :: unescape s
  | [] => []

/-- A tilde and a slash are escaped. -/
def tildeEscape (c : Char) : List Char :=
  if c = '~' then ['~', '0'] else if c = '/' then ['~', '1'] else [c]

/-- The pointer to a path: each segment behind a slash, and escaped. -/
def pointerTo (segments : List (List Char)) : List Char :=
  segments.flatMap fun s => '/' :: s.flatMap tildeEscape

/-- The value that a pointer names. The empty pointer names the whole value. -/
def pointer? (v : Json) : List Char → Option Json
  | [] => some v
  | '/' :: segments => v.at? ((segments.splitOn '/').map unescape)
  | _ => none

/-- Two hexadecimal digits behind a percent sign stand for a byte; any other percent sign for itself. -/
def percentDecode : List UInt8 → List UInt8
  | 0x25 :: a :: b :: rest =>
    match hexValue? (.ofNat a.toNat), hexValue? (.ofNat b.toNat) with
    | some x, some y => .ofNat (x * 16 + y) :: percentDecode rest
    | _, _ => 0x25 :: percentDecode (a :: b :: rest)
  | b :: rest => b :: percentDecode rest
  | [] => []

/-- A segment of a reference: tilde escapes first, percent escapes after them. -/
def decodeSegment (segment : List Char) : List Char :=
  Text.Utf8.decodeLossy (percentDecode (Text.Utf8.encode (unescape segment)))

end RestRoutes.Json
