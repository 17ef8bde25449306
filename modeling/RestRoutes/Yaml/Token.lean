import RestRoutes.Text.Utf8
import RestRoutes.Yaml.Scalar

namespace RestRoutes.Yaml

inductive TokenKind where
  | version (major minor : Nat)
  /-- A handle that tags may begin with, and what it stands for. -/
  | handle (name : List Char) (stem : List UInt8)
  | documentStart
  | documentEnd
  | blockSequence
  | blockMapping
  | blockEnd
  | openBracket
  | closeBracket
  | openBrace
  | closeBrace
  | hyphen
  | comma
  | key
  | value
  | alias (name : List Char)
  | anchor (name : List Char)
  | tag (handle : List Char) (ending : List UInt8)
  | scalar (text : List Char) (plain : Bool)
  | streamEnd
  deriving DecidableEq, Repr

structure Token where
  kind : TokenKind
  start : Mark
  stop : Mark
  deriving DecidableEq, Repr

/-- Something read, the place behind it, and what follows. -/
structure Scanned (α : Type) where
  value : α
  mark : Mark
  rest : List Char

/-- The longest run of characters of a class. -/
def scanRun (p : Char → Bool) (m : Mark) (s : List Char) : Scanned (List Char) :=
  let run := s.takeWhile p
  ⟨run, m.rightBy run.length, s.drop run.length⟩

/-- What may stand directly behind the name of an anchor or alias. -/
def endsName : List Char → Bool
  | [] => true
  | c :: s => atGap (c :: s) || "?:,]\x7d%@`".toList.contains c

/-- The name of an anchor or alias, behind its indicator. -/
def scanName (m : Mark) (s : List Char) : Option (Scanned (List Char)) :=
  let name := scanRun isNameChar m s
  if name.value.isEmpty || !endsName name.rest then none else some name

/-- Characters of a tag. Only in the long form and in a directive may the last three occur. -/
def isTagChar (long : Bool) (c : Char) : Bool :=
  isNameChar c || ";/?:@&=+$.%!~*'()".toList.contains c || (long && (c = ',' || c = '[' || c = ']'))

def byte? (high low : Char) : Option UInt8 := do
  return .ofNat ((← Json.hexValue? high) * 16 + (← Json.hexValue? low))

/-- How many bytes a character takes, by its first byte. -/
def byteCount? (b : UInt8) : Option Nat :=
  if b < 0x80 then some 1
  else if 0xc0 ≤ b && b < 0xe0 then some 2
  else if 0xe0 ≤ b && b < 0xf0 then some 3
  else if 0xf0 ≤ b && b < 0xf8 then some 4
  else none

/-- Escaped bytes: a percent sign and two digits each. `owed` of them are still to come. -/
def scanEscapedBytes (owed : Nat) (s : List Char) : Option (List UInt8) :=
  match owed, s with
  | 0, _ => some []
  | owed + 1, '%' :: high :: low :: s => do
    let b ← byte? high low
    if b &&& 0xc0 = 0x80 then return b :: (← scanEscapedBytes owed s) else none
  | _ + 1, _ => none

/-- An escaped character: its bytes, as many as the first one announces. -/
def scanEscapedChar : List Char → Option (List UInt8)
  | '%' :: high :: low :: s => do
    let b ← byte? high low
    return b :: (← scanEscapedBytes ((← byteCount? b) - 1) s)
  | _ => none

/-- The characters of a tag, their escapes replaced by the bytes they stand for. -/
def scanTagText (long : Bool) (m : Mark) (s : List Char) : Option (Scanned (List UInt8)) :=
  match s with
  | [] => some ⟨[], m, []⟩
  | c :: s =>
    if !isTagChar long c then some ⟨[], m, c :: s⟩
    else if c = '%' then
      match scanEscapedChar (c :: s) with
      | none => none
      | some bytes =>
        let taken := 3 * bytes.length
        (scanTagText long (m.rightBy taken) (s.drop (taken - 1))).map fun r =>
          { r with value := bytes ++ r.value }
    else
      (scanTagText long m.right s).map fun r => { r with value := Text.Utf8.encodeChar c ++ r.value }
termination_by s.length
decreasing_by all_goals (simp; try omega)

/-- A handle: an exclamation mark, a name, and an exclamation mark again where one follows. -/
def scanHandle (m : Mark) (s : List Char) : Option (Scanned (List Char)) :=
  match s with
  | '!' :: s =>
    let name := scanRun isNameChar m.right s
    match name.rest with
    | '!' :: rest => some ⟨'!' :: name.value ++ ['!'], name.mark.right, rest⟩
    | _ => some { name with value := '!' :: name.value }
  | _ => none

def isClosedHandle (handle : List Char) : Bool := 1 < handle.length && handle.getLast? = some '!'

/-- A tag. Without a handle of its own it begins with the plain one, and the exclamation mark alone is a
tag without a handle. -/
def scanTag (flow : Bool) (m : Mark) (s : List Char) : Option (Scanned TokenKind) := do
  let tag ← match s with
    | '!' :: '<' :: rest => do
      let text ← scanTagText true (m.rightBy 2) rest
      match text.value, text.rest with
      | _ :: _, '>' :: rest => some ⟨TokenKind.tag [] text.value, text.mark.right, rest⟩
      | _, _ => none
    | s => do
      let handle ← scanHandle m s
      let text ← scanTagText false handle.mark handle.rest
      if isClosedHandle handle.value then
        if text.value.isEmpty then none
        else some ⟨TokenKind.tag handle.value text.value, text.mark, text.rest⟩
      else
        match Text.Utf8.encode (handle.value.drop 1) ++ text.value with
        | [] => some ⟨.tag [] (Text.Utf8.encode ['!']), text.mark, text.rest⟩
        | ending => some ⟨.tag ['!'] ending, text.mark, text.rest⟩
  if atGap tag.rest || (flow && tag.rest.head? = some ',') then some tag else none

/-- A number of a version, of nine digits at most. -/
def scanVersionNumber (m : Mark) (s : List Char) : Option (Scanned Nat) :=
  let run := scanRun Json.isDigit m s
  if run.value.isEmpty || 9 < run.value.length then none
  else some ⟨run.value.foldl (fun n c => n * 10 + Json.digitValue c) 0, run.mark, run.rest⟩

def scanVersion (m : Mark) (s : List Char) : Option (Scanned TokenKind) := do
  let major ← scanVersionNumber m s
  match major.rest with
  | '.' :: rest =>
    let minor ← scanVersionNumber major.mark.right rest
    some ⟨.version major.value minor.value, minor.mark, minor.rest⟩
  | _ => none

def scanHandleDirective (m : Mark) (s : List Char) : Option (Scanned TokenKind) := do
  let handle ← scanHandle m s
  if handle.value ≠ ['!'] && !isClosedHandle handle.value then none
  if !(handle.rest.head?.any isGap) then none
  let blanks := scanRun isGap handle.mark handle.rest
  let stem ← scanTagText true blanks.mark blanks.rest
  if stem.value.isEmpty || !atGap stem.rest then none
  some ⟨.handle handle.value stem.value, stem.mark, stem.rest⟩

/-- A directive behind its percent sign. -/
def scanDirective (m : Mark) (s : List Char) : Option (Scanned TokenKind) := do
  let name := scanRun isNameChar m s
  if !atGap name.rest then none
  let blanks := scanRun isGap name.mark name.rest
  if name.value = "YAML".toList then scanVersion blanks.mark blanks.rest
  else if name.value = "TAG".toList then scanHandleDirective blanks.mark blanks.rest
  else none

end RestRoutes.Yaml
