import RestRoutes.Json.Number

namespace RestRoutes.Json

inductive Lexeme where
  | openArray
  | closeArray
  | openObject
  | closeObject
  | comma
  | colon
  | text (s : String)
  | literal (v : Json)
  | faultyText (e : FaultAt)
  | faultyLiteral (e : FaultAt)
  | stray
  deriving Inhabited

/-- A lexeme behind `offset` bytes. -/
structure Token where
  offset : Nat
  lexeme : Lexeme
  deriving Inhabited

def isSpace (c : Char) : Bool := c = ' ' || c = '\n' || c = '\t' || c = '\r'

def hexValue? (c : Char) : Option Nat :=
  if '0' ≤ c && c ≤ '9' then some (c.toNat - '0'.toNat)
  else if 'a' ≤ c && c ≤ 'f' then some (c.toNat - 'a'.toNat + 10)
  else if 'A' ≤ c && c ≤ 'F' then some (c.toNat - 'A'.toNat + 10)
  else none

/-- The four hexadecimal digits at the start of `s`, which stands behind `read` bytes. Four bytes are
taken whatever they are. -/
def scanHex (read : Nat) (s : List Char) : Except FaultAt Nat :=
  match (s.take 4).mapM hexValue? with
  | some [a, b, c, d] => .ok (((a * 16 + b) * 16 + c) * 16 + d)
  | _ =>
    let left := Text.Utf8.size (s.take 4)
    if left < 4 then .error ⟨.endInString, read + left⟩ else .error ⟨.invalidEscape, read + 4⟩

def isHighSurrogate (n : Nat) : Bool := 0xd800 ≤ n && n ≤ 0xdbff
def isLowSurrogate (n : Nat) : Bool := 0xdc00 ≤ n && n ≤ 0xdfff

/-- The second half of a surrogate pair. -/
def scanLowSurrogate (read : Nat) (s : List Char) : Except FaultAt Nat :=
  match s with
  | [] => .error ⟨.endInString, read⟩
  | '\\' :: [] => .error ⟨.endInString, read + 1⟩
  | '\\' :: 'u' :: s => do
    let low ← scanHex (read + 2) s
    if isLowSurrogate low then return low else throw ⟨.loneSurrogate, read + 6⟩
  | '\\' :: _ => .error ⟨.missingSurrogate, read + 2⟩
  | _ => .error ⟨.missingSurrogate, read + 1⟩

/-- The character of an escape and how many characters it takes behind its backslash. -/
def scanEscape (read : Nat) (s : List Char) : Except FaultAt (Char × Nat) :=
  match s with
  | [] => .error ⟨.endInString, read⟩
  | '"' :: _ => .ok ('"', 1)
  | '\\' :: _ => .ok ('\\', 1)
  | '/' :: _ => .ok ('/', 1)
  | 'b' :: _ => .ok ('\x08', 1)
  | 'f' :: _ => .ok ('\x0c', 1)
  | 'n' :: _ => .ok ('\n', 1)
  | 'r' :: _ => .ok ('\r', 1)
  | 't' :: _ => .ok ('\t', 1)
  | 'u' :: s => do
    let n ← scanHex (read + 1) s
    if isLowSurrogate n then throw ⟨.loneSurrogate, read + 5⟩
    else if isHighSurrogate n then
      let low ← scanLowSurrogate (read + 5) (s.drop 4)
      return (.ofNat (0x10000 + (n - 0xd800) * 0x400 + (low - 0xdc00)), 11)
    else return (.ofNat n, 5)
  | _ => .error ⟨.invalidEscape, read + 1⟩

/-- A string behind its opening quote: its characters, and the characters and bytes taken with the
closing quote. `out` holds what is read so far, in reverse. -/
def scanText (out : List Char) (taken read : Nat) (s : List Char) :
    Except FaultAt (List Char × Nat × Nat) :=
  match s with
  | [] => .error ⟨.endInString, read⟩
  | '"' :: _ => .ok (out.reverse, taken + 1, read + 1)
  | '\\' :: s =>
    match scanEscape (read + 1) s with
    | .error e => .error e
    | .ok (c, n) => scanText (c :: out) (taken + 1 + n) (read + 1 + n) (s.drop n)
  | c :: s =>
    if c.toNat < 0x20 then .error ⟨.controlCharacter, read + 1⟩
    else scanText (c :: out) (taken + 1) (read + (Text.Utf8.encodeChar c).length) s
termination_by s.length
decreasing_by all_goals (simp; try omega)

/-- The rest of a word such as `null`, behind its first letter. -/
def scanWord (read : Nat) : (word s : List Char) → Except FaultAt Unit
  | [], _ => .ok ()
  | _ :: _, [] => .error ⟨.endInValue, read⟩
  | w :: word, c :: s => if w = c then scanWord (read + 1) word s else .error ⟨.expectedWord, read + 1⟩

/-- The token list when a word's value is read, or the fault in its place. -/
def word (v : Json) (letters s : List Char) : Lexeme × Nat × Nat :=
  match scanWord 1 letters s with
  | .ok () => (.literal v, letters.length + 1, letters.length + 1)
  | .error e => (.faultyLiteral e, 0, 0)

/-- The lexeme that begins with `c`, and the characters and bytes that it takes; none when it is at
fault. Offsets of faults count from `c`. -/
def scanLexeme (c : Char) (s : List Char) : Lexeme × Nat × Nat :=
  match c with
  | '[' => (.openArray, 1, 1)
  | ']' => (.closeArray, 1, 1)
  | '\x7b' => (.openObject, 1, 1)
  | '\x7d' => (.closeObject, 1, 1)
  | ',' => (.comma, 1, 1)
  | ':' => (.colon, 1, 1)
  | '"' =>
    match scanText [] 1 1 s with
    | .ok (text, taken, read) => (.text (String.ofList text), taken, read)
    | .error e => (.faultyText e, 0, 0)
  | 'n' => word .null ['u', 'l', 'l'] s
  | 't' => word (.bool true) ['r', 'u', 'e'] s
  | 'f' => word (.bool false) ['a', 'l', 's', 'e'] s
  | _ =>
    if c = '-' || isDigit c then
      match scanNumber (c :: s) with
      | .ok (n, taken) => (.literal (.number n), taken, taken)
      | .error e => (.faultyLiteral e, 0, 0)
    else (.stray, 0, 0)

def FaultAt.after (offset : Nat) (e : FaultAt) : FaultAt := ⟨e.fault, offset + e.offset⟩

def Lexeme.after (offset : Nat) : Lexeme → Lexeme
  | .faultyText e => .faultyText (e.after offset)
  | .faultyLiteral e => .faultyLiteral (e.after offset)
  | l => l

/-- The tokens of a text that stands behind `offset` bytes. -/
def tokens (offset : Nat) (s : List Char) : List Token :=
  match s with
  | [] => []
  | c :: s =>
    if isSpace c then tokens (offset + 1) s
    else
      let (lexeme, taken, read) := scanLexeme c s
      ⟨offset, lexeme.after offset⟩ ::
        if taken = 0 then [] else tokens (offset + read) (s.drop (taken - 1))
termination_by s.length
decreasing_by all_goals (simp; try omega)

end RestRoutes.Json
