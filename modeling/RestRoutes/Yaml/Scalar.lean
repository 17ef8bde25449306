import RestRoutes.Yaml.Mark
import RestRoutes.Json.Token

namespace RestRoutes.Yaml

/-- White space inside a scalar that is read but not yet part of it: blanks of one line, or line breaks.
An escaped line break leaves no first break. -/
inductive Gap where
  | none
  | blanks (reversed : List Char)
  | lines (first : Option Char) (more : List Char)
  deriving DecidableEq, Repr

/-- A line break alone becomes a blank; of several the first is dropped. -/
def Gap.folded : Gap → List Char
  | .none => []
  | .blanks reversed => reversed.reverse
  | .lines (some '\n') [] => [' ']
  | .lines (some '\n') more => more.reverse
  | .lines first more => first.toList ++ more.reverse

def Gap.addBlank (c : Char) : Gap → Gap
  | .none => .blanks [c]
  | .blanks reversed => .blanks (c :: reversed)
  | g => g

def Gap.addBreak (c : Char) : Gap → Gap
  | .lines first more => .lines first (breakValue c :: more)
  | _ => .lines (some (breakValue c)) []

def Gap.isLines : Gap → Bool
  | .lines .. => true
  | _ => false

/-- A scalar read, the place behind it, and what follows. -/
structure ScalarScan where
  value : List Char
  /-- Whether the scalar is followed by the start of a line. -/
  endsLine : Bool := false
  mark : Mark
  rest : List Char

/-- A plain scalar whose text so far is `out`, in reverse. Its lines are indented by `indent`. -/
def scanPlain (flow : Bool) (indent : Nat) (out : List Char) (gap : Gap) (m : Mark) (s : List Char) :
    Option ScalarScan :=
  let stop := some ⟨out.reverse, gap.isLines, m, s⟩
  match s with
  | [] => stop
  | c :: s =>
    if isGap c then
      if gap.isLines && m.column < indent && c = '\t' then none
      else scanPlain flow indent out (gap.addBlank c) m.right s
    else if isBreak c then
      if isPair c s then scanPlain flow indent out (gap.addBreak c) (m.down 2) (s.drop 1)
      else scanPlain flow indent out (gap.addBreak c) (m.down 1) s
    else if gap ≠ .none && ((!flow && m.column < indent) || c = '#' ||
        (m.column = 0 && atDocumentLine (c :: s))) then stop
    else if flow && c = ':' && s.head?.any fun d => isFlowIndicator d || d = '?' then none
    else if (c = ':' && atGap s) || (flow && isFlowIndicator c) then stop
    else scanPlain flow indent (c :: (gap.folded.reverse ++ out)) .none m.right s
termination_by s.length
decreasing_by all_goals (simp; try omega)

/-- The characters that a backslash and one character stand for. -/
def escapeValue? : Char → Option Char
  | '0' => some '\x00'
  | 'a' => some '\x07'
  | 'b' => some '\x08'
  | 't' => some '\t'
  | '\t' => some '\t'
  | 'n' => some '\n'
  | 'v' => some '\x0b'
  | 'f' => some '\x0c'
  | 'r' => some '\r'
  | 'e' => some '\x1b'
  | ' ' => some ' '
  | '"' => some '"'
  | '/' => some '/'
  | '\\' => some '\\'
  | 'N' => some '\u0085'
  | '_' => some '\u00a0'
  | 'L' => some '\u2028'
  | 'P' => some '\u2029'
  | _ => none

/-- How many hexadecimal digits follow the character. -/
def escapeDigits? : Char → Option Nat
  | 'x' => some 2
  | 'u' => some 4
  | 'U' => some 8
  | _ => none

def hexChar? (digits : List Char) (count : Nat) : Option Char := do
  let values ← digits.mapM Json.hexValue?
  if values.length < count then none
  let n := values.foldl (fun n d => n * 16 + d) 0
  if (0xd800 ≤ n && n ≤ 0xdfff) || 0x10ffff < n then none else some (.ofNat n)

/-- The character of an escape behind its backslash, and how many characters it takes. -/
def scanEscapeSequence : List Char → Option (Char × Nat)
  | [] => none
  | c :: s =>
    match escapeValue? c, escapeDigits? c with
    | some v, _ => some (v, 1)
    | none, some n => (hexChar? (s.take n) n).map (·, n + 1)
    | none, none => none

/-- A quoted scalar behind its opening quote. -/
def scanQuoted (double : Bool) (out : List Char) (gap : Gap) (m : Mark) (s : List Char) :
    Option ScalarScan :=
  match s with
  | [] => none
  | c :: s =>
    if isGap c then scanQuoted double out (gap.addBlank c) m.right s
    else if isBreak c then
      if isPair c s then scanQuoted double out (gap.addBreak c) (m.down 2) (s.drop 1)
      else scanQuoted double out (gap.addBreak c) (m.down 1) s
    else if gap ≠ .none && m.column = 0 && atDocumentLine (c :: s) then none
    else
      let out := gap.folded.reverse ++ out
      if !double && c = '\'' then
        if s.head? = some '\'' then scanQuoted double ('\'' :: out) .none (m.rightBy 2) (s.drop 1)
        else some ⟨out.reverse, false, m.right, s⟩
      else if double && c = '"' then some ⟨out.reverse, false, m.right, s⟩
      else if double && c = '\\' then
        if s.head?.any isBreak then
          if s.take 2 = ['\r', '\n'] then
            scanQuoted double out (.lines none []) (m.right.down 2) (s.drop 2)
          else scanQuoted double out (.lines none []) (m.right.down 1) (s.drop 1)
        else
          match scanEscapeSequence s with
          | none => none
          | some (v, n) => scanQuoted double (v :: out) .none (m.rightBy (n + 1)) (s.drop n)
      else scanQuoted double (c :: out) .none m.right s
termination_by s.length
decreasing_by all_goals (simp; try omega)

/-- What becomes of the line breaks at the end of a block scalar. -/
inductive Chomping where
  | strip
  | clip
  | keep
  deriving DecidableEq, Repr

/-- The lines of a block scalar so far: its text in reverse, the break behind its last line, further
breaks in reverse, and whether that line begins with a blank. -/
structure BlockLines where
  out : List Char := []
  leading : Option Char := none
  more : List Char := []
  indented : Bool := false

/-- Begins a line whose first character is `c`. In a folded scalar the break before it becomes a blank,
unless one of the two lines begins with a blank. -/
def BlockLines.begin (literal : Bool) (b : BlockLines) (c : Char) : BlockLines :=
  let joined :=
    if !literal && b.leading = some '\n' && !b.indented && !isGap c then
      if b.more.isEmpty then [' '] else []
    else b.leading.toList
  { out := b.more ++ joined ++ b.out, leading := none, more := [], indented := isGap c }

def BlockLines.finish (chomping : Chomping) (b : BlockLines) : List Char :=
  let last := match chomping with
    | .strip => []
    | .clip => b.leading.toList
    | .keep => b.more ++ b.leading.toList
  (last ++ b.out).reverse

/-- Reads the lines of a block scalar with a known indentation; `inside` says that a line is begun. -/
def scanBlockLines (literal : Bool) (chomping : Chomping) (indent : Nat) (inside : Bool)
    (b : BlockLines) (m : Mark) (s : List Char) : Option ScalarScan :=
  let stop := some ⟨b.finish chomping, true, m, s⟩
  match s with
  | [] => stop
  | c :: s =>
    if isBreak c then
      let b := if inside then { b with leading := some (breakValue c) }
        else { b with more := breakValue c :: b.more }
      if isPair c s then scanBlockLines literal chomping indent false b (m.down 2) (s.drop 1)
      else scanBlockLines literal chomping indent false b (m.down 1) s
    else if inside then
      scanBlockLines literal chomping indent true { b with out := c :: b.out } m.right s
    else if m.column < indent && c = ' ' then
      scanBlockLines literal chomping indent false b m.right s
    else if m.column < indent && c = '\t' then none
    else if m.column = indent then
      let b := b.begin literal c
      scanBlockLines literal chomping indent true { b with out := c :: b.out } m.right s
    else stop
termination_by s.length
decreasing_by all_goals (simp; try omega)

/-- Passes over the empty lines that a block scalar begins with: the widest of them, the breaks in
reverse, and the place behind them. A tab may not stand in for a space. -/
def scanBlockStart (widest : Nat) (breaks : List Char) (m : Mark) (s : List Char) :
    Option (Nat × List Char × Mark × List Char) :=
  match s with
  | [] => some (max widest m.column, breaks, m, [])
  | c :: s =>
    if c = ' ' then scanBlockStart widest breaks m.right s
    else if c = '\t' then none
    else if isBreak c then
      let widest := max widest m.column
      if isPair c s then scanBlockStart widest (breakValue c :: breaks) (m.down 2) (s.drop 1)
      else scanBlockStart widest (breakValue c :: breaks) (m.down 1) s
    else some (max widest m.column, breaks, m, c :: s)
termination_by s.length
decreasing_by all_goals (simp; try omega)

/-- The indicators of a block scalar, in either order: chomping, and how much deeper its lines are
indented. No deeper at all is refused. -/
def scanBlockHeader (s : List Char) : Option (Chomping × Option Nat × Nat) :=
  let chomping? : Option Char → Option Chomping
    | some '+' => some .keep
    | some '-' => some .strip
    | _ => none
  let digit? : Option Char → Option Nat
    | some c => if Json.isDigit c then some (Json.digitValue c) else none
    | none => none
  let first := s.head?
  let second := (s.drop 1).head?
  match chomping? first, digit? first with
  | some k, _ =>
    match digit? second with
    | some 0 => none
    | some n => some (k, some n, 2)
    | none => some (k, none, 1)
  | none, some 0 => none
  | none, some n =>
    match chomping? second with
    | some k => some (k, some n, 2)
    | none => some (.clip, some n, 1)
  | none, none => some (.clip, none, 0)

/-- Up to the end of the line: blanks, and then perhaps a comment. -/
def skipToBreak (m : Mark) (s : List Char) : Option (Mark × List Char) :=
  let blanks := (s.takeWhile isGap).length
  let rest := s.drop blanks
  let comment := if rest.head? = some '#' then (rest.takeWhile (!isBreak ·)).length else 0
  let rest := rest.drop comment
  if atBreak rest then some (m.rightBy (blanks + comment), rest) else none

/-- Over a line break, if one is there. -/
def skipBreak (m : Mark) : List Char → Mark × List Char
  | '\r' :: '\n' :: s => (m.down 2, s)
  | c :: s => if isBreak c then (m.down 1, s) else (m, c :: s)
  | [] => (m, [])

/-- A block scalar behind its indicator, in a collection indented by `parent`. -/
def scanBlock (literal : Bool) (parent : Int) (m : Mark) (s : List Char) : Option ScalarScan := do
  let (chomping, deeper, taken) ← scanBlockHeader s
  let (m, s) ← skipToBreak (m.rightBy taken) (s.drop taken)
  let (m, s) := skipBreak m s
  match deeper with
  | some n =>
    let indent := if 0 ≤ parent then parent.toNat + n else n
    scanBlockLines literal chomping indent false {} m s
  | none =>
    let (widest, breaks, m, s) ← scanBlockStart 0 [] m s
    let indent := max (max widest (parent + 1).toNat) 1
    scanBlockLines literal chomping indent false { more := breaks } m s

end RestRoutes.Yaml
