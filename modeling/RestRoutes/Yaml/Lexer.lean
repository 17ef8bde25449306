import RestRoutes.Yaml.Token

namespace RestRoutes.Yaml

/-- A place where a key may have begun, and the number of tokens before it. -/
structure KeyCandidate where
  /-- Nothing but a key may stand there. -/
  required : Bool
  before : Nat
  mark : Mark

structure Lexer where
  mark : Mark := {}
  rest : List Char
  tokens : List Token := []
  /-- The column of the innermost block collection, and of those around it. -/
  indent : Int := -1
  outer : List Int := []
  /-- A candidate for each open bracket or brace, innermost first, and at last for what is outside. -/
  candidates : List (Option KeyCandidate) := [none]
  keyAllowed : Bool := true

namespace Lexer

def inFlow (l : Lexer) : Bool := 1 < l.candidates.length

def push (l : Lexer) (kind : TokenKind) (stop : Mark) : Lexer :=
  { l with tokens := l.tokens ++ [⟨kind, l.mark, stop⟩] }

/-- Adds a token of `n` characters and goes behind it. -/
def take (l : Lexer) (kind : TokenKind) (n : Nat) : Lexer :=
  { l.push kind (l.mark.rightBy n) with mark := l.mark.rightBy n, rest := l.rest.drop n }

/-- Adds a token that was read ahead and goes behind it. -/
def accept (l : Lexer) (t : Scanned TokenKind) : Lexer :=
  { l.push t.value t.mark with mark := t.mark, rest := t.rest }

def allowKey (l : Lexer) (allowed : Bool) : Lexer := { l with keyAllowed := allowed }

/-- Gives up the innermost candidate, unless it had to be a key. -/
def dropCandidate (l : Lexer) : Option Lexer :=
  match l.candidates with
  | some c :: outer => if c.required then none else some { l with candidates := none :: outer }
  | _ => some l

/-- Takes what comes next for a candidate, if a key may stand here. -/
def addCandidate (l : Lexer) : Option Lexer :=
  if l.keyAllowed then do
    let l ← l.dropCandidate
    let required := !l.inFlow && l.indent = l.mark.column
    some { l with candidates := some ⟨required, l.tokens.length, l.mark⟩ :: l.candidates.drop 1 }
  else some l

/-- Gives up the candidates of earlier lines, and those too far back. -/
def settle (l : Lexer) : Option Lexer := do
  let candidates ← l.candidates.mapM fun
    | some c =>
      if c.mark.line < l.mark.line || c.mark.index + 1024 < l.mark.index then
        if c.required then none else some none
      else some (some c)
    | none => some none
  return { l with candidates }

/-- Opens a block collection at a column further in, before the token of that number. -/
def indentTo (l : Lexer) (column : Nat) (before : Nat) (kind : TokenKind) (mark : Mark) : Lexer :=
  if !l.inFlow && l.indent < column then
    { l with
      indent := column, outer := l.indent :: l.outer
      tokens := l.tokens.take before ++ ⟨kind, mark, mark⟩ :: l.tokens.drop before }
  else l

/-- Closes the block collections that are indented deeper than `column`. -/
def closeBlocks (column : Int) (mark : Mark) (indent : Int) :
    List Int → Int × List Int × List Token
  | [] => (indent, [], [])
  | i :: outer =>
    if column < indent then
      let (indent, outer, ends) := closeBlocks column mark i outer
      (indent, outer, ⟨.blockEnd, mark, mark⟩ :: ends)
    else (indent, i :: outer, [])

def dedentTo (l : Lexer) (column : Int) : Lexer :=
  if l.inFlow then l
  else
    let (indent, outer, ends) := closeBlocks column l.mark l.indent l.outer
    { l with indent, outer, tokens := l.tokens ++ ends }

/-- Passes over blanks, comments and line breaks. A tab may not indent. -/
def skipBlanks (flow : Bool) (keyAllowed : Bool) (m : Mark) (s : List Char) : Bool × Mark × List Char :=
  match s with
  | [] => (keyAllowed, m, [])
  | c :: s =>
    if c = ' ' || (c = '\t' && (flow || !keyAllowed)) then skipBlanks flow keyAllowed m.right s
    else if c = '\ufeff' && m.index = 0 then skipBlanks flow keyAllowed m.right s
    else if c = '#' then
      let comment := s.takeWhile (!isBreak ·)
      skipBlanks flow keyAllowed (m.rightBy (comment.length + 1)) (s.drop comment.length)
    else if isBreak c then
      if isPair c s then skipBlanks flow (keyAllowed || !flow) (m.down 2) (s.drop 1)
      else skipBlanks flow (keyAllowed || !flow) (m.down 1) s
    else (keyAllowed, m, c :: s)
termination_by s.length
decreasing_by all_goals (simp; try omega)

def skip (l : Lexer) : Lexer :=
  let (keyAllowed, mark, rest) := skipBlanks l.inFlow l.keyAllowed l.mark l.rest
  { l with keyAllowed, mark, rest }

/-- What ends everything that is indented: no key may go on over it. -/
def boundary (l : Lexer) : Option Lexer := do
  let l ← (l.dedentTo (-1)).dropCandidate
  return l.allowKey false

/-- The end of the text counts as the start of a line. -/
def finish (l : Lexer) : Option Lexer := do
  let mark := if l.mark.column = 0 then l.mark else { l.mark with line := l.mark.line + 1, column := 0 }
  let l ← { l with mark }.boundary
  return l.push .streamEnd mark

def directive (l : Lexer) : Option Lexer := do
  let l ← l.boundary
  let l := l.accept (← scanDirective l.mark.right (l.rest.drop 1))
  let (mark, rest) ← skipToBreak l.mark l.rest
  let (mark, rest) := skipBreak mark rest
  return { l with mark, rest }

def openFlow (l : Lexer) (kind : TokenKind) : Option Lexer := do
  let l ← l.addCandidate
  return ({ l with candidates := none :: l.candidates }.allowKey true).take kind 1

def closeFlow (l : Lexer) (kind : TokenKind) : Option Lexer := do
  let l ← l.dropCandidate
  let candidates := if l.inFlow then l.candidates.drop 1 else l.candidates
  return ({ l with candidates }.allowKey false).take kind 1

def comma (l : Lexer) : Option Lexer := do
  return ((← l.dropCandidate).allowKey true).take .comma 1

/-- Outside brackets an indicator of a block collection may open one here. -/
def openBlock (l : Lexer) (kind : TokenKind) : Option Lexer :=
  if l.inFlow then some l
  else if l.keyAllowed then some (l.indentTo l.mark.column l.tokens.length kind l.mark)
  else none

def hyphen (l : Lexer) : Option Lexer := do
  let l ← (← l.openBlock .blockSequence).dropCandidate
  return (l.allowKey true).take .hyphen 1

def questionMark (l : Lexer) : Option Lexer := do
  let l ← (← l.openBlock .blockMapping).dropCandidate
  return (l.allowKey !l.inFlow).take .key 1

/-- A colon makes the innermost candidate a key. -/
def colon (l : Lexer) : Option Lexer :=
  match l.candidates with
  | some c :: outer =>
    let tokens := l.tokens.take c.before ++ ⟨.key, c.mark, c.mark⟩ :: l.tokens.drop c.before
    let l := { l with tokens, candidates := none :: outer }
    let l := l.indentTo c.mark.column c.before .blockMapping c.mark
    some ((l.allowKey false).take .value 1)
  | _ => do
    let l ← l.openBlock .blockMapping
    return (l.allowKey !l.inFlow).take .value 1

/-- A token that may be, or begin, a key; behind it none may begin. -/
def property (l : Lexer) (scan : Option (Scanned TokenKind)) : Option Lexer := do
  let l ← l.addCandidate
  return (l.allowKey false).accept (← scan)

def named (l : Lexer) (kind : List Char → TokenKind) : Option Lexer :=
  l.property ((scanName l.mark.right (l.rest.drop 1)).map fun n => ⟨kind n.value, n.mark, n.rest⟩)

def scalar (plain : Bool) (s : ScalarScan) : Scanned TokenKind := ⟨.scalar s.value plain, s.mark, s.rest⟩

def quoted (l : Lexer) (double : Bool) : Option Lexer :=
  l.property ((scanQuoted double [] .none l.mark.right (l.rest.drop 1)).map (scalar false))

def block (l : Lexer) (literal : Bool) : Option Lexer := do
  let l ← l.dropCandidate
  return (l.allowKey true).accept
    (scalar false (← scanBlock literal l.indent l.mark.right (l.rest.drop 1)))

def plain (l : Lexer) : Option Lexer := do
  let l ← l.addCandidate
  let s ← scanPlain l.inFlow (l.indent + 1).toNat [] .none l.mark l.rest
  return (l.allowKey s.endsLine).accept (scalar true s)

/-- Whether a plain scalar may begin with the character. -/
def startsPlain (flow : Bool) (c : Char) (s : List Char) : Bool :=
  !(isGap c || isBreak c || "-?:,[]\x7b\x7d#&*!|>'\"%@`".toList.contains c) ||
    (c = '-' && !s.head?.any isGap) ||
    (!flow && (c = '?' || c = ':') && !atGap s)

/-- Reads the token that begins here. -/
def next (l : Lexer) : Option Lexer :=
  match l.rest with
  | [] => l.finish
  | c :: s =>
    if l.mark.column = 0 && c = '%' then l.directive
    else if l.mark.column = 0 && atDocumentLine (c :: s) then
      l.boundary.map (·.take (if c = '-' then .documentStart else .documentEnd) 3)
    else if c = '[' then l.openFlow .openBracket
    else if c = '\x7b' then l.openFlow .openBrace
    else if c = ']' then l.closeFlow .closeBracket
    else if c = '\x7d' then l.closeFlow .closeBrace
    else if c = ',' then l.comma
    else if c = '-' && atGap s then l.hyphen
    else if c = '?' && (l.inFlow || atGap s) then l.questionMark
    else if c = ':' && (l.inFlow || atGap s) then l.colon
    else if c = '*' then l.named .alias
    else if c = '&' then l.named .anchor
    else if c = '!' then l.property (scanTag l.inFlow l.mark l.rest)
    else if (c = '|' || c = '>') && !l.inFlow then l.block (c = '|')
    else if c = '\'' || c = '"' then l.quoted (c = '"')
    else if startsPlain l.inFlow c s then l.plain
    else none

/-- One token further: what is further in than the token is closed before it. -/
def step (l : Lexer) : Option Lexer := do
  let l ← l.skip.settle
  (← (l.dedentTo l.mark.column).next).settle

/-- The tokens that no key can come before any more. -/
def settled (l : Lexer) : List Token :=
  let open? := l.candidates.filterMap (·.map KeyCandidate.before)
  l.tokens.take (open?.foldl min l.tokens.length)

/-- Reads on to the end of the text. Each step takes a character or is the last, so that as many steps as
characters and one more are enough. -/
def run : Nat → Lexer → Lexer
  | 0, l => l
  | n + 1, l =>
    match l.step with
    | none => l
    | some next => if l.skip.rest.isEmpty then next else run n next

end Lexer

/-- The tokens of a text. Nothing is read of a text that holds a character which none may hold. -/
def tokens (text : List Char) : List Token :=
  let text := if text.head? = some '\ufeff' then text.drop 1 else text
  if text.all isAllowed then (({ rest := text } : Lexer).run (text.length + 1)).settled else []

end RestRoutes.Yaml
