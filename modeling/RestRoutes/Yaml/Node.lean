import RestRoutes.Table
import RestRoutes.Yaml.Lexer

namespace RestRoutes.Yaml

/-- What stands before the content of a node. An anchor is known by its number. -/
structure Head where
  mark : Mark
  anchor : Option Nat := none
  tag : Option (List UInt8) := none
  deriving DecidableEq, Repr

inductive Node where
  | scalar (head : Head) (plain : Bool) (text : String)
  | sequence (head : Head) (items : List Node)
  | mapping (head : Head) (entries : List (Node × Node))
  | alias (mark : Mark) (anchor : Nat)
  | cut
  deriving Repr

namespace Node

def head? : Node → Option Head
  | .scalar h .. => some h
  | .sequence h _ => some h
  | .mapping h _ => some h
  | .alias .. | .cut => none

def mark : Node → Mark
  | .scalar h .. => h.mark
  | .sequence h _ => h.mark
  | .mapping h _ => h.mark
  | .alias m _ => m
  | .cut => {}

mutual

/-- The nodes with an anchor of that number, in the order in which they begin. -/
def anchored (anchor : Nat) : Node → List Node
  | .scalar h p t => if h.anchor = some anchor then [.scalar h p t] else []
  | .sequence h items =>
    (if h.anchor = some anchor then [.sequence h items] else []) ++ anchoredItems anchor items
  | .mapping h entries =>
    (if h.anchor = some anchor then [.mapping h entries] else []) ++ anchoredEntries anchor entries
  | .alias .. | .cut => []

def anchoredItems (anchor : Nat) : List Node → List Node
  | [] => []
  | n :: items => anchored anchor n ++ anchoredItems anchor items

def anchoredEntries (anchor : Nat) : List (Node × Node) → List Node
  | [] => []
  | (k, v) :: entries => anchored anchor k ++ anchored anchor v ++ anchoredEntries anchor entries

end

/-- What a node stands for in the document `root`: an alias stands for the last node with its anchor. -/
def deref (n root : Node) : Node :=
  match n with
  | .alias _ anchor => (anchored anchor root).getLast?.getD .cut
  | n => n

end Node

/-- The tokens still to be read, and the numbers of the anchors so far. Without tokens, not even the end of
the text, everything is malformed. -/
structure Composer where
  tokens : List Token
  anchors : Table Nat := []

namespace Composer

abbrev Compose := StateM Composer

def peek : Compose (Option Token) := return (← get).tokens.head?

def skip : Compose Unit := modify fun c => { c with tokens := c.tokens.drop 1 }

/-- Whether the next token is one of those. -/
def nextIs (kinds : List TokenKind) : Compose Bool :=
  return ((← peek).map Token.kind).any kinds.contains

def fault : Compose Node := do
  modify fun c => { c with tokens := [] }
  return .cut

def empty (mark : Mark) : Node := .scalar { mark } true ""

/-- An empty scalar where the next token begins. -/
def emptyHere : Compose Node := do
  match ← peek with
  | some t => return empty t.start
  | none => fault

/-- A further anchor takes the number of distinct names before it. -/
def declare (name : String) : Compose Nat := do
  let c ← get
  let number := c.anchors.length
  set { c with anchors := c.anchors.put name number }
  return number

/-- The handles that need no directive. -/
def commonHandles : List (List Char × List UInt8) :=
  [(['!'], Text.Utf8.encode ['!']), (['!', '!'], Text.Utf8.encode "tag:yaml.org,2002:".toList)]

/-- Tags without a handle stand for themselves. -/
def expandTag (handles : List (List Char × List UInt8)) (handle : List Char) (ending : List UInt8) :
    Option (List UInt8) :=
  if handle.isEmpty then some ending
  else ((handles ++ commonHandles).lookup handle).map (· ++ ending)

/-- An anchor and a tag, each at most once and in either order. -/
def properties : List Token → Option (List Char) × Option (List Char × List UInt8) × List Token
  | ⟨.anchor a, _, _⟩ :: ⟨.tag h e, _, _⟩ :: ts => (some a, some (h, e), ts)
  | ⟨.tag h e, _, _⟩ :: ⟨.anchor a, _, _⟩ :: ts => (some a, some (h, e), ts)
  | ⟨.anchor a, _, _⟩ :: ts => (some a, none, ts)
  | ⟨.tag h e, _, _⟩ :: ts => (none, some (h, e), ts)
  | ts => (none, none, ts)

/-- The tag that leaves a scalar as it is. -/
def plainTag : List UInt8 := Text.Utf8.encode ['!']

variable (handles : List (List Char × List UInt8))

mutual

/-- A node. Only outside brackets may it be a block collection, and only in a block mapping a sequence that
is not indented. -/
def node (block indentless : Bool) : Nat → Compose Node
  | 0 => fault
  | fuel + 1 => do
    let c ← get
    match c.tokens with
    | [] => fault
    | ⟨.alias name, start, _⟩ :: _ =>
      skip
      match c.anchors.get? (String.ofList name) with
      | some number => return .alias start number
      | none => fault
    | first :: _ =>
      let (anchor, tag, rest) := properties c.tokens
      let expanded := tag.map fun (h, e) => expandTag handles h e
      match rest, expanded with
      | [], _ | _, some none => fault
      | t :: rest, _ =>
        let tag := expanded.bind id
        let begin (rest : List Token) : Compose Head := do
          modify fun c => { c with tokens := rest }
          return { mark := first.start, anchor := ← (anchor.map String.ofList).mapM declare, tag }
        match t.kind with
        | .scalar text plain =>
          let head ← begin rest
          let head := if tag = some plainTag then { head with tag := none } else head
          return .scalar head plain (String.ofList text)
        | .openBracket => return .sequence (← begin rest) (← flowItems true fuel)
        | .openBrace => return .mapping (← begin rest) (← flowEntries true fuel)
        | kind =>
          if kind = .hyphen && indentless then
            return .sequence (← begin (t :: rest)) (← indentlessItems fuel)
          else if kind = .blockSequence && block then
            return .sequence (← begin rest) (← blockItems fuel)
          else if kind = .blockMapping && block then
            return .mapping (← begin rest) (← blockEntries fuel)
          else if anchor.isSome || tag.isSome then
            return .scalar (← begin (t :: rest)) true ""
          else fault

def blockItems : Nat → Compose (List Node)
  | 0 => return [← fault]
  | fuel + 1 => do
    match ← peek with
    | some ⟨.hyphen, _, stop⟩ =>
      skip
      let item ← if ← nextIs [.hyphen, .blockEnd] then pure (empty stop) else node true false fuel
      return item :: (← blockItems fuel)
    | some ⟨.blockEnd, _, _⟩ => skip; return []
    | _ => return [← fault]

/-- The items of a sequence that a mapping holds at its own column. -/
def indentlessItems : Nat → Compose (List Node)
  | 0 => return [← fault]
  | fuel + 1 => do
    match ← peek with
    | some ⟨.hyphen, _, stop⟩ =>
      skip
      let item ← if ← nextIs [.hyphen, .key, .value, .blockEnd] then pure (empty stop)
        else node true false fuel
      return item :: (← indentlessItems fuel)
    | some _ => return []
    | none => return [← fault]

def blockEntries : Nat → Compose (List (Node × Node))
  | 0 => return [(← fault, .cut)]
  | fuel + 1 => do
    match ← peek with
    | some ⟨.key, _, stop⟩ =>
      skip
      let key ← if ← nextIs [.key, .value, .blockEnd] then pure (empty stop) else node true true fuel
      let value ← match ← peek with
        | some ⟨.value, _, stop⟩ =>
          skip
          if ← nextIs [.key, .value, .blockEnd] then pure (empty stop) else node true true fuel
        | _ => emptyHere
      return (key, value) :: (← blockEntries fuel)
    | some ⟨.blockEnd, _, _⟩ => skip; return []
    | _ => return [(← fault, .cut)]

/-- The value of an entry inside brackets or braces; it ends where `close` stands. -/
def flowValue (close : TokenKind) : Nat → Compose Node
  | 0 => fault
  | fuel + 1 => do
    if ← nextIs [.value] then
      skip
      if ← nextIs [.comma, close] then emptyHere else node false false fuel
    else emptyHere

/-- One entry of a mapping without braces. -/
def flowPair (start : Mark) : Nat → Compose Node
  | 0 => fault
  | fuel + 1 => do
    let key ← match ← peek with
      | some t =>
        if t.kind = .value || t.kind = .comma || t.kind = .closeBracket then
          skip
          pure (empty t.stop)
        else node false false fuel
      | none => fault
    return .mapping { mark := start } [(key, ← flowValue .closeBracket fuel)]

def flowItems (first : Bool) : Nat → Compose (List Node)
  | 0 => return [← fault]
  | fuel + 1 => do
    if ← nextIs [.closeBracket] then
      skip
      return []
    if !first then
      if ← nextIs [.comma] then skip else return [← fault]
    match ← peek with
    | some ⟨.closeBracket, _, _⟩ => skip; return []
    | some ⟨.key, start, _⟩ =>
      skip
      let item ← flowPair start fuel
      return item :: (← flowItems false fuel)
    | _ =>
      let item ← node false false fuel
      return item :: (← flowItems false fuel)

def flowEntries (first : Bool) : Nat → Compose (List (Node × Node))
  | 0 => return [(← fault, .cut)]
  | fuel + 1 => do
    if ← nextIs [.closeBrace] then
      skip
      return []
    if !first then
      if ← nextIs [.comma] then skip else return [(← fault, .cut)]
    match ← peek with
    | some ⟨.closeBrace, _, _⟩ => skip; return []
    | some ⟨.key, _, _⟩ =>
      skip
      let key ← if ← nextIs [.value, .comma, .closeBrace] then emptyHere else node false false fuel
      let value ← flowValue .closeBrace fuel
      return (key, value) :: (← flowEntries false fuel)
    | _ =>
      let key ← node false false fuel
      let value ← emptyHere
      return (key, value) :: (← flowEntries false fuel)

end

end Composer

end RestRoutes.Yaml
