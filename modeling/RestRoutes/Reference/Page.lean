import RestRoutes.Reference.Entry

namespace RestRoutes.Page

inductive Piece where
  | markup (s : String)
  | text (s : String)
  deriving DecidableEq, Repr

/-- The characters that mean something in markup are written by their numbers. -/
def escapedChar (c : Char) : List Char :=
  match c with
  | '&' => ['&', '#', '3', '8', ';']
  | '<' => ['&', '#', '6', '0', ';']
  | '>' => ['&', '#', '6', '2', ';']
  | '"' => ['&', '#', '3', '4', ';']
  | '\'' => ['&', '#', '3', '9', ';']
  | _ => [c]

def escape (s : List Char) : List Char := s.flatMap escapedChar

def Piece.render : Piece → List Char
  | .markup s => s.toList
  | .text s => escape s.toList

def render (pieces : List Piece) : List Char := pieces.flatMap Piece.render

structure Row where
  name : String
  type : String
  description : String
  deriving DecidableEq, Repr

/-- What a page shows of an entry. -/
structure Section where
  anchor : String
  method : String
  path : String
  purpose : Option String
  input : List Row
  output : List Row
  source : Option String
  deriving DecidableEq, Repr

def rows (t : FieldTable) : List Row := t.map fun (name, e) => ⟨name, e.type, e.description⟩

/-- Where a block is, with what it documents. -/
def sourceOf (b : Block) : String :=
  b.qualifiedName ++ " (" ++ b.location.file ++ ":" ++ toString b.location.first ++ ")"

def Section.ofEntry (e : ReferenceEntry) : Section where
  anchor := e.key
  method := e.method.name
  path := e.path
  purpose := e.purpose
  input := rows e.input
  output := rows e.output
  source := e.block.map sourceOf

open Page.Piece

def rowPieces (r : Row) : List Piece := [
  markup "\n    <tr><td><code>", text r.name,
  markup "</code></td><td>", text r.type,
  markup "</td><td>", text r.description,
  markup "</td></tr>\n    "]

/-- A table of fields, or a word in its place when there are none. -/
def tablePieces (rows : List Row) : List Piece :=
  if rows.isEmpty then [markup "\n  <p class=\"empty\">No fields.</p>\n  "]
  else
    markup
        "\n  <table>\n    <tr><th>Field</th><th>Type</th><th>Description</th></tr>\n    " ::
      rows.flatMap rowPieces ++ [markup "\n  </table>\n  "]

/-- A paragraph that is left out when there is nothing to say. -/
def paragraph (opening : String) : Option String → List Piece
  | none => []
  | some s => [markup opening, text s, markup "</p>"]

def sectionPieces (s : Section) : List Piece :=
  [markup "\n<section class=\"route\" id=\"", text s.anchor,
    markup "\">\n  <h2><span class=\"method\">", text s.method,
    markup "</span> <code>", text s.path,
    markup "</code></h2>\n  "] ++
  paragraph "<p class=\"purpose\">" s.purpose ++
  markup "\n  <h3>json_input</h3>\n  " :: tablePieces s.input ++
  markup "\n  <h3>json_output</h3>\n  " :: tablePieces s.output ++
  markup "\n  " :: paragraph "<p class=\"source\">Documented at " s.source ++
  [markup "\n</section>\n"]

def style : String :=
  "  body \x7b font-family: sans-serif; margin: 2em auto; max-width: 60em; \x7d\n" ++
  "  section.route \x7b border-top: 1px solid #ccc; padding-top: 1em; \x7d\n" ++
  "  span.method \x7b font-weight: bold; text-transform: uppercase; \x7d\n" ++
  "  table \x7b border-collapse: collapse; margin-bottom: 1em; \x7d\n" ++
  "  th, td \x7b border: 1px solid #ccc; padding: 0.25em 0.5em; text-align: left; \x7d\n" ++
  "  p.empty \x7b color: #777; font-style: italic; \x7d\n" ++
  "  p.source \x7b color: #777; font-size: small; \x7d\n"

def pieces (title : String) (sections : List Section) : List Piece :=
  [markup
      "<!DOCTYPE html>\n<html lang=\"en\">\n<head>\n<meta charset=\"utf-8\">\n<title>",
    text title,
    markup ("</title>\n<style>\n" ++ style ++ "</style>\n</head>\n<body>\n<h1>"),
    text title,
    markup "</h1>\n"] ++
  sections.flatMap sectionPieces ++
  [markup "\n</body>\n</html>"]

/-- The page of the entries under a title. -/
def ofEntries (title : String) (entries : List ReferenceEntry) : String :=
  String.ofList (render (pieces title (entries.map Section.ofEntry)))

end RestRoutes.Page
