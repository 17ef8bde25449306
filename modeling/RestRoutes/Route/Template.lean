import RestRoutes.Text.Utf8

namespace RestRoutes.Template

/-- Offsets count bytes. -/
inductive Error where
  | nested (offset : Nat)
  | unmatched (offset : Nat)
  | empty (offset : Nat)
  | repeated (name : String)
  | unterminated
  deriving DecidableEq, Repr

def Error.message : Error → String
  | .nested offset => "nested '\x7b' at offset " ++ toString offset
  | .unmatched offset => "unmatched '\x7d' at offset " ++ toString offset
  | .empty offset => "empty placeholder at offset " ++ toString offset
  | .repeated name => "placeholder '\x7b" ++ name ++ "\x7d' appears more than once"
  | .unterminated => "unterminated '\x7b' placeholder"

/-- The names in a text behind `offset` bytes. `done` holds the names before it, and `inside` the part
of an open placeholder's name that is read, in reverse. -/
def placeholdersFrom (offset : Nat) (done : List String) (inside : Option (List Char)) :
    List Char → Except Error (List String)
  | [] => if inside.isSome then .error .unterminated else .ok done
  | c :: s =>
    if c = '\x7b' then
      match inside with
      | some _ => .error (.nested offset)
      | none => placeholdersFrom (offset + 1) done (some []) s
    else if c = '\x7d' then
      match inside with
      | none => .error (.unmatched offset)
      | some [] => .error (.empty (offset - 1))
      | some letters =>
        let name := String.ofList letters.reverse
        if name ∈ done then .error (.repeated name)
        else placeholdersFrom (offset + 1) (done ++ [name]) none s
    else
      placeholdersFrom (offset + (Text.Utf8.encodeChar c).length) done (inside.map (c :: ·)) s

/-- The names of the placeholders of a template in their order. -/
def placeholders (path : String) : Except Error (List String) :=
  placeholdersFrom 0 [] none path.toList

/-- Puts the slots in place of the placeholders, as long as there are any. -/
def substituteFrom (inside : Bool) (slots : List (List Char)) : List Char → List Char
  | [] => []
  | c :: s =>
    if c = '\x7b' then substituteFrom true slots s
    else if c = '\x7d' then
      '<' :: slots.headD [] ++ '>' :: substituteFrom false slots.tail s
    else if inside then substituteFrom true slots s
    else c :: substituteFrom false slots s

/-- A template with each placeholder replaced by its slot in angle brackets. -/
def substitute (path : String) (slots : List String) : String :=
  String.ofList (substituteFrom false (slots.map String.toList) path.toList)

end RestRoutes.Template
