import RestRoutes.Text.Word
import RestRoutes.Text.Blank

namespace RestRoutes

structure Definition where
  type : List Char
  method : List Char
  deriving DecidableEq, Repr

namespace Definition

/-- An identifier at the start of a text, as long as it goes on, and what follows it. -/
def identifier? : List Char → Option (List Char × List Char)
  | [] => none
  | c :: s =>
    if Text.isIdentifierStart c then some (c :: s.takeWhile Text.isWord, s.dropWhile Text.isWord)
    else none

theorem length_of_identifier? {s id rest : List Char} (h : identifier? s = some (id, rest)) :
    rest.length < s.length := by
  cases s with
  | nil => simp [identifier?] at h
  | cons c s =>
    simp only [identifier?] at h
    split at h
    · simp only [Option.some.injEq, Prod.mk.injEq] at h
      have := (List.dropWhile_suffix Text.isWord (l := s)).length_le
      simp [← h.2]; omega
    · simp at h

/-- Whether an opening bracket comes next, perhaps behind white space. -/
def opens (s : List Char) : Bool := (Text.trimStart s).head? = some '('

/-- The definition that begins right here: identifiers joined by `::`, the last one perhaps a
destructor's, then an opening bracket. -/
def here? (s : List Char) : Option Definition :=
  match _h : identifier? s with
  | some (type, ':' :: ':' :: '~' :: rest) =>
    match identifier? rest with
    | some (name, rest) => if opens rest then some ⟨type, '~' :: name⟩ else none
    | none => none
  | some (type, ':' :: ':' :: rest) =>
    match identifier? rest with
    | some (_, ':' :: ':' :: _) => here? rest
    | some (name, after) => if opens after then some ⟨type, name⟩ else none
    | none => none
  | _ => none
termination_by s.length
decreasing_by
  have := length_of_identifier? _h
  simp at this; omega

/-- The first definition of a text that does not begin inside a word; `inWord` says that the text goes
on with one. -/
def findFrom? (inWord : Bool) : List Char → Option Definition
  | [] => none
  | c :: s =>
    match if inWord then none else here? (c :: s) with
    | some d => some d
    | none => findFrom? (Text.isWord c) s

def find? (line : List Char) : Option Definition := findFrom? false line

def qualifiedName (d : Definition) : List Char := d.type ++ [':', ':'] ++ d.method

end Definition

end RestRoutes
