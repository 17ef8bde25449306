namespace RestRoutes

inductive Method where
  | get
  | put
  | post
  | delete
  | options
  | head
  | patch
  | trace
  deriving DecidableEq, Repr, Inhabited

namespace Method

def all : List Method := [.get, .put, .post, .delete, .options, .head, .patch, .trace]

/-- The name of the method as a member of a path item. -/
def key : Method → String
  | .get => "get"
  | .put => "put"
  | .post => "post"
  | .delete => "delete"
  | .options => "options"
  | .head => "head"
  | .patch => "patch"
  | .trace => "trace"

def name : Method → String
  | .get => "GET"
  | .put => "PUT"
  | .post => "POST"
  | .delete => "DELETE"
  | .options => "OPTIONS"
  | .head => "HEAD"
  | .patch => "PATCH"
  | .trace => "TRACE"

/-- ASCII capitals as small letters; nothing else changes. -/
def lowerAscii (s : String) : String := String.ofList (s.toList.map Char.toLower)

/-- The method that a member of a path item is for; the letters' case does not matter. -/
def ofKey? (member : String) : Option Method := all.find? (·.key = lowerAscii member)

/-- Whether a request of this method has a JSON body that the handler reads. -/
def carriesBody : Method → Bool
  | .post => true
  | .put => true
  | _ => false

theorem ofKey?_key (m : Method) : ofKey? m.key = some m := by cases m <;> decide

theorem ofKey?_name (m : Method) : ofKey? m.name = some m := by cases m <;> decide

/-- The case of ASCII letters does not matter, and nothing else is passed over. -/
theorem ofKey?_eq_some_iff {member : String} {m : Method} :
    ofKey? member = some m ↔ lowerAscii member = m.key := by
  constructor
  · intro h
    have hkey := List.find?_some h
    exact (of_decide_eq_true hkey).symm
  · intro h
    rw [ofKey?, h]
    cases m <;> rfl

end Method

end RestRoutes
