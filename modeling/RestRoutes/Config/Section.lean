import RestRoutes.Config.Error
import RestRoutes.Yaml.Document
import RestRoutes.Yaml.Plain

namespace RestRoutes.Config

open Yaml

/-- What every reader of a node needs: the document's root for aliases, the place of the section around,
and the names that lead to the node. -/
structure Context where
  root : Node
  owner : ConfigPlace
  path : String

abbrev Read (α : Type) := Except ConfigProblem α

def Context.here (c : Context) (h : Head) : ConfigPlace := ⟨h.mark, c.path⟩

def Context.item (c : Context) (i : Nat) : Context :=
  { c with path := c.path ++ "[" ++ toString i ++ "]" }

/-- The context of a value in a section. A name given by an alias does not show. -/
def Context.value (c : Context) (owner : ConfigPlace) (key : Node) (name : String) : Context :=
  let name := match key with
    | .alias .. => "?"
    | _ => name
  { c with owner, path := if c.path.isEmpty then name else c.path ++ "." ++ name }

def refuse {α : Type} (fault : ConfigFault) (place : ConfigPlace) : Read α := .error (.unfit fault place)

/-- What is wrong with a scalar where `expected` should stand. -/
def scalarFault (tag : Option (List UInt8)) (plain : Bool) (text expected : String) : ConfigFault :=
  match tag.bind CoreTag.ofTag? with
  | some t =>
    match t.read? text with
    | some v => .type v.described expected
    | none => .value text t.expected
  | none =>
    let v := if plain && tag.all isLocalTag then Plain.ofText text else .text text
    .type v.described expected

/-- What is wrong with a node where `expected` should stand. -/
def unexpected {α : Type} (c : Context) (expected : String) : Node → Read α
  | .scalar h plain text => refuse (scalarFault h.tag plain text expected) (c.here h)
  | .sequence h _ => refuse (.type "sequence" expected) (c.here h)
  | .mapping h _ => refuse (.type "map" expected) (c.here h)
  | .alias .. | .cut => .error .malformed

/-- The text of any scalar, whatever its tag. -/
def textAs (expected : String) (c : Context) (n : Node) : Read String :=
  match n.deref c.root with
  | .scalar _ _ text => .ok text
  | n => unexpected c expected n

def readText (c : Context) (n : Node) : Read String := textAs "a string" c n

def readItems {α : Type} (read : Context → Node → Read α) (c : Context) (i : Nat) :
    List Node → Read (List α)
  | [] => .ok []
  | n :: rest => do
    let v ← read (c.item i) n
    return v :: (← readItems read c (i + 1) rest)

/-- Nothing at all, where a plain scalar could be. -/
def isEmptyScalar (plain : Bool) (text : String) : Bool := plain && text.isEmpty

def readList {α : Type} (read : Context → Node → Read α) (c : Context) (n : Node) : Read (List α) :=
  match n.deref c.root with
  | .sequence _ items => readItems read c 0 items
  | .scalar h plain text =>
    if isEmptyScalar plain text then .ok [] else unexpected c "a sequence" (.scalar h plain text)
  | n => unexpected c "a sequence" n

/-- A value that may be null. -/
def readOptional {α : Type} (read : Context → Node → Read α) (c : Context) (n : Node) :
    Read (Option α) :=
  let absent := match n.deref c.root with
    | .scalar h true text =>
      match h.tag with
      | none => .ok (text.isEmpty || Plain.isNull text)
      | some t =>
        if CoreTag.ofTag? t = some .null then
          if Plain.isNull text then .ok true else refuse (.value text "null") c.owner
        else .ok false
    | _ => .ok false
  do if ← absent then return none else return some (← read c n)

/-- One of several names: an application's tag before nothing, or else a scalar. -/
def readChoice {α : Type} (choices : List (String × α)) (c : Context) (n : Node) : Read α :=
  let unknown (name : String) : ConfigFault := .unknownChoice name (choices.map Prod.fst)
  let n := n.deref c.root
  match n.head?.bind fun h => h.tag.bind localName? with
  | some name =>
    match choices.lookup name, n with
    | none, _ => refuse (unknown name) c.owner
    | some v, .scalar h plain text =>
      if plain && (text.isEmpty || Plain.isNull text) then .ok v
      else refuse (.value text "null") (c.here h)
    | some _, n => unexpected c "unit" n
  | none =>
    match n with
    | .scalar h _ text =>
      match choices.lookup text with
      | some v => .ok v
      | none => refuse (unknown text) (c.here h)
    | n => unexpected c "a YAML tag starting with '!'" n

/-- A named value of a section, and how it is written into the section. -/
structure Setting (ρ : Type) where
  name : String
  write : Context → Node → ρ → Read ρ

structure Section (ρ : Type) where
  title : String
  settings : List (Setting ρ)

/-- A setting that is read by itself. -/
def Setting.of {ρ α : Type} (name : String) (read : Context → Node → Read α) (put : ρ → α → ρ) :
    Setting ρ :=
  ⟨name, fun c n r => return put r (← read c n)⟩

/-- The entries of a section in their order; the names in `seen` are taken. -/
def Section.readEntries {ρ : Type} (s : Section ρ) (c : Context) (place : ConfigPlace)
    (seen : List String) (r : ρ) : List (Node × Node) → Read ρ
  | [] => .ok r
  | (key, value) :: rest => do
    let name ← textAs "field identifier" c key
    match s.settings.find? (·.name = name) with
    | none =>
      refuse (.unknownField name (s.settings.map (·.name))) ⟨(key.deref c.root).mark, c.path⟩
    | some setting =>
      if name ∈ seen then refuse (.duplicateField name) place
      let r ← setting.write (c.value place key name) value r
      s.readEntries c place (name :: seen) r rest

def Section.read {ρ : Type} (s : Section ρ) (r : ρ) (c : Context) (n : Node) : Read ρ :=
  let expected := "struct " ++ s.title
  match n.deref c.root with
  | .mapping h entries => s.readEntries c (c.here h) [] r entries
  | .scalar h plain text =>
    if isEmptyScalar plain text then .ok r else unexpected c expected (.scalar h plain text)
  | n => unexpected c expected n

end RestRoutes.Config
