import RestRoutes.Json.Value
import RestRoutes.Route.Build

namespace RestRoutes

/-- A letter or an underscore, and then letters, digits and underscores. -/
def isPlainIdentifier : List Char → Bool
  | [] => false
  | c :: s => (c.isAlpha || c = '_') && s.all fun c => c.isAlphanum || c = '_'

/-- What is known of names besides the reserved words of a language. -/
structure Lexicon where
  /-- Whether a text with characters beyond ASCII is an identifier, and in its normal form. -/
  wide : String → Bool
  /-- Names that are not to be had: those of macros, and words that only some versions reserve. -/
  taken : List String
  /-- The handlers' own names are to be had. -/
  own : ∀ name ∈ ["req", "json", "req_json", "res", "path", "body"], name ∉ taken

/-- Whether a variable can have this name in a language with these reserved words. -/
def isIdentifier (reserved : List String) (lex : Lexicon) (name : String) : Bool :=
  name ∉ reserved && name ∉ lex.taken &&
    if name.toList.all (·.toNat < 0x80) then isPlainIdentifier name.toList else lex.wide name

/-- What a name stands for. -/
inductive Meaning where
  /-- The request, by its body. -/
  | request (body : Table Json)
  /-- All path values together. -/
  | values (vs : List Json)
  | value (v : Json)
  /-- The JSON to be passed on, and whether it may be changed. -/
  | object (mutable : Bool) (members : Table Json)
  | response

/-- The latest declaration of a name stands first. -/
abbrev Scope := Table Meaning

namespace Scope

def body? (sc : Scope) (name : String) : Option (Table Json) :=
  match sc.get? name with
  | some (.request body) => some body
  | _ => none

/-- What the JSON of a request starts from: the body of what the name stands for, or an empty object. -/
def source (sc : Scope) (parsed : Bool) (name : String) : Option (Table Json) :=
  if parsed then sc.body? name else some []

def value? (sc : Scope) (name : String) : Option Json :=
  match sc.get? name with
  | some (.value v) => some v
  | _ => none

def object? (sc : Scope) (name : String) : Option (Table Json) :=
  match sc.get? name with
  | some (.object _ members) => some members
  | _ => none

def hasResponse (sc : Scope) (name : String) : Bool :=
  match sc.get? name with
  | some .response => true
  | _ => false

/-- The member is added to the JSON, which has to be changeable. -/
def assign (sc : Scope) (member : String) (v : Json) : Option Scope :=
  match sc.get? "req_json" with
  | some (.object true members) => some (sc.put "req_json" (.object true (members.put member v)))
  | _ => none

end Scope

/-- A handler as it runs. -/
structure Run where
  scope : Scope
  /-- What the dispatcher is called with. -/
  passed : Option (String × Table Json) := none

namespace Route

/-- The names of the path values. -/
def valueNames (r : Route) : List String := r.parameters.map (·.name)

/-- What the JSON of a request starts from. -/
def received (r : Route) (body : Table Json) : Table Json := if r.method.carriesBody then body else []

/-- What is to be passed on: the request and, under their names, the path values. -/
def delivered (r : Route) (body : Table Json) (values : List Json) : Table Json :=
  (r.received body).putAll (r.valueNames.zip values)

end Route

section

variable {α σ : Type} {step : σ → α → Option σ} {s t : σ} {x : α} {xs ys : List α}

theorem foldlM_cons_eq_some_iff : (x :: xs).foldlM step s = some t ↔
    ∃ u, step s x = some u ∧ xs.foldlM step u = some t := by
  rw [List.foldlM_cons]
  exact Option.bind_eq_some_iff

theorem foldlM_append_eq_some_iff : (xs ++ ys).foldlM step s = some t ↔
    ∃ u, xs.foldlM step s = some u ∧ ys.foldlM step u = some t := by
  rw [List.foldlM_append]
  exact Option.bind_eq_some_iff

theorem guard_eq_some_iff {b : Prop} [Decidable b] {u : Unit} : (guard b : Option Unit) = some u ↔ b := by
  unfold guard
  split
  · simpa
  · simpa

end

namespace Scope

variable {sc sc' : Scope} {name : String} {names : List String} {v : Json}
  {read : Scope → String → Option Json}

theorem value?_of_get? (h : sc.get? name = some (.value v)) : sc.value? name = some v := by
  rw [value?, h]

theorem value?_put_of_ne (m : Meaning) (h : name ≠ "req_json") :
    Scope.value? (sc.put "req_json" m) name = sc.value? name := by
  rw [value?, value?, Table.get?_put_of_ne _ _ h.symm]

theorem assign_eq_some_iff : sc.assign name v = some sc' ↔ ∃ members,
    sc.get? "req_json" = some (.object true members) ∧
      sc.put "req_json" (.object true (members.put name v)) = sc' := by
  unfold assign
  constructor
  · intro h
    split at h
    · rename_i members hobject
      exact ⟨members, hobject, Option.some.inj h⟩
    · cases h
  · rintro ⟨members, hobject, rfl⟩
    rw [hobject]

/-- What is read for a variable is added to the JSON under the variable's name. -/
def assignFrom (read : Scope → String → Option Json) (sc : Scope) (name : String) : Option Scope := do
  let v ← read sc name
  sc.assign name v

def assignAll (read : Scope → String → Option Json) (sc : Scope) (names : List String) : Option Scope :=
  names.foldlM (assignFrom read) sc

theorem assignFrom_eq_some_iff : assignFrom read sc name = some sc' ↔ ∃ v members,
    read sc name = some v ∧ sc.get? "req_json" = some (.object true members) ∧
      sc.put "req_json" (.object true (members.put name v)) = sc' := by
  unfold assignFrom
  simp only [Option.bind_eq_bind, Option.bind_eq_some_iff, assign_eq_some_iff, exists_and_left]

/-- No name is declared or lost. -/
theorem names_assignAll (h : sc.assignAll read names = some sc') : Table.names sc' = Table.names sc := by
  induction names generalizing sc with
  | nil =>
    cases h
    rfl
  | cons name names ih =>
    obtain ⟨next, hnext, h⟩ := foldlM_cons_eq_some_iff.mp h
    obtain ⟨v, members, -, hobject, rfl⟩ := assignFrom_eq_some_iff.mp hnext
    have hdeclared : "req_json" ∈ Table.names sc := by simp [Table.mem_names_iff, hobject]
    rw [ih h, Table.names_put, if_pos hdeclared]

/-- All that is read is added, when reading does not depend on the JSON. -/
theorem assignAll_eq_some {members : Table Json} {values : List (String × Json)}
    (hobject : sc.get? "req_json" = some (.object true members))
    (hvalues : ∀ x ∈ values, read sc x.1 = some x.2)
    (hread : ∀ x ∈ values, ∀ sc m, read (Table.put sc "req_json" m) x.1 = read sc x.1) :
    ∃ sc', sc.assignAll read (values.map Prod.fst) = some sc' ∧
      sc'.object? "req_json" = some (members.putAll values) := by
  induction values generalizing sc members with
  | nil =>
    refine ⟨sc, rfl, ?_⟩
    rw [object?, hobject]
    rfl
  | cons x values ih =>
    obtain ⟨hx, hvalues⟩ := List.forall_mem_cons.mp hvalues
    obtain ⟨-, hread⟩ := List.forall_mem_cons.mp hread
    have hnext : assignFrom read sc x.1 = some _ :=
      assignFrom_eq_some_iff.mpr ⟨x.2, members, hx, hobject, rfl⟩
    have hvalues' : ∀ y ∈ values,
        read (sc.put "req_json" (.object true (members.put x.1 x.2))) y.1 = some y.2 := by
      intro y hy
      rw [hread y hy, hvalues y hy]
    obtain ⟨sc', h, hobject'⟩ := ih (Table.get?_put_self _ _ _) hvalues' hread
    exact ⟨sc', foldlM_cons_eq_some_iff.mpr ⟨_, hnext, h⟩, hobject'⟩

end Scope

/-- Statements that only assign change the scope and nothing else. -/
theorem foldlM_assign {σ : Type} {run : Run → σ → Option Run} {assign : String → σ}
    {read : Scope → String → Option Json}
    (h : ∀ st name, run st (assign name) = (st.scope.assignFrom read name).map fun scope => { st with scope })
    (st : Run) (r : Route) : (r.parameters.map fun p => assign p.name).foldlM run st =
      (st.scope.assignAll read r.valueNames).map fun scope => { st with scope } := by
  rw [Route.valueNames]
  generalize r.parameters = ps
  induction ps generalizing st with
  | nil => rfl
  | cons p ps ih =>
    rw [List.map_cons, List.map_cons, List.foldlM_cons, h, Scope.assignAll, List.foldlM_cons]
    cases st.scope.assignFrom read p.name with
    | none => rfl
    | some next => exact ih { st with scope := next }

end RestRoutes
