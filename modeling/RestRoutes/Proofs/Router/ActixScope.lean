import RestRoutes.Proofs.Router.Registration
import RestRoutes.Proofs.Router.Scope

namespace RestRoutes

namespace Actix

/-- The words that are no identifiers, and the constructors that a pattern takes for themselves. -/
def reserved : List String :=
  ["_", "abstract", "as", "async", "await", "become", "box", "break", "const", "continue", "crate", "do",
    "dyn", "else", "enum", "extern", "false", "final", "fn", "for", "if", "impl", "in", "let", "loop",
    "macro", "match", "mod", "move", "mut", "override", "priv", "pub", "ref", "return", "self", "Self",
    "static", "struct", "super", "trait", "true", "try", "type", "typeof", "unsafe", "unsized", "use",
    "virtual", "where", "while", "yield", "None", "Some", "Ok", "Err"]

/-- The value that is put into the JSON: the word null is the JSON null, even where it is a variable. -/
def read? (sc : Scope) (name : String) : Option Json :=
  if name = "null" then some .null else sc.value? name

def Statement.run (lex : Lexicon) (st : Run) : Statement → Option Run
  | .declare mutable parsed => do
    let members ← st.scope.source parsed "body"
    return { st with scope := ("req_json", .object mutable members) :: st.scope }
  | .destructure names =>
    match st.scope.get? "path" with
    | some (.values vs) =>
      -- A pattern declares a name once; names from before are hidden.
      if names.length = vs.length ∧ names.Nodup ∧ names.all (isIdentifier reserved lex) then
        some { st with scope := names.zip (vs.map .value) ++ st.scope }
      else none
    | _ => none
  | .assign member source => do
    let v ← read? st.scope source
    let scope ← st.scope.assign member v
    return { st with scope }
  | .dispatch dispatcher key => do
    -- A variable would hide the function of its name.
    guard (st.scope.get? dispatcher).isNone
    let members ← st.scope.object? "req_json"
    return { st with passed := some (key, members) }

def Registration.parameterScope (s : Registration) (body : Table Json) (values : List Json) : Scope :=
  (if s.extractor.isSome then [("path", .values values)] else []) ++
    if s.takesBody then [("body", .request body)] else []

def Registration.passes (lex : Lexicon) (s : Registration) (body : Table Json)
    (values : List Json) : Option (String × Table Json) := do
  let st ← s.body.foldlM (Statement.run lex) { scope := s.parameterScope body values }
  st.passed

variable {lex : Lexicon} {st st' : Run} {sc : Scope} {o : Options} {r : Route} {names : List String}
  {body : Table Json} {values : List Json}

theorem run_declare_eq_some_iff {mutable parsed : Bool} :
    Statement.run lex st (.declare mutable parsed) = some st' ↔
      ∃ members, st.scope.source parsed "body" = some members ∧
        { st with scope := ("req_json", .object mutable members) :: st.scope } = st' := by
  unfold Statement.run
  simp only [Option.bind_eq_bind, Option.bind_eq_some_iff]
  constructor
  · rintro ⟨members, hmembers, hst⟩
    exact ⟨members, hmembers, Option.some.inj hst⟩
  · rintro ⟨members, hmembers, rfl⟩
    exact ⟨members, hmembers, rfl⟩

theorem run_destructure_eq_some_iff {values : List Json} (hpath : st.scope.get? "path" = some (.values values)) :
    Statement.run lex st (.destructure names) = some st' ↔ names.length = values.length ∧ names.Nodup ∧
      (∀ name ∈ names, isIdentifier reserved lex name = true) ∧
        { st with scope := names.zip (values.map .value) ++ st.scope } = st' := by
  unfold Statement.run
  simp only [hpath, Option.ite_none_right_eq_some, Option.some.injEq, List.all_eq_true, and_assoc]

theorem run_assign (st : Run) (name : String) : Statement.run lex st (.assign name name) =
    (st.scope.assignFrom read? name).map fun scope => { st with scope } := by
  cases hv : read? st.scope name with
  | none => simp [Statement.run, Scope.assignFrom, hv]
  | some v =>
    cases h : st.scope.assign name v with
    | none => simp [Statement.run, Scope.assignFrom, hv, h]
    | some sc => simp [Statement.run, Scope.assignFrom, hv, h]

theorem run_dispatch_eq_some_iff {dispatcher key : String} :
    Statement.run lex st (.dispatch dispatcher key) = some st' ↔ dispatcher ∉ Table.names st.scope ∧
      ∃ members, st.scope.object? "req_json" = some members ∧
        { st with passed := some (key, members) } = st' := by
  unfold Statement.run
  simp only [Option.bind_eq_bind, Option.bind_eq_some_iff, guard_eq_some_iff, Option.isNone_iff_eq_none,
    Table.get?_eq_none_iff]
  constructor
  · rintro ⟨_, hfunction, members, hmembers, hst⟩
    exact ⟨hfunction, members, hmembers, Option.some.inj hst⟩
  · rintro ⟨hfunction, members, hmembers, rfl⟩
    exact ⟨(), hfunction, members, hmembers, rfl⟩

/-- The names that a handler declares for itself. -/
def ownNames (names : List String) (m : Method) : List String :=
  "req_json" :: (if names = [] then [] else ["path"]) ++ if m.carriesBody then ["body"] else []

theorem names_parameterScope :
    "req_json" :: Table.names ((registered o r).parameterScope body values) =
      ownNames r.valueNames r.method := by
  unfold Registration.parameterScope registered ownNames Route.valueNames
  by_cases hp : r.parameters = []
  · cases hb : r.method.carriesBody with
    | true => simp [hp, Table.names]
    | false => simp [hp, Table.names]
  · cases hb : r.method.carriesBody with
    | true => simp [hp, Table.names]
    | false => simp [hp, Table.names]

theorem get?_path_parameterScope (h : r.parameters ≠ []) :
    Table.get? ((registered o r).parameterScope body values) "path" = some (.values values) := by
  simp [Registration.parameterScope, registered, h, Table.get?]

theorem source_parameterScope :
    Scope.source ((registered o r).parameterScope body values) r.method.carriesBody "body" =
      some (r.received body) := by
  unfold Scope.source Scope.body? Route.received Registration.parameterScope registered
  by_cases hp : r.parameters = []
  · cases hb : r.method.carriesBody with
    | true => simp [hp, Table.get?]
    | false => simp
  · cases hb : r.method.carriesBody with
    | true => simp [hp, Table.get?]
    | false => simp

/-- The path values are declared, if there are any. -/
theorem foldlM_destructure_eq_some_iff {values : List Json}
    (hpath : r.parameters ≠ [] → st.scope.get? "path" = some (.values values))
    (hlength : r.valueNames.length = values.length) :
    (if r.parameters = [] then [] else [.destructure r.valueNames]).foldlM
        (Statement.run lex) st = some st' ↔
      r.valueNames.Nodup ∧
      (∀ name ∈ r.valueNames, isIdentifier reserved lex name = true) ∧
        { st with scope := r.valueNames.zip (values.map .value) ++ st.scope } = st' := by
  split
  · rename_i hnone
    simp [Route.valueNames, hnone]
  · rename_i hsome
    simp only [List.foldlM_cons, List.foldlM_nil, bind_pure, run_destructure_eq_some_iff (hpath hsome), hlength,
      true_and]

/-- The variables of the path values, in front of all others. -/
theorem get?_values (hlength : names.length = values.length) (hnodup : names.Nodup) :
    ∀ x ∈ names.zip values,
      Table.get? (names.zip (values.map Meaning.value) ++ sc) x.1 = some (.value x.2) := by
  intro x hx
  have hnames : Table.names (names.zip (values.map Meaning.value)) = names :=
    Table.names_zip (by rw [List.length_map, hlength])
  have hmem : (x.1, Meaning.value x.2) ∈ names.zip (values.map Meaning.value) := by
    rw [List.zip_map_right]
    exact List.mem_map_of_mem hx
  rw [Table.get?_append, Table.get?_of_mem (by rwa [hnames]) hmem, Option.some_or]

theorem get?_other {name : String} (hlength : names.length = values.length) (h : name ∉ names) :
    Table.get? (names.zip (values.map Meaning.value) ++ sc) name = Table.get? sc name := by
  have hnames : Table.names (names.zip (values.map Meaning.value)) = names :=
    Table.names_zip (by rw [List.length_map, hlength])
  have hnone := Table.get?_eq_none_iff.mpr (hnames ▸ h)
  rw [Table.get?_append, hnone, Option.none_or]

/-- The first assignment already finds the request's JSON hidden. -/
theorem not_mem_of_assignAll {sc' : Scope} (hlength : names.length = values.length) (hnodup : names.Nodup)
    (h : Scope.assignAll read? (names.zip (values.map Meaning.value) ++ sc) names = some sc') :
    "req_json" ∉ names := by
  intro hmem
  rw [← List.map_fst_zip hlength.le] at hmem
  obtain ⟨x, hx, hname⟩ := List.mem_map.mp hmem
  have hhidden : Table.get? (names.zip (values.map Meaning.value) ++ sc) x.1 = some (.value x.2) :=
    get?_values hlength hnodup x hx
  cases names with
  | nil => cases hx
  | cons name names =>
    obtain ⟨next, hnext, -⟩ := foldlM_cons_eq_some_iff.mp h
    obtain ⟨v, members, -, hobject, -⟩ := Scope.assignFrom_eq_some_iff.mp hnext
    rw [hname, hobject] at hhidden
    cases hhidden

/-- What is read for the path values. -/
def readValues (names : List String) (values : List Json) : Table Json :=
  (names.zip values).map fun x => (x.1, if x.1 = "null" then .null else x.2)

theorem names_readValues (hlength : names.length = values.length) :
    Table.names (readValues names values) = names := by
  rw [readValues, Table.names, List.map_map]
  exact Table.names_zip hlength

theorem readValues_eq_zip (h : "null" ∉ names) : readValues names values = names.zip values := by
  have hsame : ∀ x ∈ names.zip values, (x.1, if x.1 = "null" then .null else x.2) = id x := by
    intro x hx
    have hne : x.1 ≠ "null" := by
      intro he
      exact h (he ▸ (List.of_mem_zip hx).1)
    rw [if_neg hne]
    rfl
  rw [readValues, List.map_congr_left hsame, List.map_id]

theorem read?_values (hlength : names.length = values.length) (hnodup : names.Nodup) :
    ∀ x ∈ readValues names values, read? (names.zip (values.map Meaning.value) ++ sc) x.1 = some x.2 := by
  intro x hx
  obtain ⟨y, hy, rfl⟩ := List.mem_map.mp hx
  unfold read?
  split
  · rfl
  · exact Scope.value?_of_get? (get?_values hlength hnodup y hy)

theorem read?_put {name : String} (m : Meaning) (h : name ≠ "req_json") :
    read? (sc.put "req_json" m) name = read? sc name := by
  rw [read?, read?, Scope.value?_put_of_ne m h]

/-- The run of a handler in a scope where the request and the path values can be read. -/
theorem foldlM_body_eq_some_iff {members : Table Json}
    (hsource : sc.source r.method.carriesBody "body" = some members)
    (hpath : r.parameters ≠ [] → sc.get? "path" = some (.values values))
    (hlength : r.valueNames.length = values.length) :
    (registered o r).body.foldlM (Statement.run lex) { scope := sc } = some st ↔
      r.valueNames.Nodup ∧ (∀ name ∈ r.valueNames, isIdentifier reserved lex name = true) ∧
      ∃ assigned, Scope.assignAll read? (r.valueNames.zip (values.map .value) ++
          ("req_json", .object (r.parameters ≠ []) members) :: sc) r.valueNames = some assigned ∧
        o.dispatcher ∉ Table.names assigned ∧ ∃ delivered, assigned.object? "req_json" = some delivered ∧
          { scope := assigned, passed := some (r.key, delivered) } = st := by
  have hdeclare {declared : Run} : Statement.run lex { scope := sc }
      (.declare (r.parameters ≠ []) r.method.carriesBody) = some declared ↔
        { scope := ("req_json", .object (r.parameters ≠ []) members) :: sc } = declared := by
    simp only [run_declare_eq_some_iff, hsource, Option.some.injEq, exists_eq_left']
  have hpath' : r.parameters ≠ [] →
      ({ scope := ("req_json", .object (r.parameters ≠ []) members) :: sc } : Run).scope.get? "path" =
        some (.values values) := hpath
  have hnames : r.parameters.map (·.name) = r.valueNames := rfl
  simp only [registered, List.cons_append, List.append_assoc, foldlM_cons_eq_some_iff,
    foldlM_append_eq_some_iff, hdeclare, exists_eq_left', hnames,
    foldlM_destructure_eq_some_iff hpath' hlength, foldlM_assign run_assign, Option.map_eq_some_iff,
    run_dispatch_eq_some_iff]
  constructor
  · rintro ⟨_, ⟨hnodup, hidentifiers, rfl⟩, _, ⟨assigned, hassigned, rfl⟩, _,
      ⟨hfunction, delivered, hdelivered, rfl⟩, hst⟩
    exact ⟨hnodup, hidentifiers, assigned, hassigned, hfunction, delivered, hdelivered, Option.some.inj hst⟩
  · rintro ⟨hnodup, hidentifiers, assigned, hassigned, hfunction, delivered, hdelivered, rfl⟩
    exact ⟨_, ⟨hnodup, hidentifiers, rfl⟩, _, ⟨assigned, hassigned, rfl⟩, _,
      ⟨hfunction, delivered, hdelivered, rfl⟩, rfl⟩

/-- The names that stand for anything when the dispatcher is called. -/
theorem names_assigned {mutable : Bool} {members : Table Json} {assigned : Scope}
    (hlength : r.valueNames.length = values.length)
    (h : Scope.assignAll read? (r.valueNames.zip (values.map .value) ++
      ("req_json", .object mutable members) :: (registered o r).parameterScope body values) r.valueNames =
        some assigned) : Table.names assigned = r.valueNames ++ ownNames r.valueNames r.method := by
  have hall : r.valueNames.length = (values.map Meaning.value).length := by rw [List.length_map, hlength]
  rw [Scope.names_assignAll h, ← names_parameterScope, Table.names, List.map_append, ← Table.names,
    Table.names_zip hall]
  rfl

/-- The JSON can be changed when there is anything to be put into it. -/
theorem exists_assigned (members : Table Json) (sc : Scope) (hdistinct : r.valueNames.Nodup)
    (hlength : r.valueNames.length = values.length) (h : "req_json" ∉ r.valueNames) :
    ∃ assigned, Scope.assignAll read? (r.valueNames.zip (values.map .value) ++
        ("req_json", .object (r.parameters ≠ []) members) :: sc) r.valueNames = some assigned ∧
      assigned.object? "req_json" = some (members.putAll (readValues r.valueNames values)) := by
  by_cases hp : r.parameters = []
  · have hnames : r.valueNames = [] := by rw [Route.valueNames, hp, List.map_nil]
    rw [hnames]
    exact ⟨_, rfl, rfl⟩
  · have hobject : Table.get? (r.valueNames.zip (values.map .value) ++
        ("req_json", .object (r.parameters ≠ []) members) :: sc) "req_json" =
          some (.object true members) := by
      rw [get?_other hlength h]
      simp [Table.get?, hp]
    have hnames := names_readValues hlength
    have hne : ∀ x ∈ readValues r.valueNames values, x.1 ≠ "req_json" := by
      intro x hx he
      rw [← hnames] at h
      exact h (he ▸ List.mem_map_of_mem hx)
    obtain ⟨assigned, hassigned, hdelivered⟩ := Scope.assignAll_eq_some hobject
      (read?_values hlength hdistinct) fun x hx _ m => read?_put m (hne x hx)
    rw [← Table.names, hnames] at hassigned
    exact ⟨assigned, hassigned, hdelivered⟩

/-- The names of path values with which a handler compiles. -/
def Compiles (lex : Lexicon) (o : Options) (names : List String) (m : Method) : Prop :=
  (∀ name ∈ names, isIdentifier reserved lex name = true ∧ name ≠ "req_json" ∧ name ≠ o.dispatcher) ∧
    o.dispatcher ∉ ownNames names m

theorem compiles_of_passes {call : String × Table Json} (hlength : r.valueNames.length = values.length)
    (h : (registered o r).passes lex body values = some call) : Compiles lex o r.valueNames r.method := by
  obtain ⟨st, hst, -⟩ := Option.bind_eq_some_iff.mp h
  obtain ⟨hnodup, hidentifiers, assigned, hassigned, hfunction, -⟩ :=
    (foldlM_body_eq_some_iff source_parameterScope get?_path_parameterScope hlength).mp hst
  rw [names_assigned hlength hassigned, List.mem_append, not_or] at hfunction
  refine ⟨?_, hfunction.2⟩
  intro name hname
  refine ⟨hidentifiers name hname, ?_, ?_⟩
  · rintro rfl
    exact not_mem_of_assignAll hlength hnodup hassigned hname
  · rintro rfl
    exact hfunction.1 hname

theorem passes_of_compiles (hdistinct : r.valueNames.Nodup) (hlength : r.valueNames.length = values.length)
    (h : Compiles lex o r.valueNames r.method) : (registered o r).passes lex body values =
      some (r.key, (r.received body).putAll (readValues r.valueNames values)) := by
  have hobject : "req_json" ∉ r.valueNames := fun hmem => (h.1 _ hmem).2.1 rfl
  obtain ⟨assigned, hassigned, hdelivered⟩ := exists_assigned (r.received body)
    ((registered o r).parameterScope body values) hdistinct hlength hobject
  have hfunction : o.dispatcher ∉ Table.names assigned := by
    rw [names_assigned hlength hassigned, List.mem_append, not_or]
    exact ⟨fun hmem => (h.1 _ hmem).2.2 rfl, h.2⟩
  have hst : (registered o r).body.foldlM (Statement.run lex)
      { scope := (registered o r).parameterScope body values } = some _ :=
    (foldlM_body_eq_some_iff source_parameterScope get?_path_parameterScope hlength).mpr
      ⟨hdistinct, fun name hname => (h.1 name hname).1, assigned, hassigned, hfunction, _, hdelivered, rfl⟩
  rw [Registration.passes]
  simp only [Option.bind_eq_bind, Option.bind_some, hst]

/-- A value under the name null is lost, unless it is null itself. -/
theorem null_not_mem_of_delivered {members : Table Json} (hdistinct : names.Nodup)
    (h : members.putAll (readValues names (names.map fun _ => .string "")) =
      members.putAll (names.zip (names.map fun _ => .string ""))) : "null" ∉ names := by
  intro hnull
  have hlength : names.length = (names.map fun _ => Json.string "").length := by rw [List.length_map]
  have hmem : ("null", Json.string "") ∈ names.zip (names.map fun _ => .string "") := by
    rw [List.zip_eq_zipWith, List.zipWith_map_right, List.zipWith_self]
    exact List.mem_map_of_mem hnull
  have hmem' : ("null", Json.null) ∈ readValues names (names.map fun _ => .string "") :=
    List.mem_map.mpr ⟨_, hmem, rfl⟩
  have hnodup : (Table.names (names.zip (names.map fun _ => Json.string ""))).Nodup := by
    rwa [Table.names_zip hlength]
  have hnodup' : (Table.names (readValues names (names.map fun _ => .string ""))).Nodup := by
    rwa [names_readValues hlength]
  have hget := congrArg (Table.get? · "null") h
  simp only [Table.get?_putAll hnodup, Table.get?_putAll hnodup', Table.get?_of_mem hnodup hmem,
    Table.get?_of_mem hnodup' hmem', Option.some_or] at hget
  cases hget

theorem passes_delivered_iff (o : Options) (hdistinct : r.valueNames.Nodup) :
    (∀ body values, values.length = r.valueNames.length →
      (registered o r).passes lex body values = some (r.key, r.delivered body values)) ↔
        Compiles lex o r.valueNames r.method ∧ "null" ∉ r.valueNames := by
  constructor
  · intro h
    have hpasses := h [] (r.valueNames.map fun _ => .string "") (List.length_map _)
    have hlength : r.valueNames.length = (r.valueNames.map fun _ => Json.string "").length := by
      rw [List.length_map]
    have hcompiles := compiles_of_passes hlength hpasses
    rw [passes_of_compiles hdistinct hlength hcompiles] at hpasses
    refine ⟨hcompiles, ?_⟩
    exact null_not_mem_of_delivered hdistinct (congrArg Prod.snd (Option.some.inj hpasses))
  · rintro ⟨hcompiles, hnull⟩ body values hlength
    rw [passes_of_compiles hdistinct hlength.symm hcompiles, readValues_eq_zip hnull]
    rfl

end Actix

end RestRoutes
