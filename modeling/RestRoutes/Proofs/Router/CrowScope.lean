import RestRoutes.Proofs.Router.Registration
import RestRoutes.Proofs.Router.Scope

namespace RestRoutes

namespace Crow

/-- The words that are no identifiers. -/
def reserved : List String :=
  ["alignas", "alignof", "and", "and_eq", "asm", "auto", "bitand", "bitor", "bool", "break", "case", "catch",
    "char", "char16_t", "char32_t", "class", "compl", "const", "const_cast", "constexpr", "continue",
    "decltype", "default", "delete", "do", "double", "dynamic_cast", "else", "enum", "explicit", "export",
    "extern", "false", "float", "for", "friend", "goto", "if", "inline", "int", "long", "mutable",
    "namespace", "new", "noexcept", "not", "not_eq", "nullptr", "operator", "or", "or_eq", "private",
    "protected", "public", "register", "reinterpret_cast", "return", "short", "signed", "sizeof", "static",
    "static_assert", "static_cast", "struct", "switch", "template", "this", "thread_local", "throw", "true",
    "try", "typedef", "typeid", "typename", "union", "unsigned", "using", "virtual", "void", "volatile",
    "wchar_t", "while", "xor", "xor_eq"]

/-- A name is declared once, and parameters cannot be declared again. -/
def declare (lex : Lexicon) (sc : Scope) (name : String) (m : Meaning) : Option Scope :=
  if isIdentifier reserved lex name && (sc.get? name).isNone then some ((name, m) :: sc) else none

def declareAll (lex : Lexicon) (sc : Scope) : List String → List Meaning → Option Scope
  | [], [] => some sc
  | name :: names, m :: ms => do declareAll lex (← declare lex sc name m) names ms
  | _, _ => none

def Statement.run (lex : Lexicon) (st : Run) : Statement → Option Run
  | .declare parsed => do
    -- A variable would hide the type of its name.
    guard (st.scope.get? "json").isNone
    let members ← st.scope.source parsed "req"
    let scope ← Crow.declare lex st.scope "req_json" (.object true members)
    return { st with scope }
  | .assign member source => do
    let v ← st.scope.value? source
    let scope ← st.scope.assign member v
    return { st with scope }
  | .respond => do
    let scope ← Crow.declare lex st.scope "res" .response
    return { st with scope }
  | .dispatch _ key => do
    let members ← st.scope.object? "req_json"
    guard (st.scope.hasResponse "res")
    return { st with passed := some (key, members) }
  | .answer => do
    guard (st.scope.hasResponse "res")
    return st

/-- What the dispatcher is called with for a request with this body and these path values, if the handler
is well-formed. -/
def Registration.passes (lex : Lexicon) (s : Registration) (body : Table Json)
    (values : List Json) : Option (String × Table Json) := do
  let scope ← declareAll lex [] (s.arguments.map (·.name)) (.request body :: values.map .value)
  let st ← s.body.foldlM (Statement.run lex) { scope }
  st.passed

variable {lex : Lexicon} {sc sc' : Scope} {name : String} {m : Meaning} {o : Options} {r : Route}
  {body : Table Json} {values : List Json}

theorem isIdentifier_own (h : name ∈ ["req", "json", "req_json", "res", "path", "body"]) :
    isIdentifier reserved lex name = true := by
  have hplain : ∀ n ∈ ["req", "json", "req_json", "res", "path", "body"], n ∉ reserved ∧
      n.toList.all (·.toNat < 0x80) = true ∧ isPlainIdentifier n.toList = true := by decide
  obtain ⟨hreserved, hascii, hletters⟩ := hplain name h
  simp [isIdentifier, hreserved, lex.own name h, hascii, hletters]

theorem declare_eq_some_iff : declare lex sc name m = some sc' ↔
    isIdentifier reserved lex name = true ∧ name ∉ Table.names sc ∧ (name, m) :: sc = sc' := by
  unfold declare
  rw [Option.ite_none_right_eq_some, Bool.and_eq_true, Option.isNone_iff_eq_none, Table.get?_eq_none_iff,
    Option.some.injEq, and_assoc]

theorem declareAll_cons_eq_some_iff {names : List String} {ms : List Meaning} :
    declareAll lex sc (name :: names) (m :: ms) = some sc' ↔
      ∃ next, declare lex sc name m = some next ∧ declareAll lex next names ms = some sc' := by
  rw [declareAll]
  exact Option.bind_eq_some_iff

/-- Names are declared in turn exactly when they are identifiers and all different. -/
theorem declareAll_eq_some_iff {names : List String} {ms : List Meaning} (hsc : (Table.names sc).Nodup) :
    declareAll lex sc names ms = some sc' ↔ names.length = ms.length ∧
      (∀ name ∈ names, isIdentifier reserved lex name = true) ∧ (Table.names sc').Nodup ∧
      (names.zip ms).reverse ++ sc = sc' := by
  induction names generalizing sc ms with
  | nil =>
    cases ms with
    | nil =>
      simp only [declareAll, Option.some.injEq, List.zip_nil_left, List.reverse_nil, List.nil_append]
      constructor
      · rintro rfl
        exact ⟨rfl, nofun, hsc, rfl⟩
      · intro h
        exact h.2.2.2
    | cons m ms => simp [declareAll]
  | cons name names ih =>
    cases ms with
    | nil => simp [declareAll]
    | cons m ms =>
      rw [declareAll_cons_eq_some_iff, List.length_cons, List.length_cons, Nat.add_right_cancel_iff,
        List.forall_mem_cons, List.zip_cons_cons, List.reverse_cons, List.append_assoc, List.singleton_append]
      constructor
      · rintro ⟨next, hdeclare, h⟩
        obtain ⟨hname, hnew, rfl⟩ := declare_eq_some_iff.mp hdeclare
        have hnext : (Table.names ((name, m) :: sc)).Nodup := List.nodup_cons.mpr ⟨hnew, hsc⟩
        obtain ⟨hlength, hnames, hnodup, rfl⟩ := (ih hnext).mp h
        exact ⟨hlength, ⟨hname, hnames⟩, hnodup, rfl⟩
      · rintro ⟨hlength, ⟨hname, hnames⟩, hnodup, rfl⟩
        have hnext : (Table.names ((name, m) :: sc)).Nodup := by
          rw [Table.names, List.map_append] at hnodup
          exact (List.nodup_append.mp hnodup).2.1
        exact ⟨_, declare_eq_some_iff.mpr ⟨hname, (List.nodup_cons.mp hnext).1, rfl⟩,
          (ih hnext).mpr ⟨hlength, hnames, hnodup, rfl⟩⟩

theorem names_reverse_zip {names : List String} {ms : List Meaning} (h : names.length = ms.length) :
    Table.names (names.zip ms).reverse = names.reverse := by
  rw [Table.names, List.map_reverse, ← Table.names, Table.names_zip h]

/-- The scope of a handler at its beginning. -/
theorem declareAll_nil_eq_some_iff {names : List String} {ms : List Meaning} :
    declareAll lex [] names ms = some sc ↔ names.length = ms.length ∧
      (∀ name ∈ names, isIdentifier reserved lex name = true) ∧ names.Nodup ∧
      (names.zip ms).reverse = sc := by
  have hnil : (Table.names ([] : Scope)).Nodup := .nil
  rw [declareAll_eq_some_iff hnil, List.append_nil]
  constructor
  · rintro ⟨hlength, hnames, hnodup, rfl⟩
    rw [names_reverse_zip hlength, List.nodup_reverse] at hnodup
    exact ⟨hlength, hnames, hnodup, rfl⟩
  · rintro ⟨hlength, hnames, hnodup, rfl⟩
    rw [names_reverse_zip hlength, List.nodup_reverse]
    exact ⟨hlength, hnames, hnodup, rfl⟩

/-- In the beginning each parameter stands for what it is given. -/
theorem of_declareAll {names : List String} {ms : List Meaning} (h : declareAll lex [] names ms = some sc) :
    (∀ name ∈ names, isIdentifier reserved lex name = true) ∧ names.Nodup ∧
      Table.names sc = names.reverse ∧ ∀ x ∈ names.zip ms, sc.get? x.1 = some x.2 := by
  obtain ⟨hlength, hnames, hnodup, rfl⟩ := declareAll_nil_eq_some_iff.mp h
  have hreverse := names_reverse_zip hlength
  refine ⟨hnames, hnodup, hreverse, ?_⟩
  intro x hx
  apply Table.get?_of_mem
  · rw [hreverse, List.nodup_reverse]
    exact hnodup
  · exact List.mem_reverse.mpr hx

theorem declareAll_isSome {names : List String} {ms : List Meaning} (hlength : names.length = ms.length)
    (hnames : ∀ name ∈ names, isIdentifier reserved lex name = true) (hnodup : names.Nodup) :
    ∃ sc, declareAll lex [] names ms = some sc :=
  ⟨_, declareAll_nil_eq_some_iff.mpr ⟨hlength, hnames, hnodup, rfl⟩⟩

variable {st st' : Run} {parsed : Bool}

theorem run_declare_eq_some_iff : Statement.run lex st (.declare parsed) = some st' ↔
    "json" ∉ Table.names st.scope ∧ "req_json" ∉ Table.names st.scope ∧
      ∃ members, st.scope.source parsed "req" = some members ∧
        { st with scope := ("req_json", .object true members) :: st.scope } = st' := by
  have hname : isIdentifier reserved lex "req_json" = true := isIdentifier_own (by simp)
  unfold Statement.run
  simp only [Option.bind_eq_bind, Option.bind_eq_some_iff, guard_eq_some_iff, declare_eq_some_iff, hname,
    Option.isNone_iff_eq_none, Table.get?_eq_none_iff]
  constructor
  · rintro ⟨_, hjson, members, hmembers, _, ⟨-, hnew, rfl⟩, hst⟩
    exact ⟨hjson, hnew, members, hmembers, Option.some.inj hst⟩
  · rintro ⟨hjson, hnew, members, hmembers, rfl⟩
    exact ⟨(), hjson, members, hmembers, _, ⟨trivial, hnew, rfl⟩, rfl⟩

theorem run_respond_eq_some_iff : Statement.run lex st .respond = some st' ↔
    "res" ∉ Table.names st.scope ∧ { st with scope := ("res", .response) :: st.scope } = st' := by
  have hname : isIdentifier reserved lex "res" = true := isIdentifier_own (by simp)
  unfold Statement.run
  simp only [Option.bind_eq_bind, Option.bind_eq_some_iff, declare_eq_some_iff, hname]
  constructor
  · rintro ⟨_, ⟨-, hnew, rfl⟩, hst⟩
    exact ⟨hnew, Option.some.inj hst⟩
  · rintro ⟨hnew, rfl⟩
    exact ⟨_, ⟨trivial, hnew, rfl⟩, rfl⟩

theorem run_assign (st : Run) (name : String) : Statement.run lex st (.assign name name) =
    (st.scope.assignFrom Scope.value? name).map fun scope => { st with scope } := by
  cases hv : st.scope.value? name with
  | none => simp [Statement.run, Scope.assignFrom, hv]
  | some v =>
    cases h : st.scope.assign name v with
    | none => simp [Statement.run, Scope.assignFrom, hv, h]
    | some sc => simp [Statement.run, Scope.assignFrom, hv, h]

theorem run_dispatch_eq_some_iff {dispatcher key : String} :
    Statement.run lex st (.dispatch dispatcher key) = some st' ↔
      ∃ members, st.scope.object? "req_json" = some members ∧ st.scope.hasResponse "res" = true ∧
        { st with passed := some (key, members) } = st' := by
  unfold Statement.run
  simp only [Option.bind_eq_bind, Option.bind_eq_some_iff, guard_eq_some_iff]
  constructor
  · rintro ⟨members, hmembers, _, hres, hst⟩
    exact ⟨members, hmembers, hres, Option.some.inj hst⟩
  · rintro ⟨members, hmembers, hres, rfl⟩
    exact ⟨members, hmembers, (), hres, rfl⟩

theorem run_answer_eq_some_iff : Statement.run lex st .answer = some st' ↔
    st.scope.hasResponse "res" = true ∧ st = st' := by
  unfold Statement.run
  simp only [Option.bind_eq_bind, Option.bind_eq_some_iff, guard_eq_some_iff]
  constructor
  · rintro ⟨_, hres, hst⟩
    exact ⟨hres, Option.some.inj hst⟩
  · rintro ⟨hres, rfl⟩
    exact ⟨(), hres, rfl⟩

/-- The run of a handler in a scope where the request can be read. -/
theorem foldlM_body_eq_some_iff {members : Table Json}
    (hsource : sc.source r.method.carriesBody "req" = some members) :
    (registered o r).body.foldlM (Statement.run lex) { scope := sc } = some st ↔
      "json" ∉ Table.names sc ∧ "req_json" ∉ Table.names sc ∧
      ∃ assigned, Scope.assignAll Scope.value? (("req_json", .object true members) :: sc) r.valueNames = some assigned ∧
        "res" ∉ Table.names assigned ∧ ∃ delivered, assigned.object? "req_json" = some delivered ∧
          { scope := ("res", .response) :: assigned, passed := some (r.key, delivered) } = st := by
  have hdeclare {declared : Run} :
      Statement.run lex { scope := sc } (.declare r.method.carriesBody) = some declared ↔
        "json" ∉ Table.names sc ∧ "req_json" ∉ Table.names sc ∧
          { scope := ("req_json", .object true members) :: sc } = declared := by
    simp only [run_declare_eq_some_iff, hsource, Option.some.injEq, exists_eq_left']
  simp only [registered, List.cons_append, foldlM_cons_eq_some_iff, foldlM_append_eq_some_iff, hdeclare,
    foldlM_assign run_assign, Option.map_eq_some_iff, run_respond_eq_some_iff, run_dispatch_eq_some_iff,
    run_answer_eq_some_iff]
  constructor
  · rintro ⟨_, ⟨hjson, hnew, rfl⟩, _, ⟨assigned, hassigned, rfl⟩, _, ⟨hres, rfl⟩, _,
      ⟨delivered, hdelivered, -, rfl⟩, _, ⟨-, rfl⟩, hst⟩
    exact ⟨hjson, hnew, assigned, hassigned, hres, delivered, hdelivered, Option.some.inj hst⟩
  · rintro ⟨hjson, hnew, assigned, hassigned, hres, delivered, hdelivered, rfl⟩
    exact ⟨_, ⟨hjson, hnew, rfl⟩, _, ⟨assigned, hassigned, rfl⟩, _, ⟨hres, rfl⟩, _,
      ⟨delivered, hdelivered, rfl, rfl⟩, _, ⟨rfl, rfl⟩, rfl⟩

theorem arguments_names (o : Options) (r : Route) :
    (registered o r).arguments.map (·.name) = "req" :: r.valueNames := by
  simp [registered, Route.valueNames]

/-- A name that a path value can have in a handler. -/
def IsFree (lex : Lexicon) (name : String) : Prop :=
  isIdentifier reserved lex name = true ∧ name ∉ ["req", "json", "req_json", "res"]

theorem source_of_request (r : Route) (hreq : sc.get? "req" = some (.request body)) :
    sc.source r.method.carriesBody "req" = some (r.received body) := by
  unfold Scope.source Scope.body? Route.received
  rw [hreq]
  split
  · rfl
  · rfl

theorem isFree_of_passes {call : String × Table Json}
    (h : (registered o r).passes lex body values = some call) : ∀ name ∈ r.valueNames, IsFree lex name := by
  obtain ⟨sc, hsc, h⟩ := Option.bind_eq_some_iff.mp h
  rw [arguments_names] at hsc
  obtain ⟨hidentifiers, hdistinct, hnames, hget⟩ := of_declareAll hsc
  obtain ⟨st, hst, -⟩ := Option.bind_eq_some_iff.mp h
  have hsource := source_of_request r (hget ("req", .request body) List.mem_cons_self)
  obtain ⟨hjson, hobject, assigned, hassigned, hres, -⟩ := (foldlM_body_eq_some_iff hsource).mp hst
  rw [Scope.names_assignAll hassigned] at hres
  intro name hname
  have hdeclared : name ∈ Table.names sc := by
    rw [hnames, List.mem_reverse]
    exact List.mem_cons_of_mem _ hname
  refine ⟨hidentifiers name (List.mem_cons_of_mem _ hname), ?_⟩
  simp only [List.mem_cons, List.not_mem_nil, or_false, not_or]
  refine ⟨?_, ?_, ?_, ?_⟩
  · rintro rfl
    exact (List.nodup_cons.mp hdistinct).1 hname
  · rintro rfl
    exact hjson hdeclared
  · rintro rfl
    exact hobject hdeclared
  · rintro rfl
    exact hres (List.mem_cons_of_mem _ hdeclared)

/-- With free names, each parameter stands for what it is given, and none has a name of the handler's. -/
theorem exists_scope (body : Table Json) (hdistinct : r.valueNames.Nodup)
    (hlength : r.valueNames.length = values.length) (h : ∀ name ∈ r.valueNames, IsFree lex name) :
    ∃ sc, declareAll lex [] ("req" :: r.valueNames) (.request body :: values.map .value) = some sc ∧
      sc.get? "req" = some (.request body) ∧
      (∀ x ∈ r.valueNames.zip values, sc.get? x.1 = some (.value x.2)) ∧
      ∀ name ∈ ["json", "req_json", "res"], name ∉ Table.names sc := by
  have hall : ("req" :: r.valueNames).length = (Meaning.request body :: values.map Meaning.value).length := by
    simpa using hlength
  have hidentifiers : ∀ name ∈ "req" :: r.valueNames, isIdentifier reserved lex name = true :=
    List.forall_mem_cons.mpr ⟨isIdentifier_own (by simp), fun name hname => (h name hname).1⟩
  have hnew : ("req" :: r.valueNames).Nodup :=
    List.nodup_cons.mpr ⟨fun hreq => (h _ hreq).2 (by simp), hdistinct⟩
  obtain ⟨sc, hscope⟩ := declareAll_isSome hall hidentifiers hnew
  obtain ⟨-, -, hnames, hget⟩ := of_declareAll hscope
  refine ⟨sc, hscope, hget ("req", .request body) List.mem_cons_self, ?_, ?_⟩
  · intro x hx
    apply hget (x.1, .value x.2)
    rw [List.zip_cons_cons, List.zip_map_right]
    exact List.mem_cons_of_mem _ (List.mem_map_of_mem hx)
  · intro name hname hmem
    rw [hnames, List.mem_reverse, List.mem_cons] at hmem
    rcases hmem with rfl | hmem
    · simp at hname
    · exact (h name hmem).2 (List.mem_cons_of_mem _ hname)

/-- In such a scope all path values are put into the request. -/
theorem exists_assigned (members : Table Json) (hlength : r.valueNames.length = values.length)
    (hvalues : ∀ x ∈ r.valueNames.zip values, sc.get? x.1 = some (.value x.2))
    (hobject : "req_json" ∉ Table.names sc) (hres : "res" ∉ Table.names sc) :
    ∃ assigned, Scope.assignAll Scope.value? (("req_json", .object true members) :: sc) r.valueNames = some assigned ∧
      "res" ∉ Table.names assigned ∧
      assigned.object? "req_json" = some (members.putAll (r.valueNames.zip values)) := by
  have hne : ∀ x ∈ r.valueNames.zip values, x.1 ≠ "req_json" := by
    intro x hx he
    rw [Table.mem_names_iff, ← he, hvalues x hx] at hobject
    exact hobject rfl
  have hbehind : ∀ x ∈ r.valueNames.zip values,
      Scope.value? (("req_json", .object true members) :: sc) x.1 = some x.2 := by
    intro x hx
    apply Scope.value?_of_get?
    rw [Table.get?, if_neg (hne x hx).symm, hvalues x hx]
  obtain ⟨assigned, hassigned, hdelivered⟩ :=
    Scope.assignAll_eq_some rfl hbehind fun x hx _ m => Scope.value?_put_of_ne m (hne x hx)
  rw [List.map_fst_zip (Nat.le_of_eq hlength)] at hassigned
  refine ⟨assigned, hassigned, ?_, hdelivered⟩
  rw [Scope.names_assignAll hassigned]
  simpa [Table.names] using hres

theorem passes_of_isFree (hdistinct : r.valueNames.Nodup) (hlength : r.valueNames.length = values.length)
    (h : ∀ name ∈ r.valueNames, IsFree lex name) :
    (registered o r).passes lex body values = some (r.key, r.delivered body values) := by
  obtain ⟨sc, hscope, hreq, hvalues, hown⟩ := exists_scope body hdistinct hlength h
  have hobject : "req_json" ∉ Table.names sc := hown _ (by simp)
  obtain ⟨assigned, hassigned, hres, hdelivered⟩ :=
    exists_assigned (r.received body) hlength hvalues hobject (hown _ (by simp))
  have hst : (registered o r).body.foldlM (Statement.run lex) { scope := sc } = some _ :=
    (foldlM_body_eq_some_iff (source_of_request r hreq)).mpr
      ⟨hown _ (by simp), hobject, assigned, hassigned, hres, _, hdelivered, rfl⟩
  rw [Registration.passes, arguments_names, hscope]
  simp only [Option.bind_eq_bind, Option.bind_some, hst]
  rfl

theorem passes_delivered_iff (o : Options) (hdistinct : r.valueNames.Nodup) :
    (∀ body values, values.length = r.valueNames.length →
      (registered o r).passes lex body values = some (r.key, r.delivered body values)) ↔
        ∀ name ∈ r.valueNames, IsFree lex name := by
  constructor
  · intro h
    exact isFree_of_passes (h [] (r.valueNames.map fun _ => .null) (List.length_map _))
  · intro h body values hlength
    exact passes_of_isFree hdistinct hlength.symm h

end Crow

end RestRoutes
