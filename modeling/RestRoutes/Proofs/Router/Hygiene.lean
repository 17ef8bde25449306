import RestRoutes.Router.Kind
import RestRoutes.Proofs.Router.ActixScope
import RestRoutes.Proofs.Router.CrowScope

namespace RestRoutes

variable {lex : Lexicon} {crow : Crow.Options} {actix : Actix.Options} {p : Policy} {r : Route}

namespace RouterKind

variable {k : RouterKind}

/-- The registration of a route as it is written. -/
def registered (k : RouterKind) (crow : Crow.Options) (actix : Actix.Options) (r : Route) : String :=
  match k with
  | .crow => (Crow.registered crow r).text
  | .actix => (Actix.registered actix r).text

/-- What the handler of a route calls the dispatcher with, if it is well-formed. -/
def passes (k : RouterKind) (crow : Crow.Options) (actix : Actix.Options) (lex : Lexicon) (r : Route)
    (body : Table Json) (values : List Json) : Option (String × Table Json) :=
  match k with
  | .crow => (Crow.registered crow r).passes lex body values
  | .actix => (Actix.registered actix r).passes lex body values

/-- Every request is passed on under the key of the route, with the path values under their names. -/
def Hygienic (k : RouterKind) (crow : Crow.Options) (actix : Actix.Options) (lex : Lexicon)
    (r : Route) : Prop :=
  ∀ body values, values.length = r.valueNames.length →
    k.passes crow actix lex r body values = some (r.key, r.delivered body values)

/-- The names of path values are identifiers and apart from those that a handler uses itself, or that mean
something else where they are put into JSON. -/
def Apart (k : RouterKind) (actix : Actix.Options) (lex : Lexicon) (names : List String)
    (m : Method) : Prop :=
  match k with
  | .crow => ∀ name ∈ names, Crow.IsFree lex name
  | .actix => Actix.Compiles lex actix names m ∧ "null" ∉ names

theorem text_registered (k : RouterKind) (crow : Crow.Options) (actix : Actix.Options) (r : Route) :
    k.registered crow actix r = (k.router crow actix).registration r := by
  cases k with
  | crow => exact Crow.text_registered crow r
  | actix => exact Actix.text_registered actix r

theorem hygienic_iff (hdistinct : r.valueNames.Nodup) :
    k.Hygienic crow actix lex r ↔ k.Apart actix lex r.valueNames r.method := by
  cases k with
  | crow => exact Crow.passes_delivered_iff crow hdistinct
  | actix => exact Actix.passes_delivered_iff actix hdistinct

end RouterKind

/-- What the handler of a route has from its operation. -/
theorem Route.ofOperation_names {number : Nat} {o : Operation} (h : Route.ofOperation p number o = .ok r) :
    Template.placeholders o.path = .ok r.valueNames ∧ r.valueNames.Nodup ∧ r.method = o.method := by
  obtain ⟨first, parts, hrenders⟩ := Route.ofOperation_renders h
  obtain ⟨names, parameters, hnames, hparameters, rfl⟩ := Route.ofOperation_eq_ok_iff.mp h
  have hvalues := Route.parametersOf_names hparameters
  refine ⟨hnames.trans (congrArg Except.ok hvalues.symm), ?_, rfl⟩
  rw [Route.valueNames, hrenders.names]
  exact hrenders.path.distinct

theorem handlers_hygienic_iff (k : RouterKind) (crow : Crow.Options) (actix : Actix.Options)
    (lex : Lexicon) {ops : List Operation} {routes : List Route} (h : Route.table p ops = .ok routes) :
    (∀ r ∈ routes, k.registered crow actix r = (k.router crow actix).registration r) ∧
    ((∀ r ∈ routes, k.Hygienic crow actix lex r) ↔
      ∀ o ∈ ops, ∃ names, Template.placeholders o.path = .ok names ∧ k.Apart actix lex names o.method) := by
  rw [Route.table_eq_mapM (Route.table_eq_ok h).1] at h
  obtain ⟨hto, hfrom⟩ := mapM_eq_ok h
  refine ⟨fun r _ => k.text_registered crow actix r, ?_⟩
  constructor
  · intro hhygienic o ho
    obtain ⟨i, hi, rfl⟩ := List.mem_iff_getElem.mp ho
    obtain ⟨r, hr, hofOperation⟩ := hto (ops[i], i) (by simp [List.mem_zipIdx_iff_getElem?, hi])
    obtain ⟨hnames, hdistinct, hmethod⟩ := Route.ofOperation_names hofOperation
    refine ⟨r.valueNames, hnames, ?_⟩
    rw [← hmethod]
    exact (RouterKind.hygienic_iff hdistinct).mp (hhygienic r hr)
  · intro hapart r hr
    obtain ⟨o, ho, hofOperation⟩ := hfrom r hr
    obtain ⟨hnames, hdistinct, hmethod⟩ := Route.ofOperation_names hofOperation
    obtain ⟨names, hnames', hnamed⟩ := hapart o.1 ((List.mem_zipIdx' ho).2 ▸ List.getElem_mem _)
    rw [hnames] at hnames'
    cases hnames'
    rw [← hmethod] at hnamed
    exact (RouterKind.hygienic_iff hdistinct).mpr hnamed

def nearOperation : Operation where
  path := "/hosts/{request}/{body}/{path_}"
  method := .post
  id := "near"
  parameters := [⟨"request", .path, ⟨"string", none⟩⟩, ⟨"body", .path, ⟨"integer", none⟩⟩,
    ⟨"path_", .path, ⟨"string", none⟩⟩]

def nearLexicon : Lexicon where
  wide _ := false
  taken := ["NULL", "errno", "requires", "gen"]
  own := by decide

theorem handlers_hygienic_near : ∃ routes, Route.table {} [nearOperation] = .ok routes ∧
    ∀ k : RouterKind, ∀ r ∈ routes, k.Hygienic {} {} nearLexicon r := by
  obtain ⟨routes, h⟩ : ∃ routes, Route.table {} [nearOperation] = .ok routes := ⟨_, rfl⟩
  refine ⟨routes, h, fun k => (handlers_hygienic_iff k {} {} nearLexicon h).2.mpr ?_⟩
  intro o ho
  obtain rfl := List.mem_singleton.mp ho
  refine ⟨["request", "body", "path_"], rfl, ?_⟩
  cases k with
  | crow =>
    have hfree : ∀ name ∈ ["request", "body", "path_"],
        isIdentifier Crow.reserved nearLexicon name = true ∧
          name ∉ ["req", "json", "req_json", "res"] := by decide
    exact hfree
  | actix =>
    have hfree : ∀ name ∈ ["request", "body", "path_"],
        isIdentifier Actix.reserved nearLexicon name = true ∧ name ≠ "req_json" ∧
          name ≠ ({} : Actix.Options).dispatcher := by decide
    exact ⟨⟨hfree, by decide⟩, by decide⟩

def hidingOperation : Operation where
  path := "/a/{req_json}"
  method := .get
  id := "op"
  parameters := [⟨"req_json", .path, ⟨"string", none⟩⟩]

def hidingRoute : Route where
  path := "/a/{req_json}"
  method := .get
  pattern := "/a/<string>"
  parameters := [⟨"req_json", "string"⟩]
  key := "req_json_0"
  operation := "op"

/-- The variable of the path value takes the place of the request. -/
theorem handler_hides_request : Route.table {} [hidingOperation] = .ok [hidingRoute] ∧
    ∀ (k : RouterKind) (lex : Lexicon), ¬ k.Hygienic {} {} lex hidingRoute := by
  refine ⟨rfl, ?_⟩
  intro k lex hhygienic
  have hdistinct : hidingRoute.valueNames.Nodup := List.nodup_singleton _
  have hname : "req_json" ∈ hidingRoute.valueNames := List.mem_singleton_self _
  have hapart := (RouterKind.hygienic_iff hdistinct).mp hhygienic
  cases k with
  | crow => exact (hapart _ hname).2 (by simp)
  | actix => exact (hapart.1.1 _ hname).2.1 rfl

end RestRoutes
