import RestRoutes.Proofs.Route.Positions
import RestRoutes.Proofs.Router.Escapes

namespace RestRoutes

open Text

/-- A piece of a generated source: code, or a text between quotes. -/
inductive Piece where
  | code (s : String)
  | quoted (s : String)

namespace Piece

def text : Piece → String
  | .code s => s
  | .quoted s => "\"" ++ s ++ "\""

def quoted? : Piece → Option String
  | .code _ => none
  | .quoted s => some s

def source (ps : List Piece) : String := String.join (ps.map text)

def quotedTexts (ps : List Piece) : List String := ps.filterMap quoted?

/-- Each text between quotes is one literal: read from its opening quote on, the literal denotes the text,
and ends at its closing quote. -/
def Faithful (l : Literal.Language) (ps : List Piece) : Prop :=
  ∀ before s after, ps = before ++ .quoted s :: after →
    l.read (s.toList ++ '"' :: (source after).toList) =
      some (Utf8.encode s.toList, l.prepare (source after).toList)

variable {ps qs : List Piece}

theorem source_nil : source [] = "" := rfl

theorem source_append (ps qs : List Piece) : source (ps ++ qs) = source ps ++ source qs := by
  rw [source, source, source, List.map_append, String.join_append]

theorem source_code (s : String) (ps : List Piece) : source (.code s :: ps) = s ++ source ps := by
  rw [source, List.map_cons, String.join_cons]
  rfl

theorem source_quoted (s : String) (ps : List Piece) :
    source (.quoted s :: ps) = "\"" ++ (s ++ ("\"" ++ source ps)) := by
  rw [source, List.map_cons, String.join_cons]
  simp only [text, String.append_assoc]
  rfl

theorem source_flatMap (f : α → List Piece) (as : List α) :
    source (as.flatMap f) = String.join (as.map fun a => source (f a)) := by
  induction as with
  | nil => rfl
  | cons a as ih => rw [List.flatMap_cons, source_append, List.map_cons, String.join_cons, ih]

theorem quotedTexts_append (ps qs : List Piece) :
    quotedTexts (ps ++ qs) = quotedTexts ps ++ quotedTexts qs := List.filterMap_append

theorem quotedTexts_code (s : String) (ps : List Piece) :
    quotedTexts (.code s :: ps) = quotedTexts ps := rfl

theorem quotedTexts_flatMap (f : α → List Piece) (as : List α) :
    quotedTexts (as.flatMap f) = as.flatMap fun a => quotedTexts (f a) := by
  induction as with
  | nil => rfl
  | cons a as ih => rw [List.flatMap_cons, quotedTexts_append, List.flatMap_cons, ih]

theorem mem_quotedTexts {s : String} : s ∈ quotedTexts ps ↔ .quoted s ∈ ps := by
  rw [quotedTexts, List.mem_filterMap]
  constructor
  · rintro ⟨p, hp, he⟩
    cases p with
    | code t => cases he
    | quoted t =>
      cases he
      exact hp
  · exact fun h => ⟨_, h, rfl⟩

theorem faithful_iff {l : Literal.Language} {plain : Char → Bool} (h : Literal.Lawful l plain) :
    Faithful l ps ↔ ∀ s ∈ quotedTexts ps, ∀ c ∈ s.toList, plain c = true := by
  constructor
  · intro hps s hs
    obtain ⟨before, after, he⟩ := List.append_of_mem (mem_quotedTexts.mp hs)
    exact (Literal.Language.read_eq_some_iff h _ _).mp (hps before s after he)
  · rintro hps before s after rfl
    refine (Literal.Language.read_eq_some_iff h _ _).mpr (hps s ?_)
    exact mem_quotedTexts.mpr (List.mem_append_right _ List.mem_cons_self)

end Piece

open Piece

namespace Crow

variable (o : Options) (r : Route)

def assignmentPieces (p : RouteParameter) : List Piece :=
  [.code "\t\t\treq_json[", .quoted p.name, .code ("] = " ++ p.name ++ ";\n")]

def registrationPieces : List Piece :=
  [.code ("\tCROW_ROUTE(" ++ o.app ++ ", "), .quoted (pattern r),
    .code (").methods(crow::HTTPMethod::" ++ methodName r.method ++ ")\n" ++
      "\t\t([this](" ++ ", ".intercalate (handlerParameters r) ++ ")\x7b\n" ++
      "\t\t\tjson req_json = " ++ requestJson r.method ++ ";\n")] ++
  r.parameters.flatMap assignmentPieces ++
  [.code ("\t\t\tcrow::response res;\n" ++ "\t\t\tthis->" ++ o.dispatcher ++ "(req_json, res, "),
    .quoted r.key, .code (");\n" ++ "\t\t\treturn res;\n" ++ "\t\t\x7d);\n\n")]

def entryPieces : List Piece :=
  [.code ("\t" ++ o.handlerTable ++ "["), .quoted r.key,
    .code ("] = [this](json data) \x7b return this->" ++ o.controller ++ "->" ++ r.operation ++
      "(std::move(data)); \x7d;\n")]

theorem source_assignmentPieces (p : RouteParameter) : source (assignmentPieces p) = assignment p := by
  have hopening : "\t\t\treq_json[\"" = "\t\t\treq_json[" ++ "\"" := by decide
  have hclosing : "\"] = " = "\"" ++ "] = " := by decide
  unfold assignmentPieces assignment
  rw [hopening, hclosing]
  simp only [source_code, source_quoted, source_nil, String.append_assoc, String.append_empty,
    -String.reduceAppend]

theorem source_registrationPieces : source (registrationPieces o r) = registration o r := by
  have hpattern : ", \"" = ", " ++ "\"" := by decide
  have hmethod : "\").methods(crow::HTTPMethod::" = "\"" ++ ").methods(crow::HTTPMethod::" := by decide
  have hkey : "(req_json, res, \"" = "(req_json, res, " ++ "\"" := by decide
  have hend : "\");\n" = "\"" ++ ");\n" := by decide
  unfold registrationPieces registration
  simp only [source_append, source_flatMap, source_assignmentPieces, source_code, source_quoted,
    source_nil, String.append_empty, -String.reduceAppend]
  rw [hpattern, hmethod, hkey, hend]
  simp only [String.append_assoc, -String.reduceAppend]

theorem source_entryPieces : source (entryPieces o r) = entry o r := by
  have hopening : "[\"" = "[" ++ "\"" := by decide
  have hclosing : "\"] = [this](json data) \x7b return this->" =
      "\"" ++ "] = [this](json data) \x7b return this->" := by decide
  unfold entryPieces entry
  rw [hopening, hclosing]
  simp only [source_code, source_quoted, source_nil, String.append_assoc, String.append_empty,
    -String.reduceAppend]

end Crow

namespace Actix

variable (o : Options) (r : Route)

def assignmentPieces (p : RouteParameter) : List Piece :=
  [.code "            req_json[", .quoted p.name,
    .code ("] = serde_json::json!(" ++ p.name ++ ");\n")]

def registrationPieces : List Piece :=
  [.code ("    cfg.route(\n" ++ "        "), .quoted r.path,
    .code (",\n" ++
      "        web::" ++ methodRoute r.method ++ ".to(|" ++ ", ".intercalate (handlerParameters r) ++
      "| async move \x7b\n" ++
      "            " ++ (if r.parameters.isEmpty then "let" else "let mut") ++ " req_json = " ++
      requestJson r.method ++ ";\n" ++ destructuring r)] ++
  r.parameters.flatMap assignmentPieces ++
  [.code ("            " ++ o.dispatcher ++ "(req_json, "), .quoted r.key,
    .code (")\n" ++ "        \x7d),\n" ++ "    );\n")]

def entryPieces : List Piece :=
  [.code "    handlers.insert(", .quoted r.key,
    .code (", " ++ o.controllerModule ++ "::" ++ Text.snakeCase r.operation ++ ");\n")]

theorem source_assignmentPieces (p : RouteParameter) : source (assignmentPieces p) = assignment p := by
  have hopening : "            req_json[\"" = "            req_json[" ++ "\"" := by decide
  have hclosing : "\"] = serde_json::json!(" = "\"" ++ "] = serde_json::json!(" := by decide
  unfold assignmentPieces assignment
  rw [hopening, hclosing]
  simp only [source_code, source_quoted, source_nil, String.append_assoc, String.append_empty,
    -String.reduceAppend]

theorem source_registrationPieces : source (registrationPieces o r) = registration o r := by
  have hpath : "        \"" = "        " ++ "\"" := by decide
  have hmethod : "\",\n" = "\"" ++ ",\n" := by decide
  have hkey : "(req_json, \"" = "(req_json, " ++ "\"" := by decide
  have hend : "\")\n" = "\"" ++ ")\n" := by decide
  unfold registrationPieces registration
  simp only [source_append, source_flatMap, source_assignmentPieces, source_code, source_quoted,
    source_nil, String.append_empty, -String.reduceAppend]
  rw [hpath, hmethod, hkey, hend]
  simp only [String.append_assoc, -String.reduceAppend]

theorem source_entryPieces : source (entryPieces o r) = entry o r := by
  have hopening : "    handlers.insert(\"" = "    handlers.insert(" ++ "\"" := by decide
  have hclosing : "\", " = "\"" ++ ", " := by decide
  unfold entryPieces entry
  rw [hopening, hclosing]
  simp only [source_code, source_quoted, source_nil, String.append_assoc, String.append_empty,
    -String.reduceAppend]

end Actix

namespace RouterKind

variable (k : RouterKind) (crow : Crow.Options) (actix : Actix.Options)

def registrationPieces : Route → List Piece :=
  match k with
  | .crow => Crow.registrationPieces crow
  | .actix => Actix.registrationPieces actix

def entryPieces : Route → List Piece :=
  match k with
  | .crow => Crow.entryPieces crow
  | .actix => Actix.entryPieces actix

def bindingsPieces (routes : List Route) : List Piece :=
  .code (k.router crow actix).bindingsOpening :: routes.flatMap (k.registrationPieces crow actix) ++
    [.code (k.router crow actix).bindingsClosing]

def dispatchPieces (routes : List Route) : List Piece :=
  .code (k.router crow actix).dispatchOpening ::
    (routes.filter (·.dispatchable)).flatMap (k.entryPieces crow actix) ++
    [.code (k.router crow actix).dispatchClosing]

/-- How a registration shows the path of its route. -/
def shown (r : Route) : String :=
  match k with
  | .crow => Crow.pattern r
  | .actix => r.path

/-- The texts that a registration puts between quotes. -/
def quotedIn (r : Route) : List String := k.shown r :: r.parameters.map (·.name) ++ [r.key]

theorem source_bindingsPieces (routes : List Route) :
    source (k.bindingsPieces crow actix routes) = (k.router crow actix).bindings routes := by
  have hregistration : (fun r => source (k.registrationPieces crow actix r)) =
      (k.router crow actix).registration := by
    funext r
    cases k with
    | crow => exact Crow.source_registrationPieces crow r
    | actix => exact Actix.source_registrationPieces actix r
  rw [bindingsPieces, source_append, source_code, source_flatMap, hregistration, source_code, source_nil,
    String.append_empty, Router.bindings]

theorem source_dispatchPieces (routes : List Route) :
    source (k.dispatchPieces crow actix routes) = (k.router crow actix).dispatchMap routes := by
  have hentry : (fun r => source (k.entryPieces crow actix r)) = (k.router crow actix).entry := by
    funext r
    cases k with
    | crow => exact Crow.source_entryPieces crow r
    | actix => exact Actix.source_entryPieces actix r
  rw [dispatchPieces, source_append, source_code, source_flatMap, hentry, source_code, source_nil,
    String.append_empty, Router.dispatchMap]

theorem quotedTexts_registrationPieces (r : Route) :
    quotedTexts (k.registrationPieces crow actix r) = k.quotedIn r := by
  cases k with
  | crow =>
    rw [registrationPieces, Crow.registrationPieces, quotedTexts_append, quotedTexts_append,
      quotedTexts_flatMap, quotedIn, List.map_eq_flatMap]
    rfl
  | actix =>
    rw [registrationPieces, Actix.registrationPieces, quotedTexts_append, quotedTexts_append,
      quotedTexts_flatMap, quotedIn, List.map_eq_flatMap]
    rfl

theorem quotedTexts_bindingsPieces (routes : List Route) :
    quotedTexts (k.bindingsPieces crow actix routes) = routes.flatMap k.quotedIn := by
  rw [bindingsPieces, quotedTexts_append, quotedTexts_code, quotedTexts_flatMap]
  simp only [quotedTexts_registrationPieces]
  exact List.append_nil _

theorem quotedTexts_dispatchPieces (routes : List Route) :
    quotedTexts (k.dispatchPieces crow actix routes) =
      (routes.filter (·.dispatchable)).map (·.key) := by
  have hentry (r : Route) : quotedTexts (k.entryPieces crow actix r) = [r.key] := by
    cases k with
    | crow => rfl
    | actix => rfl
  rw [dispatchPieces, quotedTexts_append, quotedTexts_code, quotedTexts_flatMap]
  simp only [hentry, List.map_eq_flatMap]
  exact List.append_nil _

end RouterKind

namespace Route

variable {p : Policy} {ops : List Operation} {routes : List Route}

/-- What a route has from its template. -/
structure Follows (r : Route) (template : String) : Prop where
  path : r.path = template
  names : Template.placeholders template = .ok (r.parameters.map (·.name))
  key : ∃ number, r.key = dispatchKey template number

theorem ofOperation_follows {number : Nat} {o : Operation} {r : Route}
    (h : ofOperation p number o = .ok r) : r.Follows o.path := by
  obtain ⟨names, parameters, hnames, hparameters, rfl⟩ := ofOperation_eq_ok_iff.mp h
  exact ⟨rfl, by rw [hnames, parametersOf_names hparameters], number, rfl⟩

theorem table_follows (h : table p ops = .ok routes) :
    (∀ o ∈ ops, ∃ r ∈ routes, r.Follows o.path) ∧ ∀ r ∈ routes, ∃ o ∈ ops, r.Follows o.path := by
  have hfollows : List.Forall₂ (fun o r => Follows r o.path) ops routes := by
    refine table_related (fun o o' _ r (he : o = o') ho => ?_) (List.forall₂_refl ops) h
    exact he ▸ ofOperation_follows ho
  exact ⟨fun o ho => exists_related hfollows ho, fun r hr => exists_related hfollows.flip hr⟩

end Route

namespace RouterKind

variable {k : RouterKind} {r : Route} {template : String}

theorem isLiteral_of_isAlphanum {c : Char} (h : c.isAlphanum = true) : k.isLiteral c = true := by
  have hne {d : Char} (hd : d.isAlphanum = false) : c ≠ d := by
    rintro rfl
    rw [h] at hd
    cases hd
  cases k <;> simp [isLiteral, hne]

theorem key_isLiteral (h : ∀ c ∈ template.toList, k.isLiteral c = true) (number : Nat) :
    ∀ c ∈ (dispatchKey template number).toList, k.isLiteral c = true := by
  intro c hc
  rw [toList_dispatchKey, List.mem_append, List.mem_cons] at hc
  rcases hc with hc | rfl | hc
  · rcases mem_of_mem_dispatchSegment hc with hc | hc
    · exact h c hc
    · have hroot : ∀ c ∈ "root".toList, c.isAlphanum = true :=
        List.all_eq_true.mp (by decide)
      exact isLiteral_of_isAlphanum (hroot c hc)
  · cases k <;> rfl
  · rw [Nat.toList_repr] at hc
    have hdigit := Nat.isDigit_of_mem_toDigits (by decide) (by decide) hc
    exact isLiteral_of_isAlphanum (by rw [Char.isAlphanum, hdigit, Bool.or_true])

theorem shown_isLiteral (hr : r.Follows template)
    (h : ∀ c ∈ template.toList, k.isLiteral c = true) :
    ∀ c ∈ (k.shown r).toList, k.isLiteral c = true := by
  intro c hc
  cases k with
  | actix => exact h c (hr.path ▸ hc)
  | crow =>
    rcases Template.mem_of_mem_substitute hc with hc | rfl | rfl | ⟨slot, hslot, hc⟩
    · exact h c (hr.path ▸ hc)
    · rfl
    · rfl
    · obtain ⟨q, -, rfl⟩ := List.mem_map.mp hslot
      have hkind (kind : Crow.ValueKind) : ∀ c ∈ kind.pattern.toList, c.isAlphanum = true := by
        refine List.all_eq_true.mp ?_
        cases kind <;> decide
      exact isLiteral_of_isAlphanum (hkind _ c hc)

/-- Of what a route quotes, all is from its template, and all of its template is there. -/
theorem quotedIn_isLiteral_iff (hr : r.Follows template) :
    (∀ s ∈ k.quotedIn r, ∀ c ∈ s.toList, k.isLiteral c = true) ↔
      ∀ c ∈ template.toList, k.isLiteral c = true := by
  constructor
  · intro h c hc
    have hpath := hr.path
    subst hpath
    have hshown := h (k.shown r) List.mem_cons_self
    cases k with
    | actix => exact hshown c hc
    | crow =>
      rcases Template.mem_of_placeholders hr.names _ hc with rfl | rfl | ⟨name, hname, hc⟩ | hc
      · rfl
      · rfl
      · exact h name (List.mem_cons_of_mem _ (List.mem_append_left _ hname)) c hc
      · exact hshown c hc
  · intro h s hs
    rcases List.mem_cons.mp hs with rfl | hs
    · exact shown_isLiteral hr h
    rcases List.mem_append.mp hs with hs | hs
    · exact fun c hc => h c (Template.mem_of_mem_placeholders hr.names hs hc)
    · obtain ⟨number, hkey⟩ := hr.key
      rw [List.mem_singleton.mp hs, hkey]
      exact key_isLiteral h number

end RouterKind

theorem literals_faithful_iff (k : RouterKind) (crow : Crow.Options) (actix : Actix.Options) {p : Policy}
    {ops : List Operation} {routes : List Route} (h : Route.table p ops = .ok routes) :
    source (k.bindingsPieces crow actix routes) = (k.router crow actix).bindings routes ∧
    source (k.dispatchPieces crow actix routes) = (k.router crow actix).dispatchMap routes ∧
    quotedTexts (k.bindingsPieces crow actix routes) = routes.flatMap k.quotedIn ∧
    quotedTexts (k.dispatchPieces crow actix routes) =
      (routes.filter (·.dispatchable)).map (·.key) ∧
    ((Faithful k.language (k.bindingsPieces crow actix routes) ∧
        Faithful k.language (k.dispatchPieces crow actix routes)) ↔
      ∀ o ∈ ops, ∀ c ∈ o.path.toList, k.isLiteral c = true) := by
  have hbindings := k.quotedTexts_bindingsPieces crow actix routes
  have hdispatch := k.quotedTexts_dispatchPieces crow actix routes
  refine ⟨k.source_bindingsPieces crow actix routes, k.source_dispatchPieces crow actix routes,
    hbindings, hdispatch, ?_⟩
  obtain ⟨hto, hfrom⟩ := Route.table_follows h
  rw [faithful_iff k.language_lawful, faithful_iff k.language_lawful, hbindings, hdispatch]
  constructor
  · intro hquoted o ho
    obtain ⟨r, hr, hfollows⟩ := hto o ho
    exact (RouterKind.quotedIn_isLiteral_iff hfollows).mp fun s hs =>
      hquoted.1 s (List.mem_flatMap.mpr ⟨r, hr, hs⟩)
  · intro hpaths
    have hquoted : ∀ r ∈ routes, ∀ s ∈ k.quotedIn r, ∀ c ∈ s.toList, k.isLiteral c = true := by
      intro r hr
      obtain ⟨o, ho, hfollows⟩ := hfrom r hr
      exact (RouterKind.quotedIn_isLiteral_iff hfollows).mpr (hpaths o ho)
    constructor
    · intro s hs
      obtain ⟨r, hr, hs⟩ := List.mem_flatMap.mp hs
      exact hquoted r hr s hs
    · intro s hs
      obtain ⟨r, hr, rfl⟩ := List.mem_map.mp hs
      exact hquoted r (List.mem_of_mem_filter hr) _ (List.mem_cons_of_mem _ (by simp))

def plainOperations : List Operation := [
  { path := "/hosts/{name}/cpu's", method := .get, id := "hostCpus",
    parameters := [⟨"name", .path, ⟨"string", none⟩⟩] },
  { path := "/", method := .post, id := "start" }]

theorem literals_faithful_plain : ∃ routes, Route.table {} plainOperations = .ok routes ∧
    Faithful Crow.language (RouterKind.crow.bindingsPieces {} {} routes) ∧
    Faithful Crow.language (RouterKind.crow.dispatchPieces {} {} routes) ∧
    Faithful Actix.language (RouterKind.actix.bindingsPieces {} {} routes) ∧
    Faithful Actix.language (RouterKind.actix.dispatchPieces {} {} routes) := by
  obtain ⟨routes, h⟩ : ∃ routes, Route.table {} plainOperations = .ok routes := ⟨_, rfl⟩
  have hplain (k : RouterKind) : ∀ o ∈ plainOperations, ∀ c ∈ o.path.toList, k.isLiteral c = true := by
    have hpaths : (plainOperations.all fun o => o.path.toList.all k.isLiteral) = true := by
      cases k <;> decide
    exact fun o ho => List.all_eq_true.mp (List.all_eq_true.mp hpaths o ho)
  have hcrow := (literals_faithful_iff .crow {} {} h).2.2.2.2.mpr (hplain .crow)
  have hactix := (literals_faithful_iff .actix {} {} h).2.2.2.2.mpr (hplain .actix)
  exact ⟨routes, h, hcrow.1, hcrow.2, hactix.1, hactix.2⟩

def quotedOperation : Operation := { path := "/a\"b", method := .get, id := "op" }

def quotedRoute : Route :=
  { path := "/a\"b", method := .get, pattern := "/a\"b", parameters := [], key := "a\"b_0",
    operation := "op" }

theorem literals_end_at_quote : Route.table {} [quotedOperation] = .ok [quotedRoute] ∧
    ∀ k : RouterKind, ¬ Faithful k.language (k.bindingsPieces {} {} [quotedRoute]) ∧
      ¬ Faithful k.language (k.dispatchPieces {} {} [quotedRoute]) := by
  refine ⟨rfl, fun k => ?_⟩
  have hquote : k.isLiteral '"' ≠ true := Bool.eq_false_iff.mp k.language_lawful.quote
  rw [faithful_iff k.language_lawful, faithful_iff k.language_lawful, k.quotedTexts_bindingsPieces,
    k.quotedTexts_dispatchPieces]
  constructor
  · exact fun h => hquote (h quotedRoute.key (by simp [RouterKind.quotedIn]) '"' (by decide))
  · exact fun h => hquote (h quotedRoute.key (by simp [quotedRoute]) '"' (by decide))

end RestRoutes
