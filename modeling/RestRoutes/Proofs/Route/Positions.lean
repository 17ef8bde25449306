import RestRoutes.Proofs.Route.Grammar
import RestRoutes.Proofs.Route.Keys

namespace RestRoutes

/-- An operation that can have a route: its path is a template, with a parameter for every name in it. -/
def Operation.Routable (o : Operation) : Prop :=
  ∃ first parts, Template.Divides o.path.toList first parts ∧
    ∀ name ∈ parts.map Prod.fst, ∃ q ∈ o.parameters, q.name = name

/-- A placeholder is typed as soon as any parameter has its name. -/
theorem Operation.parameter?_eq_none_iff {o : Operation} {name : String} :
    o.parameter? name = none ↔ ∀ q ∈ o.parameters, q.name ≠ name := by
  rw [parameter?]
  split
  · rename_i q hfound
    have hname : q.name = name := by
      have hfits := List.find?_some hfound
      rw [Bool.and_eq_true, decide_eq_true_eq] at hfits
      exact hfits.1
    exact ⟨nofun, fun h => absurd hname (h q (List.mem_of_find?_eq_some hfound))⟩
  · simp

theorem Operation.parameter?_ne_none_iff {o : Operation} {name : String} :
    o.parameter? name ≠ none ↔ ∃ q ∈ o.parameters, q.name = name := by
  rw [Ne, parameter?_eq_none_iff]
  simp

namespace Route

variable {p : Policy} {number : Nat} {o : Operation} {r : Route} {ops : List Operation}
  {names : List String} {e : BuildError}

theorem ofOperation_isOk_iff : (∃ r, ofOperation p number o = .ok r) ↔ o.Routable := by
  have hparameter (name : String) :
      (∃ q, parameterOf o name = .ok q) ↔ ∃ q ∈ o.parameters, q.name = name :=
    parameterOf_isOk_iff.trans o.parameter?_ne_none_iff
  constructor
  · rintro ⟨r, h⟩
    obtain ⟨names, parameters, hnames, hparameters, -⟩ := ofOperation_eq_ok_iff.mp h
    obtain ⟨first, parts, hdivides, rfl⟩ := Template.placeholders_eq_ok_iff.mp hnames
    exact ⟨first, parts, hdivides, fun name hname =>
      (hparameter name).mp (mapM_isOk_iff.mp ⟨parameters, hparameters⟩ name hname)⟩
  · rintro ⟨first, parts, hdivides, htyped⟩
    have hnames := Template.placeholders_eq_ok_iff.mpr ⟨first, parts, hdivides, rfl⟩
    obtain ⟨parameters, hparameters⟩ := mapM_isOk_iff.mpr fun name hname =>
      (hparameter name).mpr (htyped name hname)
    exact ⟨_, ofOperation_eq_ok_iff.mpr ⟨_, parameters, hnames, hparameters, rfl⟩⟩

/-- Once the policy names operations only, the table is made one operation at a time. -/
theorem table_eq_mapM (h : ∀ id ∈ p.excluded, id ∈ ops.map (·.id)) :
    table p ops = ops.zipIdx.mapM fun o => ofOperation p o.2 o.1 := by
  have hempty : NumberedBelow 0 [] := nofun
  simp only [table, Policy.unknown?_eq_none_iff.mpr h, tableFrom_eq_mapM hempty, List.nil_append]
  exact id_map _

theorem table_eq_ok_iff {routes : List Route} : table p ops = .ok routes ↔
    (∀ id ∈ p.excluded, id ∈ ops.map (·.id)) ∧
      List.Forall₂ (fun o r => ofOperation p o.2 o.1 = .ok r) ops.zipIdx routes := by
  constructor
  · intro h
    have hknown := (table_eq_ok h).1
    rw [table_eq_mapM hknown, mapM_eq_ok_iff] at h
    exact ⟨hknown, h⟩
  · rintro ⟨hknown, h⟩
    rw [table_eq_mapM hknown, mapM_eq_ok_iff]
    exact h

/-- What each step makes of an operation is known of all routes and what the operations were made of. -/
theorem table_related {α : Type} {R : α → Operation → Prop} {S : α → Route → Prop} {as : List α}
    {routes : List Route} (hstep : ∀ a o number r, R a o → ofOperation p number o = .ok r → S a r)
    (hmade : List.Forall₂ R as ops) (h : table p ops = .ok routes) : List.Forall₂ S as routes := by
  have hnumbered : List.Forall₂ (fun a o => R a o.1) as ops.zipIdx := by
    rw [← List.forall₂_map_right_iff, List.zipIdx_map_fst]
    exact hmade
  exact related_trans (fun a o r => hstep a o.1 o.2 r) hnumbered (table_eq_ok_iff.mp h).2

theorem table_isOk_iff : (∃ routes, table p ops = .ok routes) ↔
    (∀ id ∈ p.excluded, id ∈ ops.map (·.id)) ∧ ∀ o ∈ ops, o.Routable := by
  have hsteps : (∃ routes, ops.zipIdx.mapM (fun o => ofOperation p o.2 o.1) = .ok routes) ↔
      ∀ o ∈ ops, o.Routable := by
    rw [mapM_isOk_iff]
    simp only [ofOperation_isOk_iff]
    rw [← List.forall_mem_map, List.zipIdx_map_fst]
  constructor
  · rintro ⟨routes, h⟩
    have hknown := (table_eq_ok h).1
    exact ⟨hknown, hsteps.mp ⟨routes, table_eq_mapM hknown ▸ h⟩⟩
  · rintro ⟨hknown, hroutable⟩
    rw [table_eq_mapM hknown]
    exact hsteps.mpr hroutable

theorem table_eq_error_iff (hknown : ∀ id ∈ p.excluded, id ∈ ops.map (·.id)) :
    table p ops = .error e ↔ ∃ before o after, ops = before ++ o :: after ∧
      (∀ q ∈ before, q.Routable) ∧ ofOperation p before.length o = .error e := by
  rw [table_eq_mapM hknown, mapM_eq_error_iff]
  simp only [ofOperation_isOk_iff]
  constructor
  · rintro ⟨numbered, ⟨o, i⟩, rest, hsplit, hbefore, ho⟩
    obtain ⟨before, behind, rfl, rfl, hbehind⟩ := List.zipIdx_eq_append_iff.mp hsplit
    obtain ⟨_, after, rfl, hhead, -⟩ := List.zipIdx_eq_cons_iff.mp hbehind.symm
    obtain ⟨rfl, rfl⟩ := Prod.mk.inj hhead
    refine ⟨before, o, after, rfl, fun q hq => ?_, Nat.zero_add before.length ▸ ho⟩
    rw [← List.forall_mem_map (f := Prod.fst), List.zipIdx_map_fst] at hbefore
    exact hbefore q hq
  · rintro ⟨before, o, after, rfl, hbefore, ho⟩
    refine ⟨before.zipIdx, (o, before.length), after.zipIdx (before.length + 1), ?_, ?_, ho⟩
    · rw [List.zipIdx_append, List.zipIdx_cons, Nat.zero_add]
    · exact fun x hx => hbefore x.1 (List.fst_mem_of_mem_zipIdx hx)

/-- What is behind the operations has no part in their routes. -/
theorem table_append {more : List Operation} {routes : List Route}
    (hknown : ∀ id ∈ p.excluded, id ∈ ops.map (·.id)) (h : table p (ops ++ more) = .ok routes) :
    table p ops = .ok (routes.take ops.length) := by
  have hall := (table_eq_ok_iff.mp h).2
  rw [List.zipIdx_append] at hall
  have hfirst := List.forall₂_take_append _ _ _ hall.flip
  rw [List.length_zipIdx] at hfirst
  exact table_eq_ok_iff.mpr ⟨hknown, hfirst.flip⟩

/-- The route at a position: nothing else has a part in it, and this is what it has of its operation. -/
structure Places (p : Policy) (o : Operation) (number : Nat) (r : Route) : Prop where
  built : ofOperation p number o = .ok r
  serves : Serves p r o number
  names : ∃ first parts, Template.Divides o.path.toList first parts ∧
    r.parameters.map (·.name) = parts.map Prod.fst

theorem ofOperation_places (h : ofOperation p number o = .ok r) : Places p o number r := by
  refine ⟨h, ofOperation_serves h, ?_⟩
  obtain ⟨names, parameters, hnames, hparameters, rfl⟩ := ofOperation_eq_ok_iff.mp h
  obtain ⟨first, parts, hdivides, rfl⟩ := Template.placeholders_eq_ok_iff.mp hnames
  exact ⟨first, parts, hdivides, parametersOf_names hparameters⟩

theorem table_by_position (p : Policy) (ops : List Operation) :
    ((∃ routes, table p ops = .ok routes) ↔
      (∀ id ∈ p.excluded, id ∈ ops.map (·.id)) ∧ ∀ o ∈ ops, o.Routable) ∧
    (∀ routes, table p ops = .ok routes →
      List.Forall₂ (fun o r => Places p o.1 o.2 r) ops.zipIdx routes) ∧
    ((∀ id ∈ p.excluded, id ∈ ops.map (·.id)) →
      (∀ e, table p ops = .error e ↔ ∃ before o after, ops = before ++ o :: after ∧
        (∀ q ∈ before, q.Routable) ∧ ofOperation p before.length o = .error e) ∧
      ∀ more routes, table p (ops ++ more) = .ok routes →
        table p ops = .ok (routes.take ops.length)) := by
  refine ⟨table_isOk_iff, fun routes h => ?_, fun hknown => ?_⟩
  · exact (table_eq_ok_iff.mp h).2.imp fun _ _ => ofOperation_places
  · exact ⟨fun e => table_eq_error_iff hknown, fun more routes => table_append hknown⟩

def measured : List Operation := [
  { path := "/hosts/{name}/load/{n}", method := .get, id := "load", summary := some "Load",
    parameters := [⟨"n", .path, ⟨"integer", none⟩⟩, ⟨"name", .query, ⟨"string", none⟩⟩] },
  { path := "/", method := .post, id := "start" }]

def unclosed : Operation := { path := "/hosts/\x7bname", method := .get, id := "unclosed" }

theorem table_by_position_measured :
    (∃ routes, (∀ id ∈ ["start"], id ∈ measured.map (·.id)) ∧
      table ⟨["start"]⟩ (measured ++ measured) = .ok routes ∧
      List.Forall₂ (fun o r => Places ⟨["start"]⟩ o.1 o.2 r) (measured ++ measured).zipIdx routes ∧
      table ⟨["start"]⟩ measured = .ok (routes.take 2)) ∧
    ∃ e, table {} (measured ++ [unclosed]) = .error e ∧ ofOperation {} 2 unclosed = .error e := by
  obtain ⟨routes, h⟩ : ∃ routes, table ⟨["start"]⟩ (measured ++ measured) = .ok routes := ⟨_, rfl⟩
  have hknown : ∀ id ∈ ["start"], id ∈ measured.map (·.id) := by decide
  have hplaces := (table_by_position ⟨["start"]⟩ (measured ++ measured)).2.1 routes h
  have hfirst := ((table_by_position ⟨["start"]⟩ measured).2.2 hknown).2 measured routes h
  refine ⟨⟨routes, hknown, h, hplaces, hfirst⟩, _, ?_, rfl⟩
  refine (((table_by_position {} (measured ++ [unclosed])).2.2 nofun).1 _).mpr
    ⟨measured, unclosed, [], rfl, ?_, rfl⟩
  exact (table_isOk_iff (p := {}).mp ⟨_, rfl⟩).2

end Route

end RestRoutes
