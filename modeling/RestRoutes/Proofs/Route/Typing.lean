import Mathlib.Data.List.Forall2
import RestRoutes.Proofs.Route.Positions
import RestRoutes.Proofs.Spec.Parameters

namespace RestRoutes

namespace OperationMember

/-- The path is a template, and something types each placeholder in it. -/
def Typable (paths : Table Json) (m : OperationMember) : Prop :=
  ∃ first parts, Template.Divides m.path.toList first parts ∧
    ∀ name ∈ parts.map Prod.fst, m.typing? paths name ≠ none

/-- The path is a template, and this is the first placeholder in it that nothing types. -/
def Lacks (paths : Table Json) (m : OperationMember) (name : String) : Prop :=
  ∃ first parts before after, Template.Divides m.path.toList first parts ∧
    parts.map Prod.fst = before ++ name :: after ∧
    (∀ other ∈ before, m.typing? paths other ≠ none) ∧ m.typing? paths name = none

/-- A route whose slots are what the document declares. -/
structure Types (paths : Table Json) (m : OperationMember) (r : Route) : Prop where
  path : r.path = m.path
  method : r.method = m.method
  names : ∃ first parts, Template.Divides m.path.toList first parts ∧
    r.parameters.map (·.name) = parts.map Prod.fst
  slots : ∀ q ∈ r.parameters, ∃ v schema t, m.typing? paths q.name = some v ∧
    v.part? "schema" = some schema ∧ schema.HasType t ∧ q.slot = t.slot

variable {paths : Table Json} {m : OperationMember} {o : Operation} {name : String}

theorem Makes.routable_iff (h : Makes paths m o) (hpaths : Json.NamedOnce (.object paths)) :
    o.Routable ↔ m.Typable paths := by
  have htyped (name : String) : (∃ q ∈ o.parameters, q.name = name) ↔ m.typing? paths name ≠ none := by
    rw [← o.parameter?_ne_none_iff, Ne, Ne, related_eq_none_iff (h.typing hpaths name)]
  rw [Operation.Routable, Typable, (h.gives hpaths).path]
  simp only [htyped]

end OperationMember

namespace Route

variable {p : Policy} {number : Nat} {o : Operation} {r : Route} {ops : List Operation}

theorem ofOperation_slots (h : ofOperation p number o = .ok r) :
    ∀ q ∈ r.parameters, ∃ typing, o.parameter? q.name = some typing ∧ q.slot = typing.type.slot := by
  obtain ⟨names, parameters, -, hparameters, rfl⟩ := ofOperation_eq_ok_iff.mp h
  intro q hq
  obtain ⟨name, -, hq⟩ := (mapM_eq_ok hparameters).2 q hq
  obtain ⟨rfl, htyping⟩ := parameterOf_eq_ok_iff.mp hq
  exact htyping

theorem ofOperation_eq_noParameter_iff {name path id : String} {method : Method} :
    ofOperation p number o = .error (.noParameter name method path id) ↔
      (method = o.method ∧ path = o.path ∧ id = o.id) ∧
      ∃ first parts before after, Template.Divides o.path.toList first parts ∧
        parts.map Prod.fst = before ++ name :: after ∧
        (∀ other ∈ before, o.parameter? other ≠ none) ∧ o.parameter? name = none := by
  constructor
  · intro h
    rcases ofOperation_eq_error_iff.mp h with ⟨_, -, he⟩ | ⟨names, hnames, h⟩
    case inl => cases he
    rw [parametersOf_eq_mapM] at h
    obtain ⟨before, other, after, rfl, hbefore, hother⟩ := mapM_eq_error_iff.mp h
    obtain ⟨hnone, he⟩ := parameterOf_eq_error_iff.mp hother
    cases he
    obtain ⟨first, parts, hdivides, hparts⟩ := Template.placeholders_eq_ok_iff.mp hnames
    exact ⟨⟨rfl, rfl, rfl⟩, first, parts, before, after, hdivides, hparts,
      fun other hmem => parameterOf_isOk_iff.mp (hbefore other hmem), hnone⟩
  · rintro ⟨⟨rfl, rfl, rfl⟩, first, parts, before, after, hdivides, hparts, hbefore, hnone⟩
    have hnames := Template.placeholders_eq_ok_iff.mpr ⟨first, parts, hdivides, rfl⟩
    refine ofOperation_eq_error_iff.mpr (.inr ⟨_, hnames, ?_⟩)
    rw [parametersOf_eq_mapM, mapM_eq_error_iff]
    exact ⟨before, name, after, hparts, fun other hmem => parameterOf_isOk_iff.mpr (hbefore other hmem),
      parameterOf_eq_error_iff.mpr ⟨hnone, rfl⟩⟩

theorem table_eq_noParameter {name path id : String} {method : Method}
    (h : table p ops = .error (.noParameter name method path id)) :
    ∀ id ∈ p.excluded, id ∈ ops.map (·.id) := by
  rw [table] at h
  split at h
  · cases h
  · rename_i hknown
    exact Policy.unknown?_eq_none_iff.mp hknown

section
variable {paths : Table Json} (hpaths : Json.NamedOnce (.object paths))
include hpaths

theorem ofOperation_types {m : OperationMember} (hm : m.Makes paths o)
    (h : ofOperation p number o = .ok r) : m.Types paths r := by
  have hgives := hm.gives hpaths
  have hplaces := ofOperation_places h
  refine ⟨hplaces.serves.path.trans hgives.path, hplaces.serves.method.trans hgives.method,
    hgives.path ▸ hplaces.names, fun q hq => ?_⟩
  obtain ⟨typing, htyping, hslot⟩ := ofOperation_slots h q hq
  obtain ⟨v, hv, hdeclares⟩ := exists_related_some (htyping ▸ hm.typing hpaths q.name)
  obtain ⟨schema, hschema, htype⟩ := hdeclares.type
  exact ⟨v, schema, typing.type, hv, hschema, htype, hslot⟩

theorem ofOperation_lacks_iff {m : OperationMember} (hm : m.Makes paths o) {name path id : String}
    {method : Method} : ofOperation p number o = .error (.noParameter name method path id) ↔
      m.Lacks paths name ∧ m.method = method ∧ m.path = path ∧ operationId? m.value = some id := by
  have hgives := hm.gives hpaths
  have htyped (other : String) := related_eq_none_iff (hm.typing hpaths other)
  rw [ofOperation_eq_noParameter_iff, OperationMember.Lacks, hgives.id, Option.some.injEq, hgives.path,
    hgives.method]
  simp only [Ne, htyped]
  constructor
  · rintro ⟨⟨rfl, rfl, rfl⟩, hlacks⟩
    exact ⟨hlacks, rfl, rfl, rfl⟩
  · rintro ⟨hlacks, rfl, rfl, rfl⟩
    exact ⟨⟨rfl, rfl, rfl⟩, hlacks⟩

variable {ms : List OperationMember} (hmakes : List.Forall₂ (OperationMember.Makes paths) ms ops)
include hmakes

theorem known_iff : (∀ id ∈ p.excluded, id ∈ ops.map (·.id)) ↔
    ∀ id ∈ p.excluded, ∃ m ∈ ms, operationId? m.value = some id :=
  forall₂_congr fun _ _ => mem_ids_iff (hmakes.imp fun _ _ hm => hm.gives hpaths)

theorem table_types {routes : List Route} (h : table p ops = .ok routes) :
    List.Forall₂ (OperationMember.Types paths) ms routes :=
  table_related (fun _ _ _ _ hm => ofOperation_types hpaths hm) hmakes h

theorem table_isOk_iff_typable : (∃ routes, table p ops = .ok routes) ↔
    (∀ id ∈ p.excluded, ∃ m ∈ ms, operationId? m.value = some id) ∧ ∀ m ∈ ms, m.Typable paths := by
  rw [table_isOk_iff, known_iff hpaths hmakes]
  refine and_congr_right fun _ => ⟨fun h m hm => ?_, fun h o ho => ?_⟩
  · obtain ⟨o, ho, hmakes⟩ := exists_related hmakes hm
    exact (hmakes.routable_iff hpaths).mp (h o ho)
  · obtain ⟨m, hm, hmakes⟩ := exists_related hmakes.flip ho
    exact (OperationMember.Makes.routable_iff hmakes hpaths).mpr (h m hm)

theorem table_lacks_iff {name path id : String} {method : Method} :
    table p ops = .error (.noParameter name method path id) ↔
      (∀ id ∈ p.excluded, ∃ m ∈ ms, operationId? m.value = some id) ∧
      ∃ (before : List OperationMember) (m : OperationMember) (after : List OperationMember),
        ms = before ++ m :: after ∧ (∀ other ∈ before, other.Typable paths) ∧ m.Lacks paths name ∧
        m.method = method ∧ m.path = path ∧ operationId? m.value = some id := by
  constructor
  · intro h
    have hids := table_eq_noParameter h
    obtain ⟨before, o, after, rfl, hbefore, ho⟩ := (table_eq_error_iff hids).mp h
    obtain ⟨before', m, after', hsplit, hrelated, hm, -⟩ := split_related hmakes.flip
    refine ⟨(known_iff hpaths hmakes).mp hids, before', m, after', hsplit, fun other hother => ?_,
      (ofOperation_lacks_iff hpaths hm).mp ho⟩
    obtain ⟨q, hq, hother⟩ := exists_related hrelated.flip hother
    exact (OperationMember.Makes.routable_iff hother hpaths).mp (hbefore q hq)
  · rintro ⟨hids, before, m, after, rfl, hbefore, hm⟩
    obtain ⟨before', o, after', hsplit, hrelated, ho, -⟩ := split_related hmakes
    refine (table_eq_error_iff ((known_iff hpaths hmakes).mpr hids)).mpr ⟨before', o, after', hsplit,
      fun q hq => ?_, (ofOperation_lacks_iff hpaths ho).mpr hm⟩
    obtain ⟨other, hother, hq⟩ := exists_related hrelated.flip hq
    exact (OperationMember.Makes.routable_iff hq hpaths).mpr (hbefore other hother)

end

/-- What the loader and the builder do with equal names comes to one order of precedence, and there is no
other way for a placeholder to be typed or to lack a type. -/
theorem table_typed_by_precedence (text : String) (d : ApiDocument) (h : ApiDocument.ofText text = .ok d) :
    ∃ paths, pathsOf? text = some paths ∧
      List.Forall₂ OperationMember.Gives (operationMembers paths) d.operations ∧ ∀ p : Policy,
      (∀ routes, table p d.operations = .ok routes →
        List.Forall₂ (OperationMember.Types paths) (operationMembers paths) routes) ∧
      ((∃ routes, table p d.operations = .ok routes) ↔
        (∀ id ∈ p.excluded, ∃ m ∈ operationMembers paths, operationId? m.value = some id) ∧
          ∀ m ∈ operationMembers paths, m.Typable paths) ∧
      ∀ name method path id, table p d.operations = .error (.noParameter name method path id) ↔
        (∀ id ∈ p.excluded, ∃ m ∈ operationMembers paths, operationId? m.value = some id) ∧
          ∃ (before : List OperationMember) (m : OperationMember) (after : List OperationMember),
            operationMembers paths = before ++ m :: after ∧
            (∀ other ∈ before, other.Typable paths) ∧ m.Lacks paths name ∧
            m.method = method ∧ m.path = path ∧ operationId? m.value = some id := by
  obtain ⟨paths, hpaths, honce, hmakes⟩ := ApiDocument.ofText_paths h
  refine ⟨paths, hpaths, hmakes.imp fun _ _ hm => hm.gives honce, fun p => ⟨fun routes => ?_, ?_, ?_⟩⟩
  · exact table_types honce hmakes
  · exact table_isOk_iff_typable honce hmakes
  · exact fun name method path id => table_lacks_iff honce hmakes

/-- The name stands in the path item, without a location, and in the operation, as a query parameter.
Parameters and operations can be written as the lists of their fields. -/
def layeredText : String :=
  "\x7b\"paths\":\x7b\"/\x7bn\x7d\":\x7b\"parameters\":[[\"n\",null,\x7b\"type\":[\"null\",\"integer\"]\x7d]]," ++
    "\"get\":[\"x\",null,[[\"n\",\"query\",\x7b\"type\":\"string\"\x7d]],null]\x7d\x7d\x7d"

def layered : ApiDocument where
  operations := [
    { path := "/\x7bn\x7d", method := .get, id := "x",
      parameters := [⟨"n", .query, ⟨"string", none⟩⟩, ⟨"n", .path, ⟨"integer", none⟩⟩] }]

theorem table_typed_by_precedence_layered :
    ApiDocument.ofText layeredText = .ok layered ∧ ∃ paths routes, pathsOf? layeredText = some paths ∧
      table {} layered.operations = .ok routes ∧ routes.map (·.pattern) = ["/<int>"] ∧
      List.Forall₂ (OperationMember.Types paths) (operationMembers paths) routes := by
  have hd : ApiDocument.ofText layeredText = .ok layered := by cbv
  obtain ⟨paths, hpaths, -, htyped⟩ := table_typed_by_precedence _ _ hd
  have hpatterns : (table {} layered.operations).toOption.map (·.map (·.pattern)) =
      some ["/<int>"] := by cbv
  obtain ⟨routes, hroutes, hpatterns⟩ := eq_ok_of_map_toOption hpatterns
  exact ⟨hd, paths, routes, hpaths, hroutes, hpatterns, (htyped {}).1 routes hroutes⟩

end Route

end RestRoutes
