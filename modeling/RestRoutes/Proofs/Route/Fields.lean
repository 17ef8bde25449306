import Mathlib.Data.List.Forall2
import RestRoutes.Proofs.Route.Positions
import RestRoutes.Proofs.Spec.Body

namespace RestRoutes

/-- How a property is typed as a field: a number by its format if it has one, anything else as it is. -/
inductive Json.FieldType (property : Json) : String → Prop where
  | formatted {format : String} (type : property.HasType ⟨"number", some format⟩) : FieldType property format
  | plain {t : TypeName} (type : property.HasType t) (other : t.type = "number" → t.format = none) :
      FieldType property t.type

/-- The fields of a route for a member of the document. -/
structure OperationMember.Carries (m : OperationMember) (r : Route) : Prop where
  path : r.path = m.path
  method : r.method = m.method
  operation : operationId? m.value = some r.operation
  present : r.body ≠ none ↔ (m.method = .post ∨ m.method = .put) ∧ m.schema? ≠ none
  fields : ∀ fields, r.body = some fields → ∃ schema, m.schema? = some schema ∧
    List.Forall₂ (fun e f => f.1 = e.1 ∧ e.2.FieldType f.2) schema.properties fields

theorem Method.carriesBody_iff {m : Method} : m.carriesBody = true ↔ m = .post ∨ m = .put := by
  cases m <;> simp [carriesBody]

theorem Json.HasType.field {property : Json} {t : TypeName} (h : property.HasType t) :
    property.FieldType t.field := by
  obtain ⟨type, format⟩ := t
  rw [TypeName.field]
  split
  · rename_i hnumber
    simp only at hnumber
    subst hnumber
    cases format with
    | none => exact .plain h fun _ => rfl
    | some format => exact .formatted h
  · rename_i hother
    exact .plain h fun hnumber => absurd hnumber hother

theorem Json.Typed.fields {schema : Json} {body : Table TypeName} (h : schema.Typed body) :
    List.Forall₂ (fun e f => f.1 = e.1 ∧ e.2.FieldType f.2) schema.properties
      (body.map fun (name, type) => (name, type.field)) := by
  rw [List.forall₂_map_right_iff]
  exact List.Forall₂.imp (fun e f hf => ⟨hf.1, hf.2.field⟩) h

namespace Route

variable {p : Policy} {number : Nat} {o : Operation} {r : Route}
  {paths : Table Json} {m : OperationMember}

theorem bodyOf_ne_none_iff : bodyOf o ≠ none ↔ (o.method = .post ∨ o.method = .put) ∧ o.body ≠ none := by
  rw [bodyOf, ← Method.carriesBody_iff]
  cases o.method.carriesBody with
  | true => simp
  | false => simp

theorem ofOperation_carries (hpaths : Json.NamedOnce (.object paths)) (hm : m.Makes paths o)
    (h : ofOperation p number o = .ok r) : m.Carries r := by
  have hgives := hm.gives hpaths
  have hbody := hm.body hpaths
  have hpresent : m.schema? ≠ none ↔ o.body ≠ none := not_congr (related_eq_none_iff hbody)
  obtain ⟨_, _, -, -, rfl⟩ := ofOperation_eq_ok_iff.mp h
  refine ⟨hgives.path, hgives.method, hgives.id, ?_, fun fields hfields => ?_⟩
  · rw [hpresent, ← hgives.method]
    exact bodyOf_ne_none_iff
  · simp only [bodyOf] at hfields
    split at hfields
    · obtain ⟨body, hsome, rfl⟩ := Option.map_eq_some_iff.mp hfields
      obtain ⟨schema, hschema, htyped⟩ := exists_related_some (hsome ▸ hbody)
      exact ⟨schema, hschema, htyped.fields⟩
    · cases hfields

end Route

/-- The loader types the properties of every body, and the builder looks only at those that are carried. -/
theorem table_carries_bodies (text : String) :
    (∀ d, ApiDocument.ofText text = .ok d → ∃ paths, pathsOf? text = some paths ∧
      ∀ p routes, Route.table p d.operations = .ok routes →
        List.Forall₂ OperationMember.Carries (operationMembers paths) routes) ∧
    ∀ paths, pathsOf? text = some paths → ∀ m ∈ operationMembers paths, ∀ schema,
      m.schema? = some schema → (∃ e ∈ schema.properties, ∀ t, ¬ e.2.HasType t) →
      ∃ e, ApiDocument.ofText text = .error e ∧ (Failure.spec e).kind = .schema := by
  constructor
  · intro d hd
    obtain ⟨paths, hpaths, honce, hmakes⟩ := ApiDocument.ofText_paths hd
    exact ⟨paths, hpaths, fun p routes =>
      Route.table_related (fun _ _ _ _ hm => Route.ofOperation_carries honce hm) hmakes⟩
  · rintro paths hpaths m hm schema hschema ⟨e, he, huntyped⟩
    cases hd : ApiDocument.ofText text with
    | error fault => exact ⟨fault, rfl, rfl⟩
    | ok d =>
      obtain ⟨_, hpaths', honce, hmakes⟩ := ApiDocument.ofText_paths hd
      obtain rfl := Option.some.inj (hpaths.symm.trans hpaths')
      obtain ⟨o, -, ho⟩ := exists_related hmakes hm
      have hbody := ho.body honce
      rw [hschema] at hbody
      generalize o.body = body at hbody
      cases hbody with
      | some htyped =>
        obtain ⟨f, -, -, htype⟩ := exists_related htyped he
        exact absurd htype (huntyped f.2)

/-- Two operations with bodies, the first of them in two media types; only one has a method for it.
Operations, bodies and media types are written as the lists of their fields. -/
def bodiesText : String := String.join [
  "\x7b\"paths\":\x7b\"/a\":\x7b\"post\":[\"a\",null,[],",
  "[\x7b\"x\":[null],\"application/json\":[",
  "\x7b\"properties\":\x7b\"n\":\x7b\"type\":\"number\",\"format\":\"float\"\x7d,",
  "\"s\":\x7b\"type\":[\"null\",\"string\"]\x7d\x7d\x7d]\x7d]],",
  "\"get\":[\"b\",null,[],[\x7b\"x\":[\x7b\x7d]\x7d]]\x7d\x7d\x7d"]

def bodies : ApiDocument where
  operations := [
    { path := "/a", method := .post, id := "a",
      body := some [("n", ⟨"number", some "float"⟩), ("s", ⟨"string", none⟩)] },
    { path := "/a", method := .get, id := "b", body := some [] }]

/-- A property that has no type, in a body that no route would carry. -/
def untypedText : String := String.join [
  "\x7b\"paths\":\x7b\"/a\":\x7b\"get\":[\"a\",null,[],[\x7b\"x\":[",
  "\x7b\"properties\":\x7b\"n\":\x7b\"type\":[\"null\"]\x7d\x7d\x7d]\x7d]]\x7d\x7d\x7d"]

def untypedSchema : Json :=
  .object [("properties", .object [("n", .object [("type", .array [.string "null"])])])]

def untypedMember : OperationMember where
  path := "/a"
  method := .get
  value := .array [.string "a", .null, .array [], .array [.object [("x", .array [untypedSchema])]]]

def untypedPaths : Table Json := [(untypedMember.path, .object [("get", untypedMember.value)])]

/-- No type is `null` alone. -/
theorem not_hasType_null (t : TypeName) :
    ¬ (Json.object [("type", .array [.string "null"])]).HasType t := by
  rintro ⟨⟨v, hv, hnames⟩, -⟩
  cases hv
  generalize hitems : Json.array [.string "null"] = v at hnames
  cases hnames with
  | one => cases hitems
  | several hother _ =>
    have hmem : Json.string t.type ∈ [Json.string "null"] := by
      rw [Json.array.inj hitems]
      simp
    exact hother (Json.string.inj (List.mem_singleton.mp hmem))

theorem table_carries_bodies_untyped :
    (ApiDocument.ofText bodiesText = .ok bodies ∧ ∃ paths routes, pathsOf? bodiesText = some paths ∧
      Route.table {} bodies.operations = .ok routes ∧
      routes.map (·.body) = [some [("n", "float"), ("s", "string")], none] ∧
      List.Forall₂ OperationMember.Carries (operationMembers paths) routes) ∧
    pathsOf? untypedText = some untypedPaths ∧ untypedMember ∈ operationMembers untypedPaths ∧
      untypedMember.schema? = some untypedSchema ∧
      ∃ e, ApiDocument.ofText untypedText = .error e ∧ (Failure.spec e).kind = .schema := by
  have hd : ApiDocument.ofText bodiesText = .ok bodies := by
    rw [ApiDocument.ofText, bodiesText, String.toList_join]
    cbv
  have hfields : (Route.table {} bodies.operations).toOption.map (·.map (·.body)) =
      some [some [("n", "float"), ("s", "string")], none] := by cbv
  obtain ⟨routes, hroutes, hfields⟩ := eq_ok_of_map_toOption hfields
  obtain ⟨paths, hpaths, hcarries⟩ := (table_carries_bodies _).1 _ hd
  have huntyped : pathsOf? untypedText = some untypedPaths := by
    rw [pathsOf?, untypedText, String.toList_join]
    cbv
  have hmember : untypedMember ∈ operationMembers untypedPaths := List.mem_singleton_self _
  have hschema : untypedMember.schema? = some untypedSchema := rfl
  exact ⟨⟨hd, paths, routes, hpaths, hroutes, hfields, hcarries {} routes hroutes⟩, huntyped, hmember, hschema,
    (table_carries_bodies _).2 _ huntyped _ hmember _ hschema
      ⟨_, List.mem_singleton_self _, not_hasType_null⟩⟩

end RestRoutes
