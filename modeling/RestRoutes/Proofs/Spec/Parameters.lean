import RestRoutes.Proofs.Spec.Enumeration
import RestRoutes.Route.Build

namespace RestRoutes

/-- The items of a list; other values have none. -/
def Json.items : Json → List Json
  | .array items => items
  | _ => []

/-- The type that is written in a schema: of several the first that is not `null`. -/
inductive Json.NamesType : Json → String → Prop where
  | one (type : String) : NamesType (.string type) type
  | several {before after : List Json} {type : String} : type ≠ "null" →
      (∀ other, .string other ∈ before → other = "null") →
      NamesType (.array (before ++ .string type :: after)) type

structure Json.HasType (schema : Json) (t : TypeName) : Prop where
  type : ∃ v, schema.get? "type" = some v ∧ v.NamesType t.type
  format : (schema.get? "format").bind Json.string? = t.format

/-- What a parameter has under a name, whether it is an object or a list of its fields. -/
def Json.part? (v : Json) (name : String) : Option Json :=
  (ParameterRecord.shape.parts v).get? name

def Json.parameterName? (v : Json) : Option String := (v.part? "name").bind string?

/-- Without a location a parameter stands in the path. -/
def Json.parameterPlace (v : Json) : String := ((v.part? "in").bind string?).getD "path"

/-- The parameter that a value declares. -/
structure Json.Declares (v : Json) (q : Parameter) : Prop where
  name : v.parameterName? = some q.name
  location : v.parameterPlace = q.location.name
  type : ∃ schema, v.part? "schema" = some schema ∧ schema.HasType q.type

namespace OperationMember

/-- The parameters that stand in an operation. -/
def own (m : OperationMember) : List Json :=
  ((OperationRecord.shape.parts m.value).get? "parameters").elim [] Json.items

/-- Those of its path item. -/
def common (paths : Table Json) (m : OperationMember) : List Json :=
  ((paths.get? m.path).bind (·.get? "parameters")).elim [] Json.items

/-- The parameter for a placeholder. The location comes before the level: one of the path item that is in
the path goes before one of the operation that is not. -/
def typing? (paths : Table Json) (m : OperationMember) (name : String) : Option Json :=
  let named (v : Json) : Bool := v.parameterName? = some name
  let inPath (v : Json) : Bool := named v && v.parameterPlace = "path"
  (m.own.find? inPath).or <| ((m.common paths).find? inPath).or <|
    (m.own.find? named).or ((m.common paths).find? named)

end OperationMember

namespace ParameterRecord

open RecordShape

theorem ownsName : shape.Owns "name" (·.name) Json.string? := by
  refine .of_fields (by decide) (show shape.fields = [] ++ _ :: [_, _] from rfl) ?_ ?_
  · exact fun h => place_of_set h fun _ => Json.optional_readString
  · simp only [List.nil_append, List.forall_mem_cons]
    exact ⟨fun h => place_of_set h fun _ _ => rfl, fun h => place_of_set h fun _ _ => rfl, nofun⟩

theorem ownsLocation : shape.Owns "in" (·.location) Json.string? := by
  refine .of_fields (by decide) (show shape.fields = [_] ++ _ :: [_] from rfl) ?_ ?_
  · exact fun h => place_of_set h fun _ => Json.optional_readString
  · simp only [List.cons_append, List.nil_append, List.forall_mem_cons]
    exact ⟨fun h => place_of_set h fun _ _ => rfl, fun h => place_of_set h fun _ _ => rfl, nofun⟩

theorem ownsSchema :
    shape.Owns "schema" (·.schema) fun v => (Json.optional .ok v).toOption.join := by
  refine .of_fields (by decide) (show shape.fields = [_, _] ++ _ :: [] from rfl) ?_ ?_
  · exact fun h => place_of_set h fun _ hread => by rw [hread]; rfl
  · simp only [List.cons_append, List.nil_append, List.forall_mem_cons]
    exact ⟨fun h => place_of_set h fun _ _ => rfl, fun h => place_of_set h fun _ _ => rfl, nofun⟩

variable {v : Json} {r : ParameterRecord} (hv : v.NamedOnce) (h : shape.read {} v = .ok r)
include hv h

theorem name_of_read : r.name = v.parameterName? := by
  rw [ownsName.read (by decide) hv h]
  cases hpart : (shape.parts v).get? "name" <;> simp [Json.parameterName?, Json.part?, hpart]

theorem location_of_read : r.location = (v.part? "in").bind Json.string? := by
  rw [ownsLocation.read (by decide) hv h]
  cases hpart : (shape.parts v).get? "in" <;> simp [Json.part?, hpart]

theorem part_of_read {w : Json} (hschema : r.schema = some w) : v.part? "schema" = some w := by
  rw [ownsSchema.read (by decide) hv h] at hschema
  rw [Json.part?]
  cases hpart : (shape.parts v).get? "schema" with
  | none =>
    rw [hpart] at hschema
    cases hschema
  | some w =>
    rw [hpart] at hschema
    cases w <;> cases hschema <;> rfl

end ParameterRecord

theorem find?_string_eq_some_iff {items : List Json} {type : String} :
    (items.filterMap Json.string?).find? (· ≠ "null") = some type ↔
      ∃ before after, items = before ++ .string type :: after ∧ type ≠ "null" ∧
        ∀ other, .string other ∈ before → other = "null" := by
  rw [List.find?_filterMap, Option.bind_eq_some_iff]
  simp only [List.find?_eq_some_iff_append]
  constructor
  · rintro ⟨v, ⟨hv, before, after, rfl, hbefore⟩, htype⟩
    cases v with
    | string s =>
      cases htype
      refine ⟨before, after, rfl, by simpa [Json.string?] using hv, fun other hother => ?_⟩
      simpa [Json.string?] using hbefore _ hother
    | _ => cases htype
  · rintro ⟨before, after, rfl, htype, hbefore⟩
    refine ⟨.string type, ⟨by simpa [Json.string?] using htype, before, after, rfl, ?_⟩, rfl⟩
    intro v hv
    cases v with
    | string other => simpa [Json.string?] using hbefore other hv
    | _ => rfl

theorem TypeName.ofSchema?_eq_some_iff {schema : Json} {t : TypeName} :
    ofSchema? schema = some t ↔ schema.HasType t := by
  obtain ⟨type, format⟩ := t
  constructor
  · intro h
    obtain ⟨v, hv, h⟩ := Option.bind_eq_some_iff.mp h
    cases v with
    | string =>
      cases h
      exact ⟨⟨_, hv, .one _⟩, rfl⟩
    | array items =>
      obtain ⟨s, hs, h⟩ := Option.bind_eq_some_iff.mp h
      cases h
      obtain ⟨before, after, rfl, hnull, hbefore⟩ := find?_string_eq_some_iff.mp hs
      exact ⟨⟨_, hv, .several hnull hbefore⟩, rfl⟩
    | _ => cases h
  · rintro ⟨⟨v, hv, hnames⟩, rfl⟩
    rw [ofSchema?, hv]
    cases hnames with
    | one => rfl
    | @several before after _ hnull hbefore =>
      have hfind := find?_string_eq_some_iff.mpr ⟨before, after, rfl, hnull, hbefore⟩
      exact Option.bind_eq_some_iff.mpr ⟨_, rfl, Option.bind_eq_some_iff.mpr ⟨_, hfind, rfl⟩⟩

theorem ParameterLocation.name_of_ofName? {l : ParameterLocation} (h : ofName? s = some l) :
    l.name = s := by
  simpa using List.find?_some h

theorem ParameterRecord.of_resolve {r : ParameterRecord} (h : r.resolve path owner = .ok q) :
    r.name = some q.name ∧ r.location.getD "path" = q.location.name ∧
      ∃ schema, r.schema = some schema ∧ schema.HasType q.type := by
  unfold resolve at h
  split at h
  case h_2 => cases h
  rename_i name hname
  extract_lets finish at h
  have hfinish : ∀ l, finish l = .ok q → q.name = name ∧ q.location = l ∧
      ∃ schema, r.schema = some schema ∧ schema.HasType q.type := by
    intro l h
    simp only [finish] at h
    split at h
    case h_2 => cases h
    rename_i type htype
    cases h
    obtain ⟨schema, hschema, htype⟩ := Option.bind_eq_some_iff.mp htype
    exact ⟨rfl, rfl, schema, hschema, TypeName.ofSchema?_eq_some_iff.mp htype⟩
  split at h
  · rename_i found hfound
    split at h
    · rename_i l hl
      obtain ⟨rfl, rfl, hschema⟩ := hfinish l h
      exact ⟨hname, by rw [hfound, Option.getD_some, ParameterLocation.name_of_ofName? hl], hschema⟩
    · cases h
  · rename_i hnone
    obtain ⟨rfl, hpath, hschema⟩ := hfinish .path h
    exact ⟨hname, by rw [hnone, hpath]; rfl, hschema⟩

theorem ParameterRecord.declares {v : Json} (hv : v.NamedOnce) (h : shape.read {} v = .ok r)
    (hresolve : r.resolve path owner = .ok q) : v.Declares q := by
  obtain ⟨hname, hlocation, schema, hschema, htype⟩ := of_resolve hresolve
  rw [name_of_read hv h] at hname
  rw [location_of_read hv h] at hlocation
  exact ⟨hname, hlocation, schema, part_of_read hv h hschema, htype⟩

theorem declares_of_list {v : Json} (hv : v.NamedOnce)
    (h : Json.readList (ParameterRecord.shape.read {}) v = .ok records)
    (hresolve : records.mapM (·.resolve path owner) = .ok qs) :
    List.Forall₂ Json.Declares v.items qs := by
  cases v with
  | array items =>
    have hitems := Json.namedOnce_array_iff.mp hv
    rw [Json.readList, mapM_eq_ok_iff] at h
    rw [mapM_eq_ok_iff] at hresolve
    have hread := (List.forall₂_and_left items _).mpr ⟨hitems, h⟩
    refine related_trans ?_ hread hresolve
    exact fun v r q hread hq => ParameterRecord.declares hread.1 hread.2 hq
  | _ => cases h

theorem OperationRecord.ownsParameters : shape.Owns "parameters" (some ·.parameters)
    fun v => (Json.readList (ParameterRecord.shape.read {}) v).toOption := by
  refine .of_fields (by decide) (show shape.fields = [_, _] ++ _ :: [_] from rfl) ?_ ?_
  · exact fun h => RecordShape.some_place_of_set h fun _ => rfl
  · simp only [List.cons_append, List.nil_append, List.forall_mem_cons, Option.some.injEq]
    exact ⟨fun h => RecordShape.place_of_set h fun _ _ => rfl,
      fun h => RecordShape.place_of_set h fun _ _ => rfl,
      fun h => RecordShape.place_of_set h fun _ _ => rfl, nofun⟩

theorem OperationRecord.declares_own {v : Json} {r : OperationRecord} (hv : v.NamedOnce)
    (h : shape.read {} v = .ok r) (hown : r.parameters.mapM (·.resolve path owner) = .ok own) :
    List.Forall₂ Json.Declares (((shape.parts v).get? "parameters").elim [] Json.items) own := by
  have hrecords := ownsParameters.read (by decide) hv h
  cases hpart : (shape.parts v).get? "parameters" with
  | none =>
    rw [hpart] at hrecords
    rw [show r.parameters = [] from Option.some.inj hrecords] at hown
    cases hown
    exact .nil
  | some w =>
    rw [hpart] at hrecords
    exact declares_of_list (RecordShape.namedOnce_part hv hpart) (eq_ok_iff_toOption.mpr hrecords.symm) hown

theorem declares_common {item : Table Json} (hitem : Json.NamedOnce (.object item))
    (h : commonParameters path item = .ok common) :
    List.Forall₂ Json.Declares ((item.get? "parameters").elim [] Json.items) common := by
  unfold commonParameters at h
  split at h
  · rename_i hnone
    cases h
    rw [hnone]
    exact .nil
  · rename_i v hsome
    rw [hsome]
    split at h
    · cases h
    · rename_i records hrecords
      exact declares_of_list (hitem.get? hsome) hrecords h

/-- The parameters that are replaced are found where they are replaced. -/
theorem find?_inherit {f : Parameter → Bool}
    (hf : ∀ p q, p.name = q.name → p.location = q.location → f p = f q) (own common : List Parameter) :
    (inherit own common).find? f = (own.find? f).or (common.find? f) := by
  induction common generalizing own with
  | nil => simp [inherit]
  | cons p common ih =>
    rw [inherit, List.foldl_cons]
    split
    · rename_i hreplaced
      obtain ⟨q, hq, hsame⟩ := List.any_eq_true.mp hreplaced
      rw [Bool.and_eq_true, decide_eq_true_eq, decide_eq_true_eq] at hsame
      rw [← inherit, ih]
      cases hp : f p with
      | true =>
        have hfound : (own.find? f).isSome := List.find?_isSome.mpr ⟨q, hq, (hf q p hsame.1 hsame.2).trans hp⟩
        rw [Option.or_of_isSome hfound, Option.or_of_isSome hfound]
      | false => rw [List.find?_cons_of_neg (by simpa using hp)]
    · rw [← inherit, ih, List.find?_append, Option.or_assoc, ← List.find?_append, List.singleton_append]

theorem Operation.parameter?_eq_or (o : Operation) (name : String) : o.parameter? name =
    (o.parameters.find? fun q => q.name = name && q.location = .path).or
      (o.parameters.find? (·.name = name)) := by
  rw [parameter?]
  split
  · rename_i hfound
    rw [hfound]
    rfl
  · rename_i hnone
    rw [hnone]
    rfl

namespace OperationMember

variable {paths : Table Json} {m : OperationMember} {o : Operation}

theorem Makes.parameters (h : Makes paths m o) (hpaths : Json.NamedOnce (.object paths)) :
    ∃ own common, List.Forall₂ Json.Declares m.own own ∧
      List.Forall₂ Json.Declares (m.common paths) common ∧ o.parameters = inherit own common := by
  obtain ⟨hitem, hv, hcommon, hread, hresolve⟩ := h
  obtain ⟨hnames, hnamed⟩ := Json.namedOnce_object_iff.mp hpaths
  obtain ⟨-, hvalues⟩ := Json.namedOnce_object_iff.mp (hnamed _ hitem)
  obtain ⟨-, -, -, -, own, hown, hparameters⟩ := OperationRecord.of_resolve hresolve
  refine ⟨own, _, OperationRecord.declares_own (hvalues _ hv) hread hown, ?_, hparameters⟩
  rw [OperationMember.common, Table.get?_of_mem hnames hitem]
  exact declares_common (hnamed _ hitem) hcommon

/-- What types a placeholder is what the document has for it. -/
theorem Makes.typing (h : Makes paths m o) (hpaths : Json.NamedOnce (.object paths)) (name : String) :
    Option.Rel Json.Declares (m.typing? paths name) (o.parameter? name) := by
  obtain ⟨own, common, hown, hcommon, hparameters⟩ := h.parameters hpaths
  have hnamed : ∀ v q, Json.Declares v q →
      decide (v.parameterName? = some name) = decide (q.name = name) ∧ v.Declares q := by
    intro v q h
    exact ⟨by simp only [h.name, Option.some.injEq], h⟩
  have hinPath : ∀ v q, Json.Declares v q →
      (decide (v.parameterName? = some name) && decide (v.parameterPlace = "path")) =
        (decide (q.name = name) && decide (q.location = .path)) ∧ v.Declares q := by
    intro v q h
    rw [(hnamed v q h).1, h.location]
    refine ⟨?_, h⟩
    cases q.location <;> simp [ParameterLocation.name]
  rw [o.parameter?_eq_or, hparameters, find?_inherit, find?_inherit, Option.or_assoc]
  · exact or_related (find?_related (hown.imp hinPath)) <|
      or_related (find?_related (hcommon.imp hinPath)) <|
      or_related (find?_related (hown.imp hnamed)) (find?_related (hcommon.imp hnamed))
  · exact fun p q hname _ => by rw [hname]
  · exact fun p q hname hlocation => by rw [hname, hlocation]

end OperationMember

end RestRoutes
