import RestRoutes.Proofs.Spec.Parameters

namespace RestRoutes

namespace Json

/-- A value that is not null. -/
def given? : Json → Option Json
  | .null => none
  | v => some v

/-- The body of an operation. -/
def requestBody? (v : Json) : Option Json := ((OperationRecord.shape.parts v).get? "requestBody").bind given?

/-- The media types of a body, under their names. -/
def content (v : Json) : Table Json := (((BodyRecord.shape.parts v).get? "content").bind members?).getD []

/-- The media type of a body that counts: the one for JSON, or else the first. -/
def media? (v : Json) : Option Json :=
  (v.content.get? "application/json").or (v.content.head?.map Prod.snd)

/-- The schema of a media type. -/
def schema? (v : Json) : Option Json := ((MediaRecord.shape.parts v).get? "schema").bind given?

/-- The properties of a schema. -/
def properties (v : Json) : Table Json := ((v.get? "properties").bind members?).getD []

/-- The properties of a schema, each with its type. -/
def Typed (schema : Json) (fields : Table TypeName) : Prop :=
  List.Forall₂ (fun e f => f.1 = e.1 ∧ e.2.HasType f.2) schema.properties fields

end Json

/-- The schema that the body of an operation selects. -/
def OperationMember.schema? (m : OperationMember) : Option Json :=
  m.value.requestBody?.bind fun body => body.media?.bind Json.schema?

theorem Json.optional_eq_ok_iff {α : Type} {read : Json → Except Mismatch α} {v : Json} {a : Option α} :
    optional read v = .ok a ↔ Option.Rel (fun w b => read w = .ok b) v.given? a := by
  cases v with
  | null =>
    constructor
    · intro h
      cases h
      exact .none
    · intro h
      cases h
      rfl
  | _ =>
    constructor
    · intro h
      obtain ⟨b, hb, rfl⟩ := map_eq_ok_iff.mp h
      exact .some hb
    · intro h
      cases h with
      | some hb => exact map_eq_ok_iff.mpr ⟨_, hb, rfl⟩

theorem Json.eq_of_given? {v w : Json} (h : v.given? = some w) : v = w := by
  cases v <;> cases h <;> rfl

theorem Json.readTable_eq_ok {α : Type} {read : Json → Except Mismatch α} {v : Json} {t : Table α}
    (h : readTable read v = .ok t) :
    ∃ ms, v = .object ms ∧ List.Forall₂ (fun e f => e.1 = f.1 ∧ read e.2 = .ok f.2) ms t := by
  cases v with
  | object ms =>
    refine ⟨ms, rfl, (mapM_eq_ok_iff.mp h).imp fun e f hf => ?_⟩
    obtain ⟨w, hw, hf⟩ := bind_eq_ok_iff.mp hf
    cases hf
    exact ⟨rfl, hw⟩
  | _ => cases h

theorem OperationRecord.ownsBody : shape.Owns "requestBody" (some ·.body)
    fun v => (Json.optional (BodyRecord.shape.read {}) v).toOption := by
  refine .of_fields (by decide) (show shape.fields = [_, _, _] ++ _ :: [] from rfl) ?_ ?_
  · exact fun h => RecordShape.some_place_of_set h fun _ => rfl
  · simp only [List.cons_append, List.nil_append, List.forall_mem_cons, Option.some.injEq]
    exact ⟨fun h => RecordShape.place_of_set h fun _ _ => rfl,
      fun h => RecordShape.place_of_set h fun _ _ => rfl,
      fun h => RecordShape.place_of_set h fun _ _ => rfl, nofun⟩

theorem BodyRecord.ownsContent : shape.Owns "content" (some ·.content)
    fun v => (Json.readTable (MediaRecord.shape.read {}) v).toOption := by
  refine .of_fields (by decide) (show shape.fields = [] ++ _ :: [] from rfl) ?_ nofun
  exact fun h => RecordShape.some_place_of_set h fun _ => rfl

theorem MediaRecord.ownsSchema : shape.Owns "schema" (·.schema) Json.given? := by
  refine .of_fields (by decide) (show shape.fields = [] ++ _ :: [] from rfl) ?_ nofun
  intro v r r' h
  refine RecordShape.place_of_set h fun schema hread => ?_
  cases v <;> cases hread <;> rfl

/-- A body that is not null is read as one. -/
theorem OperationRecord.body_of_read {v : Json} {r : OperationRecord} (hv : v.NamedOnce)
    (h : shape.read {} v = .ok r) :
    Option.Rel (fun w b => Json.NamedOnce w ∧ BodyRecord.shape.read {} w = .ok b) v.requestBody? r.body := by
  have hbody := ownsBody.read (by decide) hv h
  rw [Json.requestBody?]
  cases hpart : (shape.parts v).get? "requestBody" with
  | none =>
    rw [hpart] at hbody
    rw [show r.body = none from Option.some.inj hbody]
    exact .none
  | some w =>
    rw [hpart] at hbody
    have hread := Json.optional_eq_ok_iff.mp (eq_ok_iff_toOption.mpr hbody.symm)
    refine related_imp hread fun x hx b hb => ⟨?_, hb⟩
    rw [← Json.eq_of_given? hx]
    exact RecordShape.namedOnce_part hv hpart

/-- Each media type is read under its name. -/
theorem BodyRecord.content_of_read {v : Json} {b : BodyRecord} (hv : v.NamedOnce)
    (h : shape.read {} v = .ok b) : List.Forall₂
      (fun e f => e.1 = f.1 ∧ Json.NamedOnce e.2 ∧ MediaRecord.shape.read {} e.2 = .ok f.2)
      v.content b.content := by
  have hcontent := ownsContent.read (by decide) hv h
  rw [Json.content]
  cases hpart : (shape.parts v).get? "content" with
  | none =>
    rw [hpart] at hcontent
    rw [show b.content = [] from Option.some.inj hcontent]
    exact .nil
  | some w =>
    rw [hpart] at hcontent
    obtain ⟨ms, rfl, hread⟩ := Json.readTable_eq_ok (eq_ok_iff_toOption.mpr hcontent.symm)
    have hnamed := (Json.namedOnce_object_iff.mp (RecordShape.namedOnce_part hv hpart)).2
    exact ((List.forall₂_and_left ms b.content).mpr ⟨hnamed, hread⟩).imp
      fun e f hf => ⟨hf.2.1, hf.1, hf.2.2⟩

theorem MediaRecord.schema_of_read {v : Json} {r : MediaRecord} (hv : v.NamedOnce)
    (h : shape.read {} v = .ok r) : v.schema? = r.schema := by
  rw [ownsSchema.read (by decide) hv h, Json.schema?]
  cases (shape.parts v).get? "schema" <;> rfl

section
variable {α β : Type} {R : α → β → Prop} {t : Table α} {u : Table β}
  (h : List.Forall₂ (fun e f => e.1 = f.1 ∧ R e.2 f.2) t u)
include h

theorem get?_related (name : String) : Option.Rel R (t.get? name) (u.get? name) := by
  induction h with
  | nil => exact .none
  | cons hef _ ih =>
    obtain ⟨hsame, hef⟩ := hef
    rw [Table.get?, Table.get?, ← hsame]
    split
    · exact .some hef
    · exact ih

theorem first_related : Option.Rel R (t.head?.map Prod.snd) (u.head?.map Prod.snd) := by
  cases h with
  | nil => exact .none
  | cons hef _ => exact .some hef.2

end

theorem BodyRecord.media?_eq_or (b : BodyRecord) :
    b.media? = (b.content.get? "application/json").or (b.content.head?.map Prod.snd) := by
  rw [media?]
  split
  · rename_i hfound
    rw [hfound]
    rfl
  · rename_i hnone
    rw [hnone]
    rfl

theorem BodyRecord.schema_of_read {v : Json} {b : BodyRecord} (hv : v.NamedOnce)
    (h : shape.read {} v = .ok b) : v.media?.bind Json.schema? = b.media?.bind (·.schema) := by
  have hcontent := content_of_read hv h
  have hmedia : Option.Rel (fun w r => Json.NamedOnce w ∧ MediaRecord.shape.read {} w = .ok r)
      v.media? b.media? := by
    rw [media?_eq_or, Json.media?]
    exact or_related (get?_related hcontent "application/json") (first_related hcontent)
  exact related_bind_eq hmedia fun w r hread => MediaRecord.schema_of_read hread.1 hread.2

theorem BodyRecord.resolve_eq_ok {b : BodyRecord} {owner : String} {body : Option (Table TypeName)}
    (h : b.resolve owner = .ok body) : Option.Rel Json.Typed (b.media?.bind (·.schema)) body := by
  unfold resolve at h
  split at h
  · rename_i schema hschema
    rw [hschema]
    split at h
    · rename_i properties hproperties
      obtain ⟨fields, hfields, rfl⟩ := map_eq_ok_iff.mp h
      refine .some ?_
      rw [Json.Typed, Json.properties, hproperties, Option.getD_some]
      refine (mapM_eq_ok_iff.mp hfields).imp ?_
      rintro ⟨name, property⟩ f hf
      simp only at hf
      split at hf
      · rename_i htype
        cases hf
        exact ⟨rfl, TypeName.ofSchema?_eq_some_iff.mp htype⟩
      · cases hf
    · rename_i hnone
      cases h
      refine .some ?_
      rw [Json.Typed, Json.properties, Option.eq_none_iff_forall_ne_some.mpr hnone]
      exact .nil
  · rename_i hnone
    cases h
    rw [Option.eq_none_iff_forall_ne_some.mpr hnone]
    exact .none

/-- The body of an operation is what its schema says, whatever the method. -/
theorem OperationMember.Makes.body {paths : Table Json} {m : OperationMember} {o : Operation}
    (h : Makes paths m o) (hpaths : Json.NamedOnce (.object paths)) :
    Option.Rel Json.Typed m.schema? o.body := by
  obtain @⟨_, _, _, v, _, _, r, _, hitem, hv, -, hread, hresolve⟩ := h
  obtain ⟨-, hnamed⟩ := Json.namedOnce_object_iff.mp hpaths
  obtain ⟨-, hvalues⟩ := Json.namedOnce_object_iff.mp (hnamed _ hitem)
  obtain ⟨-, -, -, hbody, -⟩ := OperationRecord.of_resolve hresolve
  have hrecord := OperationRecord.body_of_read (hvalues _ hv) hread
  rw [schema?]
  generalize v.requestBody? = found, r.body = record at hrecord hbody
  cases hrecord with
  | none =>
    rw [← Except.ok.inj hbody]
    exact .none
  | some hb =>
    rw [Option.bind_some, BodyRecord.schema_of_read hb.1 hb.2]
    exact BodyRecord.resolve_eq_ok hbody

end RestRoutes
