import Mathlib.Logic.Relation
import RestRoutes.Block.Payload
import RestRoutes.Proofs.Table

namespace RestRoutes.Payload

/-- How a field can be written. In an object a description that is no text counts as none. -/
inductive Describes : Json → FieldEntry → Prop where
  | pair : Describes (.array [.string type, .string description]) ⟨type, description⟩
  | object (htype : Table.get? members "type" = some (.string type))
    (hdescription : Table.get? members "description" = some (.string description)) :
    Describes (.object members) ⟨type, description⟩
  | bare (htype : Table.get? members "type" = some (.string type))
    (hdescription : ∀ description, Table.get? members "description" ≠ some (.string description)) :
    Describes (.object members) ⟨type, ""⟩

theorem string?_eq_some_iff {v : Json} {s : String} : v.string? = some s ↔ v = .string s := by
  cases v <;> simp [Json.string?]

theorem Describes.field? {v : Json} {e : FieldEntry} (h : Describes v e) : field? v = some e := by
  cases h with
  | pair => rfl
  | object htype hdescription =>
    simp only [Payload.field?, htype, hdescription]
    rfl
  | @bare members type htype hdescription =>
    have hnone : (Table.get? members "description").bind Json.string? = none := by
      rw [Option.bind_eq_none_iff]
      intro v hv
      by_contra hsome
      obtain ⟨s, hs⟩ := Option.ne_none_iff_exists'.mp hsome
      rw [string?_eq_some_iff.mp hs] at hv
      exact hdescription s hv
    simp only [Payload.field?, htype, hnone]
    rfl

/-- A field as it is, or written in another way. -/
def Respells (v w : Json) : Prop := v = w ∨ ∃ e, Describes v e ∧ Describes w e

theorem Respells.field?_eq {v w : Json} (h : Respells v w) : field? v = field? w := by
  rcases h with rfl | ⟨e, hv, hw⟩
  · rfl
  · rw [hv.field?, hw.field?]

/-- The members that may be missing. -/
def optionalNames : List String := ["REST_func", "purpose", "json_input", "json_output"]

/-- The members that are tables of fields. -/
def tableNames : List String := ["json_input", "json_output"]

/-- The members that stand at the top or under `documentation`. -/
def movedNames : List String := "purpose" :: tableNames

/-- One change to the members of an object in which those called `known` are read. -/
inductive Rewrites (known : List String) : Table Json → Table Json → Prop where
  | reorder (hnodup : (Table.names members).Nodup) (h : members.Perm members') :
    Rewrites known members members'
  | null (hname : name ∈ optionalNames) (hnew : name ∉ Table.names members) :
    Rewrites known members (members ++ [(name, .null)])
  | unknown (hname : name ∉ known) : Rewrites known members (members ++ [(name, v)])
  | fields (hname : name ∈ tableNames)
    (h : List.Forall₂ (fun x y => x.1 = y.1 ∧ Respells x.2 y.2) entries entries') :
    Rewrites known (before ++ (name, .object entries) :: after)
      (before ++ (name, .object entries') :: after)

/-- The purpose and the tables put under `documentation`. -/
def nested (members : Table Json) : Table Json :=
  members.filter (·.1 ∉ movedNames) ++ [("documentation", .object (members.filter (·.1 ∈ movedNames)))]

/-- One change to a payload: at the top, under `documentation`, or from the one layout to the other. -/
inductive Relays : Json → Json → Prop where
  | top (h : Rewrites ("documentation" :: optionalNames) members members') :
    Relays (.object members) (.object members')
  | inner (h : Rewrites movedNames members members') :
    Relays (.object (before ++ ("documentation", .object members) :: after))
      (.object (before ++ ("documentation", .object members') :: after))
  | nest (hflat : "documentation" ∉ Table.names members) :
    Relays (.object members) (.object (nested members))

/-- Payloads that are the same but for how they are written. -/
abbrev Interchangeable : Json → Json → Prop := Relation.EqvGen Relays

/-- What is read of the known members of two objects is the same. -/
structure SameReading (known : List String) (members members' : Table Json) : Prop where
  string : ∀ name ∈ known, string? members name = string? members' name
  table : ∀ name ∈ known, table? members name = table? members' name
  plain : ∀ name ∈ known, name ∉ optionalNames → members.get? name = members'.get? name

variable {known : List String} {members members' : Table Json}

theorem SameReading.of_get? (h : ∀ name ∈ known, members.get? name = members'.get? name) :
    SameReading known members members' where
  string name hname := by rw [string?, string?, h name hname]
  table name hname := by rw [table?, table?, h name hname]
  plain name hname _ := h name hname

theorem SameReading.mono {fewer : List String} (h : SameReading known members members')
    (hsub : ∀ name ∈ fewer, name ∈ known) : SameReading fewer members members' where
  string name hname := h.string name (hsub name hname)
  table name hname := h.table name (hsub name hname)
  plain name hname := h.plain name (hsub name hname)

/-- Fields that are written in other ways are the same fields. -/
theorem fields_respelled {entries entries' : Table Json}
    (h : List.Forall₂ (fun x y => x.1 = y.1 ∧ Respells x.2 y.2) entries entries') (member : String) :
    fields member entries = fields member entries' := by
  rw [fields, fields]
  induction h with
  | nil => rfl
  | @cons x y entries entries' hxy _ ih =>
    simp only [List.mapM_cons, ih, hxy.1, hxy.2.field?_eq]

theorem get?_insert (before after : Table Json) (name other : String) (v : Json) :
    Table.get? (before ++ (name, v) :: after) other =
      (Table.get? before other).or (if name = other then some v else Table.get? after other) := by
  rw [Table.get?_append, Table.get?_cons]

/-- Two objects that differ under one name only, and come to the same there. -/
theorem SameReading.of_name {name : String} (hname : name ∈ optionalNames)
    (hother : ∀ other, name ≠ other → members.get? other = members'.get? other)
    (hstring : string? members name = string? members' name)
    (htable : table? members name = table? members' name) : SameReading known members members' where
  string other _ := by
    by_cases hsame : name = other
    · rw [← hsame, hstring]
    · rw [string?, string?, hother other hsame]
  table other _ := by
    by_cases hsame : name = other
    · rw [← hsame, htable]
    · rw [table?, table?, hother other hsame]
  plain other _ hplain := hother other fun hsame => hplain (hsame ▸ hname)

theorem Rewrites.sameReading (h : Rewrites known members members') :
    SameReading known members members' := by
  cases h with
  | reorder hnodup h => exact .of_get? fun name _ => (Table.get?_perm hnodup h name).symm
  | @null name _ hname hnew =>
    have hnone := Table.get?_eq_none_iff.mpr hnew
    have hnull : Table.get? (members ++ [(name, .null)]) name = some .null := by
      rw [get?_insert, hnone, if_pos rfl, Option.none_or]
    refine .of_name hname (fun other hother => (Table.get?_concat_of_ne hother).symm) ?_ ?_
    · rw [string?, string?, hnone, hnull]
    · rw [table?, table?, hnone, hnull]
  | @unknown name _ v hname =>
    refine .of_get? fun other hother => ?_
    have hne : name ≠ other := fun he => hname (he ▸ hother)
    exact (Table.get?_concat_of_ne hne).symm
  | @fields name entries entries' before after hname hentries =>
    have hoptional : name ∈ optionalNames := List.mem_cons_of_mem _ (List.mem_cons_of_mem _ hname)
    refine .of_name hoptional (fun other hother => ?_) ?_ ?_
    · rw [get?_insert, get?_insert, if_neg hother, if_neg hother]
    · rw [string?, string?, get?_insert, get?_insert, if_pos rfl, if_pos rfl]
      cases Table.get? before name with
      | none => rfl
      | some u => rfl
    · rw [table?, table?, get?_insert, get?_insert, if_pos rfl, if_pos rfl]
      cases Table.get? before name with
      | none => simp only [Option.none_or, fields_respelled hentries]
      | some u => rfl

/-- Where the purpose and the tables stand. -/
def documentation? (root : Table Json) : Except PayloadError (Table Json) :=
  match root.get? "documentation" with
  | none => .ok root
  | some (.object inner) => .ok inner
  | some _ => .error .documentationNotObject

/-- The payload whose purpose and tables stand here. -/
def ofDocumentation (function : Option String) (members : Table Json) : Except PayloadError Payload := do
  let purpose ← string? members "purpose"
  let input ← table? members "json_input"
  let output ← table? members "json_output"
  return ⟨function, purpose, input, withEnvelope (output.getD [])⟩

theorem ofJson_object (root : Table Json) : ofJson (.object root) =
    string? root "REST_func" >>= fun function => documentation? root >>= ofDocumentation function := by
  simp only [ofJson, Json.members?, documentation?]
  cases string? root "REST_func" with
  | error e => rfl
  | ok function =>
    cases root.get? "documentation" with
    | none => rfl
    | some v => cases v <;> rfl

theorem ofDocumentation_congr (h : SameReading movedNames members members') (function : Option String) :
    ofDocumentation function members = ofDocumentation function members' := by
  rw [ofDocumentation, ofDocumentation, h.string "purpose" (by decide),
    h.table "json_input" (by decide), h.table "json_output" (by decide)]

theorem Relays.ofJson_eq {v w : Json} (h : Relays v w) : ofJson v = ofJson w := by
  cases h with
  | @top members members' h =>
    have hsame := h.sameReading
    have hmoved : SameReading movedNames members members' := hsame.mono (by decide)
    rw [ofJson_object, ofJson_object, documentation?, documentation?, hsame.string "REST_func" (by decide),
      hsame.plain "documentation" (by decide) (by decide)]
    refine bind_congr fun function => ?_
    split
    · exact ofDocumentation_congr hmoved function
    · rfl
    · rfl
  | @inner members members' before after h =>
    have hmoved := h.sameReading
    have hfunction (u : Json) : string? (before ++ ("documentation", u) :: after) "REST_func" =
        string? (before ++ ("documentation", .null) :: after) "REST_func" := by
      rw [string?, string?, get?_insert, get?_insert, if_neg (by decide), if_neg (by decide)]
    rw [ofJson_object, ofJson_object, hfunction, hfunction (.object members')]
    refine bind_congr fun function => ?_
    rw [documentation?, documentation?, get?_insert, get?_insert]
    cases Table.get? before "documentation" with
    | none => exact ofDocumentation_congr hmoved function
    | some u => cases u <;> rfl
  | @nest members hflat =>
    have hstays := Table.get?_filter members (· ∉ movedNames)
    have hmoves := Table.get?_filter members (· ∈ movedNames)
    have hfunction : string? (nested members) "REST_func" = string? members "REST_func" := by
      rw [string?, string?, nested, get?_insert, hstays, if_pos (by decide), if_neg (by decide), Table.get?,
        Option.or_none]
    have hdocumentation : Table.get? (nested members) "documentation" =
        some (.object (members.filter (·.1 ∈ movedNames))) := by
      rw [nested, get?_insert, hstays, if_pos (by decide), Table.get?_eq_none_iff.mpr hflat, if_pos rfl,
        Option.none_or]
    have hsame : SameReading movedNames members (members.filter (·.1 ∈ movedNames)) :=
      .of_get? fun name hname => by rw [hmoves, if_pos (by simpa using hname)]
    rw [ofJson_object, ofJson_object, hfunction, documentation?, documentation?,
      Table.get?_eq_none_iff.mpr hflat, hdocumentation]
    exact bind_congr fun function => ofDocumentation_congr hsame function

/-- Neither what a payload says nor what is wrong with it depends on how it is written. -/
theorem ofJson_interchangeable {v w : Json} (h : Interchangeable v w) : ofJson v = ofJson w := by
  induction h with
  | rel v w h => exact h.ofJson_eq
  | refl v => rfl
  | symm v w _ ih => exact ih.symm
  | trans u v w _ _ ih ih' => exact ih.trans ih'

def noted : String × Json := ("note", .bool true)

def aimed : String × Json := ("purpose", .string "p")

def pairs : String × Json :=
  ("json_output", .object [("a", .array [.string "int", .string ""]),
    ("b", .array [.string "t", .string "d"])])

def objects : String × Json :=
  ("json_output", .object [("a", .object [("type", .string "int")]),
    ("b", .object [("description", .string "d"), ("type", .string "t")])])

def flatPayload : Json := .object [noted, pairs, aimed]

def nestedPayload : Json := .object [
  ("documentation", .object [objects, aimed, ("json_input", .null)]), ("REST_func", .null)]

theorem interchangeable_flatPayload : Interchangeable flatPayload nestedPayload := by
  have hfields : Rewrites ("documentation" :: optionalNames) ([noted] ++ pairs :: [aimed])
      ([noted] ++ objects :: [aimed]) :=
    .fields (by decide) (.cons ⟨rfl, .inr ⟨_, .pair, .bare rfl nofun⟩⟩
      (.cons ⟨rfl, .inr ⟨_, .pair, .object rfl rfl⟩⟩ .nil))
  have hlast : Rewrites ("documentation" :: optionalNames) [noted, objects, aimed] [objects, aimed, noted] :=
    .reorder (by decide) (List.perm_append_singleton noted [objects, aimed]).symm
  have hnoted : Rewrites ("documentation" :: optionalNames) [objects, aimed] [objects, aimed, noted] :=
    .unknown (by decide)
  have hnest : Relays (.object [objects, aimed]) (.object [("documentation", .object [objects, aimed])]) :=
    .nest (by decide)
  have hinput : Rewrites movedNames [objects, aimed] [objects, aimed, ("json_input", .null)] :=
    .null (by decide) (by decide)
  have hinner : Relays (.object ([] ++ ("documentation", .object [objects, aimed]) :: []))
      (.object ([] ++ ("documentation", .object [objects, aimed, ("json_input", .null)]) :: [])) :=
    .inner hinput
  have hfunction : Rewrites ("documentation" :: optionalNames)
      [("documentation", .object [objects, aimed, ("json_input", .null)])]
      [("documentation", .object [objects, aimed, ("json_input", .null)]), ("REST_func", .null)] :=
    .null (by decide) (by decide)
  have hbare : Interchangeable (.object [noted, objects, aimed]) (.object [objects, aimed]) :=
    .trans _ _ _ (.rel _ _ (.top hlast)) (.symm _ _ (.rel _ _ (.top hnoted)))
  have hmoved : Interchangeable (.object [objects, aimed]) nestedPayload :=
    .trans _ _ _ (.rel _ _ hnest) (.trans _ _ _ (.rel _ _ hinner) (.rel _ _ (.top hfunction)))
  exact .trans _ _ _ (.rel _ _ (.top hfields)) (.trans _ _ _ hbare hmoved)

def faultyPayload : Json := .object [("purpose", .bool true)]

theorem ofJson_interchangeable_nested :
    (Interchangeable flatPayload nestedPayload ∧ ofJson flatPayload = ofJson nestedPayload ∧
      ofJson flatPayload =
        .ok ⟨none, some "p", none, envelope ++ [("a", ⟨"int", ""⟩), ("b", ⟨"t", "d"⟩)]⟩) ∧
    ofJson faultyPayload = ofJson (.object [("documentation", faultyPayload)]) ∧
    ofJson faultyPayload = .error (.notString "purpose") := by
  have hfault : Relays faultyPayload (.object [("documentation", faultyPayload)]) := .nest (by decide)
  exact ⟨⟨interchangeable_flatPayload, ofJson_interchangeable interchangeable_flatPayload, rfl⟩,
    ofJson_interchangeable (.rel _ _ hfault), rfl⟩

end RestRoutes.Payload
