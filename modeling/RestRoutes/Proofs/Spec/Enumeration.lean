import Mathlib
import RestRoutes.Failure
import RestRoutes.Proofs.Spec.Operations
import RestRoutes.Proofs.Spec.Record

namespace RestRoutes

/-- A member of a path item that is named after a method. -/
structure OperationMember where
  path : String
  method : Method
  value : Json

/-- The members of a path item for operations, in their order. -/
def itemMembers (path : String) (item : Json) : List OperationMember :=
  (item.members?.getD []).filterMap fun (key, v) =>
    (Method.ofKey? key).map fun method => ⟨path, method, v⟩

/-- Those of all path items; extensions are none. -/
def operationMembers (paths : Table Json) : List OperationMember :=
  paths.flatMap fun (path, item) => if isExtension path then [] else itemMembers path item

/-- The id that an operation carries. As a list of its fields it begins with the id. -/
def operationId? : Json → Option String
  | .object members => (Table.get? members "operationId").bind Json.string?
  | .array (v :: _) => v.string?
  | _ => none

/-- The path items of a document, its references replaced. -/
def pathsOf? (text : String) : Option (Table Json) := do
  let v ← (Json.read text.toList).toOption
  let root ← v.dereference.toOption
  (root.get? "paths").bind Json.members?

/-- The operation that is read from a member. -/
structure OperationMember.Gives (m : OperationMember) (o : Operation) : Prop where
  path : o.path = m.path
  method : o.method = m.method
  id : operationId? m.value = some o.id
  named : Text.allBlank o.id.toList = false

theorem Json.optional_readString {v : Json} (h : Json.optional Json.readString v = .ok s) :
    s = v.string? := by
  cases v <;> cases h <;> rfl

theorem OperationRecord.ownsId :
    OperationRecord.shape.Owns "operationId" (·.id) Json.string? := by
  refine .of_fields (by decide) (show shape.fields = [] ++ _ :: [_, _, _] from rfl) ?_ ?_
  · exact fun h => RecordShape.place_of_set h fun _ => Json.optional_readString
  · simp only [List.nil_append, List.forall_mem_cons]
    exact ⟨fun h => RecordShape.place_of_set h fun _ _ => rfl,
      fun h => RecordShape.place_of_set h fun _ _ => rfl,
      fun h => RecordShape.place_of_set h fun _ _ => rfl, nofun⟩

theorem OperationRecord.id_of_read {v : Json} (hv : v.NamedOnce)
    (h : OperationRecord.shape.read {} v = .ok r) : r.id = operationId? v := by
  have hid := ownsId.read (by decide) hv h
  rw [hid]
  cases v with
  | object members => cases h : Table.get? members "operationId" <;> simp [RecordShape.parts, operationId?, h]
  | array items => cases items <;> rfl
  | _ => rfl

/-- What an operation has of its record: its own parameters first, then those of the path item. -/
theorem OperationRecord.of_resolve {r : OperationRecord} (h : r.resolve path method common = .ok o) :
    o.path = path ∧ o.method = method ∧
      r.id.filter (fun id => !Text.allBlank id.toList) = some o.id ∧
      r.body.elim (.ok none) (·.resolve o.id) = .ok o.body ∧
      ∃ own, r.parameters.mapM (·.resolve path o.id) = .ok own ∧ o.parameters = inherit own common := by
  unfold resolve at h
  split at h
  case h_2 => cases h
  rename_i id hid
  obtain ⟨own, hown, h⟩ := bind_eq_ok_iff.mp h
  extract_lets finish at h
  have hfinish : ∀ body, finish body = .ok o →
      o.path = path ∧ o.method = method ∧ o.id = id ∧ o.body = body ∧
        o.parameters = inherit own common := by
    intro body h
    cases h
    exact ⟨rfl, rfl, rfl, rfl, rfl⟩
  obtain ⟨body, hbody, h⟩ : ∃ body, r.body.elim (.ok none) (·.resolve id) = .ok body ∧
      finish body = .ok o := by
    split at h
    · rename_i hsome
      rw [hsome]
      exact bind_eq_ok_iff.mp h
    · rename_i hnone
      rw [hnone]
      exact bind_eq_ok_iff.mp h
  obtain ⟨hpath, hmethod, rfl, rfl, hparameters⟩ := hfinish body h
  exact ⟨hpath, hmethod, hid, hbody, own, hown, hparameters⟩

theorem gives_of_resolve {v : Json} (hv : v.NamedOnce) (hr : OperationRecord.shape.read {} v = .ok r)
    (h : r.resolve path method common = .ok o) : OperationMember.Gives ⟨path, method, v⟩ o := by
  obtain ⟨hpath, hmethod, hid, -⟩ := OperationRecord.of_resolve h
  obtain ⟨hid, hnamed⟩ := Option.filter_eq_some_iff.mp hid
  exact ⟨hpath, hmethod, (OperationRecord.id_of_read hv hr).symm.trans hid, by simpa using hnamed⟩

theorem foldlM_enumerates {α β γ ε : Type} {f : List β → α → Except ε (List β)} {g : α → List γ}
    {R : γ → β → Prop} {as : List α}
    (step : ∀ a ∈ as, ∀ bs bs', f bs a = .ok bs' → ∃ new, bs' = bs ++ new ∧ List.Forall₂ R (g a) new)
    {bs bs' : List β} (h : as.foldlM f bs = .ok bs') :
    ∃ new, bs' = bs ++ new ∧ List.Forall₂ R (as.flatMap g) new := by
  induction as generalizing bs with
  | nil =>
    cases h
    exact ⟨[], (List.append_nil _).symm, .nil⟩
  | cons a as ih =>
    obtain ⟨step, steps⟩ := List.forall_mem_cons.mp step
    obtain ⟨bs₁, hstep, h⟩ := bind_eq_ok_iff.mp h
    obtain ⟨new, rfl, hnew⟩ := step _ _ hstep
    obtain ⟨rest, rfl, hrest⟩ := ih steps h
    exact ⟨new ++ rest, List.append_assoc .., List.rel_append hnew hrest⟩

/-- The operation that is made of a member, with what its path item has for all of them. -/
inductive OperationMember.Makes (paths : Table Json) : OperationMember → Operation → Prop where
  | intro {path : String} {item : Table Json} {key : String} {v : Json} {method : Method}
      {common : List Parameter} {r : OperationRecord} {o : Operation} :
      (path, .object item) ∈ paths → (key, v) ∈ item → commonParameters path item = .ok common →
      OperationRecord.shape.read {} v = .ok r → r.resolve path method common = .ok o →
      Makes paths ⟨path, method, v⟩ o

theorem OperationMember.Makes.gives (h : Makes paths m o) (hpaths : Json.NamedOnce (.object paths)) :
    m.Gives o := by
  obtain ⟨hitem, hv, -, hread, hresolve⟩ := h
  have hnamed := (Json.namedOnce_object_iff.mp hpaths).2 _ hitem
  exact gives_of_resolve ((Json.namedOnce_object_iff.mp hnamed).2 _ hv) hread hresolve

/-- A member that is not named after a method adds nothing. -/
theorem addMember_enumerates (hitem : (path, .object item) ∈ paths) (hv : (key, v) ∈ item)
    (hcommon : commonParameters path item = .ok common)
    (hread : readOperation path common key v = .ok o) (hadd : addOperation done o = .ok ops) :
    ∃ new, ops = done ++ new ∧ List.Forall₂ (OperationMember.Makes paths)
      ((Method.ofKey? key).map fun method => ⟨path, method, v⟩).toList new := by
  unfold readOperation at hread
  split at hread
  · rename_i hkey
    cases hread
    cases hadd
    exact ⟨[], (List.append_nil done).symm, hkey ▸ .nil⟩
  · rename_i method hkey
    split at hread
    · cases hread
    · rename_i r hr
      obtain ⟨o, hresolve, rfl⟩ := map_eq_ok_iff.mp hread
      rw [addOperation] at hadd
      split at hadd
      · cases hadd
      · cases hadd
        rw [hkey]
        exact ⟨[o], rfl, .cons (.intro hitem hv hcommon hr hresolve) .nil⟩

theorem addPathItem_enumerates (hitem : (path, item) ∈ paths)
    (h : addPathItem done path item = .ok ops) :
    ∃ new, ops = done ++ new ∧
      List.Forall₂ (OperationMember.Makes paths) (itemMembers path item) new := by
  cases item with
  | object members =>
    obtain ⟨common, hcommon, h⟩ := bind_eq_ok_iff.mp h
    rw [itemMembers, Json.members?, Option.getD_some, List.filterMap_eq_flatMap_toList]
    apply foldlM_enumerates ?_ h
    rintro ⟨key, v⟩ hmem bs bs' hstep
    obtain ⟨o, hread, hadd⟩ := bind_eq_ok_iff.mp hstep
    exact addMember_enumerates hitem hmem hcommon hread hadd
  | _ => cases h

theorem addPaths_enumerates (h : addPaths [] paths = .ok ops) :
    List.Forall₂ (OperationMember.Makes paths) (operationMembers paths) ops := by
  suffices hnew : ∃ new, ops = [] ++ new ∧
      List.Forall₂ (OperationMember.Makes paths) (operationMembers paths) new by
    obtain ⟨new, rfl, hnew⟩ := hnew
    exact hnew
  apply foldlM_enumerates ?_ h
  rintro ⟨path, item⟩ hmem bs bs' hstep
  simp only at hstep ⊢
  split at hstep
  · rename_i hextension
    cases hstep
    rw [if_pos hextension]
    exact ⟨[], (List.append_nil bs).symm, .nil⟩
  · rename_i hextension
    rw [if_neg hextension]
    exact addPathItem_enumerates hmem hstep

theorem ApiDocument.ofText_paths {d : ApiDocument} (h : ofText text = .ok d) :
    ∃ paths, pathsOf? text = some paths ∧ Json.NamedOnce (.object paths) ∧
      List.Forall₂ (OperationMember.Makes paths) (operationMembers paths) d.operations := by
  obtain ⟨v, root, paths, hread, hroot, hpaths, hadd⟩ := ofText_operations h
  have honce : root.NamedOnce := (Json.namedOnce_of_read hread).dereference hroot
  refine ⟨paths, by simpa [pathsOf?, hread, hroot, Except.toOption] using hpaths, ?_,
    addPaths_enumerates hadd⟩
  obtain ⟨w, hw, hmembers⟩ := Option.bind_eq_some_iff.mp hpaths
  cases w with
  | object ms =>
    cases hmembers
    exact honce.get? hw
  | _ => cases hmembers

theorem map_operationId? (h : List.Forall₂ OperationMember.Gives ms ops) :
    ms.map (operationId? ·.value) = ops.map (some ·.id) := by
  rw [← List.forall₂_eq_eq_eq, List.forall₂_map_left_iff, List.forall₂_map_right_iff]
  exact h.imp fun _ _ h => h.id

theorem mem_ids_iff (h : List.Forall₂ OperationMember.Gives ms ops) {id : String} :
    id ∈ ops.map (·.id) ↔ ∃ m ∈ ms, operationId? m.value = some id := by
  have hid : id ∈ ops.map (·.id) ↔ some id ∈ ops.map (some ·.id) := by simp
  rw [hid, ← map_operationId? h, List.mem_map]

end RestRoutes
