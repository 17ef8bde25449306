import Mathlib.Data.List.Nodup
import RestRoutes.Proofs.Json.Names
import RestRoutes.Spec.Record

namespace RestRoutes.RecordShape

variable {ρ α : Type} {s : RecordShape ρ}

def fieldNames (s : RecordShape ρ) : List String := s.fields.map (·.name)

/-- What a value gives for a record, by name. -/
def parts (s : RecordShape ρ) : Json → Table Json
  | .object members => members
  | .array items => s.fieldNames.zip items
  | _ => []

theorem find?_field (hs : s.fieldNames.Nodup) (hf : f ∈ s.fields) :
    s.fields.find? (·.name = f.name) = some f := by
  cases h : s.fields.find? (·.name = f.name) with
  | none => simpa using List.find?_eq_none.mp h f hf
  | some g =>
    have hname : g.name = f.name := by simpa using List.find?_some h
    rw [List.inj_on_of_nodup_map hs (List.mem_of_find?_eq_some h) hf hname]

theorem readMembers_of_readItems (hs : s.fieldNames.Nodup) {fields : List (Field ρ)}
    (hfields : ∀ f ∈ fields, f ∈ s.fields) (h : s.readItems r n fields items = .ok r') :
    s.readMembers r ((fields.map (·.name)).zip items) = .ok r' := by
  fun_induction readItems s r n fields items with
  | case1 r n =>
    cases h
    rfl
  | case2 => cases h
  | case3 r n f fields _ ih =>
    have := ih (List.forall_mem_cons.mp hfields).2 h
    simpa using this
  | case4 => cases h
  | case5 r n f fields v items r₁ hwrite ih =>
    obtain ⟨hf, hfields⟩ := List.forall_mem_cons.mp hfields
    apply bind_eq_ok_iff.mpr
    refine ⟨r₁, ?_, ih hfields h⟩
    simp only [find?_field hs hf]
    exact hwrite
  | case6 => cases h

theorem readMembers_of_read (hs : s.fieldNames.Nodup) (h : s.read r v = .ok r') :
    s.readMembers r (s.parts v) = .ok r' := by
  cases v with
  | object members => exact h
  | array items => exact readMembers_of_readItems hs (fun _ hf => hf) h
  | _ => cases h

theorem names_zip_sublist (names : List String) (items : List Json) :
    (Table.names (names.zip items)).Sublist names := by
  induction names generalizing items with
  | nil => exact .slnil
  | cons name names ih =>
    cases items with
    | nil => exact List.nil_sublist _
    | cons v items => exact (ih items).cons_cons name

theorem nodup_names_parts (hs : s.fieldNames.Nodup) {v : Json} (hv : v.NamedOnce) :
    (Table.names (s.parts v)).Nodup := by
  cases v with
  | object members => exact (Json.namedOnce_object_iff.mp hv).1
  | array items =>
    exact hs.sublist (names_zip_sublist s.fieldNames items)
  | _ => exact .nil

theorem namedOnce_part {v w : Json} {name : String} (hv : v.NamedOnce)
    (h : (s.parts v).get? name = some w) : w.NamedOnce := by
  have hmem := Table.mem_of_get? h
  cases v with
  | object members => exact (Json.namedOnce_object_iff.mp hv).2 _ hmem
  | array items => exact Json.namedOnce_array_iff.mp hv _ (List.of_mem_zip hmem).2
  | _ => cases hmem

/-- Only the field `name` is written to a place of the record, and it leaves `value` there. -/
structure Owns (s : RecordShape ρ) (name : String) (place : ρ → α) (value : Json → α) : Prop where
  declared : name ∈ s.fieldNames
  writes : ∀ f ∈ s.fields, f.name = name → ∀ {v r r'}, f.write v r = .ok r' → place r' = value v
  keeps : ∀ f ∈ s.fields, f.name ≠ name → ∀ {v r r'}, f.write v r = .ok r' → place r' = place r

/-- One field is written to the place, and none of those around it is. -/
theorem Owns.of_fields {place : ρ → α} {value : Json → α} {before after : List (Field ρ)} {f : Field ρ}
    (hs : s.fieldNames.Nodup) (hfields : s.fields = before ++ f :: after)
    (hplaced : ∀ {v r r'}, f.write v r = .ok r' → place r' = value v)
    (hkept : ∀ g ∈ before ++ after, ∀ {v r r'}, g.write v r = .ok r' → place r' = place r) :
    s.Owns f.name place value := by
  have hf : f ∈ s.fields := by simp [hfields]
  refine ⟨List.mem_map_of_mem hf, fun g hg hname v r r' h => ?_, fun g hg hname v r r' h => ?_⟩
  · rw [List.inj_on_of_nodup_map hs hg hf hname] at h
    exact hplaced h
  · have hother : g ≠ f := fun he => hname (he ▸ rfl)
    rw [hfields, List.mem_append, List.mem_cons] at hg
    exact hkept g (List.mem_append.mpr (hg.imp_right fun hg => hg.resolve_left hother)) h

/-- What a place holds once a value is read and set. -/
theorem place_of_set {β : Type} {place : ρ → α} {x : Except Mismatch β} {set : β → ρ} {r : ρ} {a : α}
    (h : (do return set (← x)) = Except.ok r) (hset : ∀ b, x = .ok b → place (set b) = a) :
    place r = a := by
  obtain ⟨b, hb, h⟩ := bind_eq_ok_iff.mp h
  cases h
  exact hset b hb

theorem some_place_of_set {place : ρ → α} {x : Except Mismatch α} {set : α → ρ} {r : ρ}
    (h : (do return set (← x)) = Except.ok r) (hset : ∀ a, place (set a) = a) :
    some (place r) = x.toOption := by
  obtain ⟨a, ha, h⟩ := bind_eq_ok_iff.mp h
  cases h
  rw [ha, hset]
  rfl

section
variable {name : String} {place : ρ → α} {value : Json → α} (ho : s.Owns name place value)
include ho

theorem Owns.readMember (h : s.readMembers r [(n, v)] = .ok r') :
    place r' = if n = name then value v else place r := by
  obtain ⟨r₁, hstep, h⟩ := bind_eq_ok_iff.mp h
  cases h
  simp only at hstep
  split at hstep
  · rename_i f hfound
    have hf := List.mem_of_find?_eq_some hfound
    have hfn : f.name = n := by simpa using List.find?_some hfound
    split
    · rename_i hname
      exact ho.writes f hf (hfn.trans hname) hstep
    · rename_i hname
      exact ho.keeps f hf (hfn ▸ hname) hstep
  · rename_i hnone
    cases hstep
    obtain ⟨f, hf, hfn⟩ := List.mem_map.mp ho.declared
    have hname : n ≠ name := by
      rintro rfl
      simpa [hfn] using List.find?_eq_none.mp hnone f hf
    rw [if_neg hname]

theorem Owns.readMembers {ms : Table Json} (hms : ms.names.Nodup)
    (h : s.readMembers r ms = .ok r') : place r' = (ms.get? name).elim (place r) value := by
  induction ms generalizing r with
  | nil =>
    cases h
    rfl
  | cons e ms ih =>
    obtain ⟨n, v⟩ := e
    obtain ⟨hn, hms⟩ := List.nodup_cons.mp hms
    obtain ⟨r₁, hstep, h⟩ := bind_eq_ok_iff.mp h
    have hfirst : s.readMembers r [(n, v)] = .ok r₁ := bind_eq_ok_iff.mpr ⟨r₁, hstep, rfl⟩
    rw [ih hms h, ho.readMember hfirst, Table.get?]
    split
    · rename_i hname
      rw [← hname, Table.get?_eq_none_iff.mpr hn]
      rfl
    · rfl

theorem Owns.read (hs : s.fieldNames.Nodup) {v : Json} (hv : v.NamedOnce) (h : s.read r v = .ok r') :
    place r' = ((s.parts v).get? name).elim (place r) value :=
  ho.readMembers (nodup_names_parts hs hv) (readMembers_of_read hs h)

end

end RestRoutes.RecordShape
