import RestRoutes.Json.Reader
import RestRoutes.Proofs.Json.Pointer
import RestRoutes.Proofs.Json.ReferenceFree
import RestRoutes.Proofs.Table

namespace RestRoutes.Json

/-- Every object anywhere in the value has each of its names once. -/
def NamedOnce (v : Json) : Prop := ∀ ms, Inside (.object ms) v → (Table.names ms).Nodup

theorem namedOnce_array_iff {vs : List Json} : NamedOnce (.array vs) ↔ ∀ v ∈ vs, NamedOnce v :=
  forall_inside_array_iff

theorem namedOnce_object_iff {ms : Table Json} :
    NamedOnce (.object ms) ↔ (Table.names ms).Nodup ∧ ∀ e ∈ ms, NamedOnce e.2 :=
  forall_inside_object_iff

theorem namedOnce_null : NamedOnce .null := fun _ h => by cases h

theorem namedOnce_bool (b : Bool) : NamedOnce (.bool b) := fun _ h => by cases h

theorem namedOnce_number (x : JsonNumber) : NamedOnce (.number x) := fun _ h => by cases h

theorem namedOnce_string (s : String) : NamedOnce (.string s) := fun _ h => by cases h

theorem NamedOnce.put {ms : Table Json} {name : String} {v : Json} (h : NamedOnce (.object ms))
    (hv : NamedOnce v) : NamedOnce (.object (Table.put ms name v)) := by
  rw [namedOnce_object_iff] at h ⊢
  refine ⟨Table.nodup_names_put h.1 name v, fun e he => ?_⟩
  rcases Table.mem_put he with he | rfl
  · exact h.2 e he
  · exact hv

/-- A literal is no object and holds none. -/
def Lexeme.NamedOnce : Lexeme → Prop
  | .literal v => v.NamedOnce
  | _ => True

theorem namedOnce_word {v : Json} (h : v.NamedOnce) (letters s : List Char) :
    (word v letters s).1.NamedOnce := by
  unfold word
  split
  · exact h
  · trivial

theorem namedOnce_scanLexeme (c : Char) (s : List Char) : (scanLexeme c s).1.NamedOnce := by
  unfold scanLexeme
  split
  case h_7 => split <;> trivial
  case h_8 => exact namedOnce_word namedOnce_null _ s
  case h_9 => exact namedOnce_word (namedOnce_bool true) _ s
  case h_10 => exact namedOnce_word (namedOnce_bool false) _ s
  case h_11 =>
    split
    · split
      · exact namedOnce_number _
      · trivial
    · trivial
  all_goals trivial

theorem Lexeme.NamedOnce.after {l : Lexeme} (h : l.NamedOnce) (offset : Nat) :
    (l.after offset).NamedOnce := by
  cases l <;> exact h

theorem namedOnce_tokens (offset : Nat) (s : List Char) :
    ∀ t ∈ tokens offset s, t.lexeme.NamedOnce := by
  fun_induction tokens offset s with
  | case1 => nofun
  | case2 offset c s _ ih => exact ih
  | case3 offset c s _ lexeme taken read hlexeme ih =>
    have hl : lexeme.NamedOnce := by
      simpa [hlexeme] using namedOnce_scanLexeme c s
    rw [List.forall_mem_cons]
    refine ⟨hl.after offset, ?_⟩
    split
    · nofun
    · exact ih

def Frame.NamedOnce : Frame → Prop
  | .items done => ∀ v ∈ done, v.NamedOnce
  | .member done _ => Json.NamedOnce (.object done)

/-- Whatever the reader holds, and the value once it is read. -/
def Reader.NamedOnce : Reader → Prop
  | .needValue stack => ∀ f ∈ stack, f.NamedOnce
  | .needItem done stack => (∀ v ∈ done, v.NamedOnce) ∧ ∀ f ∈ stack, f.NamedOnce
  | .needItemEnd done stack => (∀ v ∈ done, v.NamedOnce) ∧ ∀ f ∈ stack, f.NamedOnce
  | .needName done stack => Json.NamedOnce (.object done) ∧ ∀ f ∈ stack, f.NamedOnce
  | .needColon done _ stack => Json.NamedOnce (.object done) ∧ ∀ f ∈ stack, f.NamedOnce
  | .needMemberEnd done stack => Json.NamedOnce (.object done) ∧ ∀ f ∈ stack, f.NamedOnce
  | .finished v => v.NamedOnce

namespace Reader

theorem namedOnce_complete {v : Json} {stack : List Frame} (hv : v.NamedOnce)
    (hstack : ∀ f ∈ stack, f.NamedOnce) : (complete v stack).NamedOnce := by
  cases stack with
  | nil => exact hv
  | cons f stack =>
    obtain ⟨hf, hrest⟩ := List.forall_mem_cons.mp hstack
    cases f with
    | items done => exact ⟨List.forall_mem_cons.mpr ⟨hv, hf⟩, hrest⟩
    | member done name => exact ⟨Json.NamedOnce.put hf hv, hrest⟩

theorem namedOnce_begin {stack : List Frame} {t : Token} {r : Reader} (ht : t.lexeme.NamedOnce)
    (hstack : ∀ f ∈ stack, f.NamedOnce) (h : begin stack t = .ok r) : r.NamedOnce := by
  unfold begin at h
  split at h
  · rename_i v hl
    rw [hl] at ht
    cases h
    exact namedOnce_complete ht hstack
  · cases h
    exact namedOnce_complete (namedOnce_string _) hstack
  · split at h
    · cases h
      exact ⟨nofun, hstack⟩
    · cases h
  · split at h
    · cases h
      exact ⟨namedOnce_object_iff.mpr ⟨.nil, nofun⟩, hstack⟩
    · cases h
  all_goals cases h

theorem NamedOnce.step {r r' : Reader} {t : Token} (hr : r.NamedOnce) (ht : t.lexeme.NamedOnce)
    (h : r.step t = .ok r') : r'.NamedOnce := by
  cases r with
  | needValue stack => exact namedOnce_begin ht hr h
  | needItem done stack =>
    obtain ⟨hdone, hstack⟩ := hr
    simp only [Reader.step] at h
    split at h
    · split at h
      · cases h
        exact namedOnce_complete (namedOnce_array_iff.mpr nofun) hstack
      · cases h
    · have hframes : ∀ f ∈ Frame.items done :: stack, f.NamedOnce :=
        List.forall_mem_cons.mpr ⟨hdone, hstack⟩
      exact namedOnce_begin ht hframes h
  | needItemEnd done stack =>
    obtain ⟨hdone, hstack⟩ := hr
    simp only [Reader.step] at h
    split at h
    · cases h
      exact ⟨hdone, hstack⟩
    · cases h
      exact namedOnce_complete (namedOnce_array_iff.mpr (by simpa using hdone)) hstack
    · cases h
  | needName done stack =>
    obtain ⟨hdone, hstack⟩ := hr
    simp only [Reader.step] at h
    split at h
    · cases h
      exact ⟨hdone, hstack⟩
    · cases h
    · split at h
      · cases h
        exact namedOnce_complete (namedOnce_object_iff.mpr ⟨.nil, nofun⟩) hstack
      · cases h
    · cases h
  | needColon done name stack =>
    obtain ⟨hdone, hstack⟩ := hr
    simp only [Reader.step] at h
    split at h
    · cases h
      exact List.forall_mem_cons.mpr ⟨hdone, hstack⟩
    · cases h
  | needMemberEnd done stack =>
    obtain ⟨hdone, hstack⟩ := hr
    simp only [Reader.step] at h
    split at h
    · cases h
      exact ⟨hdone, hstack⟩
    · cases h
      exact namedOnce_complete hdone hstack
    · cases h
  | finished v => cases h

theorem NamedOnce.run {r r' : Reader} {ts : List Token} (hr : r.NamedOnce)
    (hts : ∀ t ∈ ts, t.lexeme.NamedOnce) (h : r.run ts = .ok r') : r'.NamedOnce := by
  induction ts generalizing r with
  | nil =>
    cases h
    exact hr
  | cons t ts ih =>
    obtain ⟨ht, hts⟩ := List.forall_mem_cons.mp hts
    rw [Reader.run] at h
    split at h
    · rename_i hstep
      exact ih (hr.step ht hstep) hts h
    · cases h

end Reader

theorem namedOnce_of_read {text : List Char} {v : Json} (h : read text = .ok v) : v.NamedOnce := by
  unfold read at h
  split at h
  · cases h
  · rename_i r hrun
    have hr : r.NamedOnce := Reader.NamedOnce.run (r := .needValue []) nofun (namedOnce_tokens 0 text) hrun
    split at h
    · rename_i v' hfinish
      cases h
      cases r <;> cases hfinish
      exact hr
    · cases h

theorem inside_of_child? {v w : Json} {segment : List Char} (h : v.child? segment = some w) :
    ∀ {u}, Inside u w → Inside u v := by
  intro u hu
  unfold child? at h
  split at h
  · exact .member (Table.mem_of_get? h) hu
  · obtain ⟨i, -, hi⟩ := Option.bind_eq_some_iff.mp h
    exact .item (List.mem_of_getElem? hi) hu
  · cases h

theorem inside_of_at? {v w : Json} {segments : List (List Char)} (h : v.at? segments = some w) :
    ∀ {u}, Inside u w → Inside u v := by
  induction segments generalizing v with
  | nil =>
    cases h
    exact id
  | cons segment segments ih =>
    obtain ⟨child, hchild, h⟩ := Option.bind_eq_some_iff.mp h
    exact fun hu => inside_of_child? hchild (ih h hu)

theorem inside_of_target {root t : Json} {reference : String} (h : target root reference = .ok t) :
    ∀ {u}, Inside u t → Inside u root := by
  obtain ⟨segments, -, hat⟩ := target_eq_ok_iff.mp h
  exact inside_of_at? hat

theorem NamedOnce.get? {v w : Json} {name : String} (hv : v.NamedOnce) (h : v.get? name = some w) :
    w.NamedOnce := by
  cases v with
  | object ms => exact (namedOnce_object_iff.mp hv).2 _ (Table.mem_of_get? h)
  | _ => cases h

theorem NamedOnce.target {root t : Json} {reference : String} (hroot : root.NamedOnce)
    (h : target root reference = .ok t) : t.NamedOnce :=
  fun ms hms => hroot ms (inside_of_target h hms)

/-- The names of every object anywhere in the value have a property. -/
def EachNames (q : List String → Prop) (v : Json) : Prop := ∀ ms, Inside (.object ms) v → q (Table.names ms)

/-- What an object has of its names it keeps when members of another one are written over it. -/
def Merges (q : List String → Prop) : Prop := ∀ (base more : Table Json) (names : List String),
  q base.names → q names → more.names.Sublist names → q (base.putAll more).names

variable {root : Json} {q : List String → Prop}

mutual

theorem Expands.eachNames (hq : Merges q) (hroot : EachNames q root) :
    Expands root n v w → EachNames q v → EachNames q w
  | .null, h => h
  | .bool _, h => h
  | .number _, h => h
  | .string _, h => h
  | .array items, h =>
    forall_inside_array_iff.mpr (ExpandsItems.eachNames hq hroot items (forall_inside_array_iff.mp h))
  | .object _ members, h => by
    obtain ⟨hnames, hmembers⟩ := forall_inside_object_iff.mp h
    rw [← members.names] at hnames
    exact forall_inside_object_iff.mpr ⟨hnames, ExpandsMembers.eachNames hq hroot members hmembers⟩
  | .reference refers value _, _ =>
    Expands.eachNames hq hroot value fun ms hms => hroot ms (inside_of_target refers.found hms)
  | .merge refers value beside, h => by
    obtain ⟨hnames, hmembers⟩ := forall_inside_object_iff.mp h
    obtain ⟨hbase, hvalues⟩ := forall_inside_object_iff.mp
      (Expands.eachNames hq hroot value fun ms hms => hroot ms (inside_of_target refers.found hms))
    have hbeside := ExpandsMembers.eachNames hq hroot beside fun e he =>
      hmembers e (List.mem_filter.mp he).1
    refine forall_inside_object_iff.mpr ⟨hq _ _ _ hbase hnames ?_, fun e he => ?_⟩
    · rw [beside.names]
      exact List.filter_sublist.map Prod.fst
    · exact (Table.mem_putAll he).elim (hvalues e) (hbeside e)

theorem ExpandsItems.eachNames (hq : Merges q) (hroot : EachNames q root) :
    ExpandsItems root n vs ws → (∀ v ∈ vs, EachNames q v) → ∀ w ∈ ws, EachNames q w
  | .nil, _ => nofun
  | .cons head tail, h =>
    have h := List.forall_mem_cons.mp h
    List.forall_mem_cons.mpr ⟨Expands.eachNames hq hroot head h.1, ExpandsItems.eachNames hq hroot tail h.2⟩

theorem ExpandsMembers.eachNames (hq : Merges q) (hroot : EachNames q root) :
    ExpandsMembers root n ms ms' → (∀ e ∈ ms, EachNames q e.2) → ∀ e ∈ ms', EachNames q e.2
  | .nil, _ => nofun
  | .cons _ head tail, h =>
    have h := List.forall_mem_cons.mp h
    List.forall_mem_cons.mpr ⟨Expands.eachNames hq hroot head h.1, ExpandsMembers.eachNames hq hroot tail h.2⟩

end

theorem EachNames.dereference (hq : Merges q) (hroot : EachNames q root) (h : root.dereference = .ok v) :
    EachNames q v := by
  obtain ⟨n, -, hexpands⟩ := expandWith_sound (followFrom_sound [] referenceLimit) h
  exact hexpands.eachNames hq hroot hroot

theorem NamedOnce.dereference {v : Json} (hroot : root.NamedOnce) (h : root.dereference = .ok v) :
    v.NamedOnce :=
  EachNames.dereference (fun _ more _ hbase _ _ => Table.nodup_names_putAll hbase more) hroot h

/-- A name of some object in the value. -/
def HasName (v : Json) (name : String) : Prop := ∃ ms, Inside (.object ms) v ∧ name ∈ Table.names ms

/-- No name is new. -/
theorem hasName_of_dereference {v : Json} {name : String} (h : root.dereference = .ok v)
    (hname : v.HasName name) : root.HasName name := by
  have hmerges : Merges fun names => ∀ name ∈ names, root.HasName name := by
    intro base more names hbase hnames hsub name hmem
    obtain ⟨e, he, rfl⟩ := List.mem_map.mp hmem
    rcases Table.mem_putAll he with he | he
    · exact hbase e.1 (List.mem_map_of_mem he)
    · exact hnames e.1 (hsub.mem (List.mem_map_of_mem he))
  obtain ⟨ms, hms, hmem⟩ := hname
  exact EachNames.dereference hmerges (fun ms hms name hmem => ⟨ms, hms, hmem⟩) h ms hms name hmem

end RestRoutes.Json
