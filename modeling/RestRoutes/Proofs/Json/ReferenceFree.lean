import RestRoutes.Proofs.Json.Dereference

namespace RestRoutes.Json

/-- A value that stands somewhere in `v`, or is `v` itself. -/
inductive Inside : Json → Json → Prop where
  | self (v : Json) : Inside v v
  | item (mem : v ∈ vs) (within : Inside u v) : Inside u (.array vs)
  | member (mem : (name, v) ∈ ms) (within : Inside u v) : Inside u (.object ms)

/-- No object anywhere in the value is a reference, well-formed or not. -/
def ReferenceFree (v : Json) : Prop := ∀ ms, Inside (.object ms) v → refName ∉ Table.names ms

/-- A property of all objects inside is one of those inside the items. -/
theorem forall_inside_array_iff {p : Table Json → Prop} {vs : List Json} :
    (∀ ms, Inside (.object ms) (.array vs) → p ms) ↔
      ∀ v ∈ vs, ∀ ms, Inside (.object ms) v → p ms := by
  constructor
  · intro h v hv ms hms
    exact h ms (.item hv hms)
  · intro h ms hms
    cases hms with
    | item mem within => exact h _ mem ms within

theorem forall_inside_object_iff {p : Table Json → Prop} {ms : Table Json} :
    (∀ us, Inside (.object us) (.object ms) → p us) ↔
      p ms ∧ ∀ e ∈ ms, ∀ us, Inside (.object us) e.2 → p us := by
  constructor
  · intro h
    exact ⟨h ms (.self _), fun e he us hus => h us (.member he hus)⟩
  · rintro ⟨hself, hmembers⟩ us hus
    cases hus with
    | self => exact hself
    | member mem within => exact hmembers _ mem us within

theorem referenceFree_array_iff {vs : List Json} :
    ReferenceFree (.array vs) ↔ ∀ v ∈ vs, ReferenceFree v :=
  forall_inside_array_iff

theorem referenceFree_object_iff {ms : Table Json} :
    ReferenceFree (.object ms) ↔ refName ∉ Table.names ms ∧ ∀ e ∈ ms, ReferenceFree e.2 :=
  forall_inside_object_iff

theorem refName_notMem_siblings (ms : Table Json) : refName ∉ Table.names (siblings ms) := by
  simp [Table.names, siblings]

variable {root : Json}

/-- Expansion keeps the names. -/
theorem ExpandsMembers.names (h : ExpandsMembers root n ms ms') :
    Table.names ms' = Table.names ms := by
  induction ms generalizing n ms' with
  | nil =>
    cases h
    rfl
  | cons m ms ih =>
    cases h with
    | cons name _ tail => exact congrArg (name :: ·) (ih tail)

mutual

/-- What stands beside a reference is written over an object that has no reference left, and the name of
the reference is not among it. -/
theorem Expands.referenceFree : Expands root n v w → ReferenceFree w
  | .null => fun _ h => by cases h
  | .bool _ => fun _ h => by cases h
  | .number _ => fun _ h => by cases h
  | .string _ => fun _ h => by cases h
  | .array items => referenceFree_array_iff.mpr (ExpandsItems.referenceFree items)
  | .object plain members => by
    rw [referenceFree_object_iff, members.names]
    exact ⟨Table.get?_eq_none_iff.mp plain, ExpandsMembers.referenceFree members⟩
  | .reference _ value _ => Expands.referenceFree value
  | .merge _ value beside => by
    obtain ⟨hnames, hbase⟩ := referenceFree_object_iff.mp (Expands.referenceFree value)
    have hbeside := ExpandsMembers.referenceFree beside
    have hsiblings := beside.names ▸ refName_notMem_siblings _
    rw [referenceFree_object_iff]
    constructor
    · intro hmem
      obtain ⟨e, he, hname⟩ := List.mem_map.mp hmem
      rcases Table.mem_putAll he with he | he
      · exact hnames (List.mem_map.mpr ⟨e, he, hname⟩)
      · exact hsiblings (List.mem_map.mpr ⟨e, he, hname⟩)
    · intro e he
      rcases Table.mem_putAll he with he | he
      · exact hbase e he
      · exact hbeside e he

theorem ExpandsItems.referenceFree : ExpandsItems root n vs ws → ∀ w ∈ ws, ReferenceFree w
  | .nil => by simp
  | .cons head tail =>
    List.forall_mem_cons.mpr ⟨Expands.referenceFree head, ExpandsItems.referenceFree tail⟩

theorem ExpandsMembers.referenceFree : ExpandsMembers root n ms ms' → ∀ e ∈ ms', ReferenceFree e.2
  | .nil => by simp
  | .cons _ head tail =>
    List.forall_mem_cons.mpr ⟨Expands.referenceFree head, ExpandsMembers.referenceFree tail⟩

end

mutual

/-- A value without references is its own expansion in any document. -/
theorem ReferenceFree.expands : (v : Json) → ReferenceFree v → Expands root 0 v v
  | .null, _ => .null
  | .bool b, _ => .bool b
  | .number x, _ => .number x
  | .string s, _ => .string s
  | .array vs, h => .array (ReferenceFree.expandsItems vs (referenceFree_array_iff.mp h))
  | .object ms, h =>
    have h := referenceFree_object_iff.mp h
    .object (Table.get?_eq_none_iff.mpr h.1) (ReferenceFree.expandsMembers ms h.2)

theorem ReferenceFree.expandsItems : (vs : List Json) → (∀ v ∈ vs, ReferenceFree v) →
    ExpandsItems root 0 vs vs
  | [], _ => .nil
  | v :: vs, h =>
    have h := List.forall_mem_cons.mp h
    .cons (ReferenceFree.expands v h.1) (ReferenceFree.expandsItems vs h.2)

theorem ReferenceFree.expandsMembers : (ms : List (String × Json)) → (∀ e ∈ ms, ReferenceFree e.2) →
    ExpandsMembers root 0 ms ms
  | [], _ => .nil
  | (name, v) :: ms, h =>
    have h := List.forall_mem_cons.mp h
    .cons name (ReferenceFree.expands v h.1) (ReferenceFree.expandsMembers ms h.2)

end

theorem referenceFree_of_dereference (h : root.dereference = .ok v) : ReferenceFree v := by
  obtain ⟨n, -, hexpands⟩ := expandWith_sound (followFrom_sound [] referenceLimit) h
  exact hexpands.referenceFree

theorem ReferenceFree.dereference (h : ReferenceFree root) : root.dereference = .ok root :=
  (ReferenceFree.expands root h).dereference.reached (Nat.zero_le _)

/-- One expansion is enough, and it changes nothing where there is nothing to expand: not a name, not a
value, not their order. -/
theorem dereference_idempotent (root : Json) :
    (∀ v, root.dereference = .ok v → ReferenceFree v ∧ v.dereference = .ok v) ∧
    (ReferenceFree root ↔ root.dereference = .ok root) := by
  refine ⟨fun v h => ?_, fun h => h.dereference, fun h => referenceFree_of_dereference h⟩
  have hfree := referenceFree_of_dereference h
  exact ⟨hfree, hfree.dereference⟩

/-- References in a list, to a reference with a member beside it, and beside one. -/
def tangle : Json := .object [
  ("a", .array [.object [(refName, .string "#/b")], .null]),
  ("b", .object [("x", .object [(refName, .string "#/d")]), (refName, .string "#/c")]),
  ("c", .object [("x", .null), ("y", .bool true)]),
  ("d", .object [("z", .array [])])]

def untangled : Json :=
  let x : String × Json := ("x", .object [("z", .array [])])
  .object [
    ("a", .array [.object [x, ("y", .bool true)], .null]),
    ("b", .object [x, ("y", .bool true)]),
    ("c", .object [("x", .null), ("y", .bool true)]),
    ("d", .object [("z", .array [])])]

theorem dereference_idempotent_tangle : tangle.dereference = .ok untangled ∧ ReferenceFree untangled ∧
    untangled.dereference = .ok untangled ∧ ¬ ReferenceFree tangle := by
  have h : tangle.dereference = .ok untangled := rfl
  obtain ⟨hfree, hagain⟩ := (dereference_idempotent tangle).1 untangled h
  have hinside : Inside (.object [(refName, .string "#/b")]) tangle :=
    .member List.mem_cons_self (.item List.mem_cons_self (.self _))
  exact ⟨h, hfree, hagain, fun htangle => htangle _ hinside List.mem_cons_self⟩

end RestRoutes.Json
