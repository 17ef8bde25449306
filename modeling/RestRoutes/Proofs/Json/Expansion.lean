import RestRoutes.Json.Reference

namespace RestRoutes.Json

/-- An object with these members is a reference to `t`. -/
structure Refers (root : Json) (members : Table Json) (reference : String) (t : Json) : Prop where
  holder : members.get? refName = some (.string reference)
  found : target root reference = .ok t

/-- The members that stand beside a reference. -/
def siblings (members : Table Json) : Table Json := members.filter (·.1 ≠ refName)

mutual

/-- `Expands root n v w` says that `w` is `v` with every reference written out, and that references
are nested `n` deep in doing so. What stands beside a reference is read only if the reference names
something that expands to an object. -/
inductive Expands (root : Json) : Nat → Json → Json → Prop where
  | null : Expands root 0 .null .null
  | bool (b : Bool) : Expands root 0 (.bool b) (.bool b)
  | number (x : JsonNumber) : Expands root 0 (.number x) (.number x)
  | string (s : String) : Expands root 0 (.string s) (.string s)
  | array (items : ExpandsItems root n vs ws) : Expands root n (.array vs) (.array ws)
  | object (plain : Table.get? ms refName = none) (members : ExpandsMembers root n ms ms') :
      Expands root n (.object ms) (.object ms')
  | reference (refers : Refers root ms r t) (value : Expands root n t w) (other : w.members? = none) :
      Expands root (n + 1) (.object ms) w
  | merge (refers : Refers root ms r t) (value : Expands root n t (.object base))
      (beside : ExpandsMembers root m (siblings ms) ms') :
      Expands root (max (n + 1) m) (.object ms) (.object (Table.putAll base ms'))

inductive ExpandsItems (root : Json) : Nat → List Json → List Json → Prop where
  | nil : ExpandsItems root 0 [] []
  | cons (head : Expands root n v w) (tail : ExpandsItems root m vs ws) :
      ExpandsItems root (max n m) (v :: vs) (w :: ws)

inductive ExpandsMembers (root : Json) : Nat → Table Json → Table Json → Prop where
  | nil : ExpandsMembers root 0 [] []
  | cons (name : String) (head : Expands root n v w) (tail : ExpandsMembers root m ms ms') :
      ExpandsMembers root (max n m) ((name, v) :: ms) ((name, w) :: ms')

end

variable {root : Json}

theorem Refers.unique (h : Refers root ms r t) (h' : Refers root ms r' t') : r = r' ∧ t = t' := by
  obtain rfl : r = r' := by simpa [h.holder] using h'.holder
  obtain rfl : t = t' := by simpa [h.found] using h'.found
  exact ⟨rfl, rfl⟩

theorem Refers.not_plain (h : Refers root ms r t) : Table.get? ms refName ≠ none := by
  simp [h.holder]

mutual

/-- The form of a value decides which rule expands it, so nothing else can come out. -/
theorem Expands.unique : Expands root n v w → Expands root m v w' → n = m ∧ w = w'
  | .null, h' => by cases h'; exact ⟨rfl, rfl⟩
  | .bool _, h' => by cases h'; exact ⟨rfl, rfl⟩
  | .number _, h' => by cases h'; exact ⟨rfl, rfl⟩
  | .string _, h' => by cases h'; exact ⟨rfl, rfl⟩
  | .array items, h' => by
    cases h' with
    | array items' =>
      obtain ⟨rfl, rfl⟩ := ExpandsItems.unique items items'
      exact ⟨rfl, rfl⟩
  | .object plain members, h' => by
    cases h' with
    | object _ members' =>
      obtain ⟨rfl, rfl⟩ := ExpandsMembers.unique members members'
      exact ⟨rfl, rfl⟩
    | reference refers => exact absurd plain refers.not_plain
    | merge refers => exact absurd plain refers.not_plain
  | .reference refers value other, h' => by
    cases h' with
    | object plain => exact absurd plain refers.not_plain
    | reference refers' value' =>
      obtain ⟨-, rfl⟩ := refers.unique refers'
      obtain ⟨rfl, rfl⟩ := Expands.unique value value'
      exact ⟨rfl, rfl⟩
    | merge refers' value' =>
      obtain ⟨-, rfl⟩ := refers.unique refers'
      obtain ⟨rfl, rfl⟩ := Expands.unique value value'
      simp [members?] at other
  | .merge refers value beside, h' => by
    cases h' with
    | object plain => exact absurd plain refers.not_plain
    | reference refers' value' other =>
      obtain ⟨-, rfl⟩ := refers.unique refers'
      obtain ⟨rfl, rfl⟩ := Expands.unique value value'
      simp [members?] at other
    | merge refers' value' beside' =>
      obtain ⟨-, rfl⟩ := refers.unique refers'
      obtain ⟨rfl, he⟩ := Expands.unique value value'
      obtain rfl := Json.object.inj he
      obtain ⟨rfl, rfl⟩ := ExpandsMembers.unique beside beside'
      exact ⟨rfl, rfl⟩

theorem ExpandsItems.unique : ExpandsItems root n vs ws → ExpandsItems root m vs ws' →
    n = m ∧ ws = ws'
  | .nil, h' => by cases h'; exact ⟨rfl, rfl⟩
  | .cons head tail, h' => by
    cases h' with
    | cons head' tail' =>
      obtain ⟨rfl, rfl⟩ := Expands.unique head head'
      obtain ⟨rfl, rfl⟩ := ExpandsItems.unique tail tail'
      exact ⟨rfl, rfl⟩

theorem ExpandsMembers.unique : ExpandsMembers root n ms ws → ExpandsMembers root m ms ws' →
    n = m ∧ ws = ws'
  | .nil, h' => by cases h'; exact ⟨rfl, rfl⟩
  | .cons _ head tail, h' => by
    cases h' with
    | cons _ head' tail' =>
      obtain ⟨rfl, rfl⟩ := Expands.unique head head'
      obtain ⟨rfl, rfl⟩ := ExpandsMembers.unique tail tail'
      exact ⟨rfl, rfl⟩

end

/-- `Needs root v u` says that `v` cannot be expanded before `u` is. -/
inductive Needs (root : Json) : Json → Json → Prop where
  | item (mem : v ∈ vs) : Needs root (.array vs) v
  | member (plain : Table.get? ms refName = none) (mem : (name, v) ∈ ms) : Needs root (.object ms) v
  | target (refers : Refers root ms r t) : Needs root (.object ms) t
  | sibling (refers : Refers root ms r t) (value : Expands root n t (.object base))
      (mem : (name, v) ∈ siblings ms) : Needs root (.object ms) v

/-- The expansion of a value goes on forever. Nothing is said of how the references on the way are
spelled, so a circle through several spellings of one place is endless too. -/
def Endless (root v : Json) : Prop :=
  ∃ f : Nat → Json, f 0 = v ∧ ∀ i, Needs root (f i) (f (i + 1))

/-- Each step into what a value needs stays within its derivation, which is finite. -/
def Settled (root v : Json) : Prop := Acc (fun u v => Needs root v u) v

mutual

theorem Expands.settled : Expands root n v w → Settled root v
  | .null => .intro _ (by intro u h; cases h)
  | .bool _ => .intro _ (by intro u h; cases h)
  | .number _ => .intro _ (by intro u h; cases h)
  | .string _ => .intro _ (by intro u h; cases h)
  | .array items => .intro _ (by
    intro u h
    cases h with
    | item mem => exact ExpandsItems.settled items u mem)
  | .object plain members => .intro _ (by
    intro u h
    cases h with
    | member _ mem => exact ExpandsMembers.settled members _ mem
    | target refers => exact absurd plain refers.not_plain
    | sibling refers => exact absurd plain refers.not_plain)
  | .reference refers value other => .intro _ (by
    intro u h
    cases h with
    | member plain => exact absurd plain refers.not_plain
    | target refers' =>
      obtain ⟨-, rfl⟩ := refers.unique refers'
      exact Expands.settled value
    | sibling refers' value' =>
      obtain ⟨-, rfl⟩ := refers.unique refers'
      obtain ⟨-, rfl⟩ := value.unique value'
      simp [members?] at other)
  | .merge refers value beside => .intro _ (by
    intro u h
    cases h with
    | member plain => exact absurd plain refers.not_plain
    | target refers' =>
      obtain ⟨-, rfl⟩ := refers.unique refers'
      exact Expands.settled value
    | sibling _ _ mem => exact ExpandsMembers.settled beside _ mem)

theorem ExpandsItems.settled : ExpandsItems root n vs ws → ∀ v ∈ vs, Settled root v
  | .nil => by simp
  | .cons head tail => List.forall_mem_cons.mpr ⟨Expands.settled head, ExpandsItems.settled tail⟩

theorem ExpandsMembers.settled : ExpandsMembers root n ms ws → ∀ e ∈ ms, Settled root e.2
  | .nil => by simp
  | .cons _ head tail => List.forall_mem_cons.mpr ⟨Expands.settled head, ExpandsMembers.settled tail⟩

end

theorem Settled.not_endless (h : Settled root v) : ¬ Endless root v := by
  induction h with
  | intro v _ ih =>
    rintro ⟨f, rfl, hf⟩
    exact ih _ (hf 0) ⟨fun i => f (i + 1), rfl, fun i => hf (i + 1)⟩

end RestRoutes.Json
