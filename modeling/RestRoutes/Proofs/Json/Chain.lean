import RestRoutes.Proofs.Json.Names

namespace RestRoutes

namespace Json

/-- The object `ms` refers to the first of `hs`, each of them to the next one, and the last to `t`, which
is no reference. -/
inductive Chain (root : Json) : Table Json → List (Table Json) → Json → Prop where
  | last (refers : Refers root ms r t) (plain : t.get? refName = none) : Chain root ms [] t
  | link (refers : Refers root ms r (.object next)) (rest : Chain root next hs t) :
      Chain root ms (next :: hs) t

/-- A place in a value, with no reference around it, and what stands there. -/
inductive Stands : Json → List (List Char) → Json → Prop where
  | here (v : Json) : Stands v [] v
  | step {segment : List Char} (plain : v.get? refName = none) (child : v.child? segment = some u)
      (rest : Stands u segments x) : Stands v (segment :: segments) x

variable {root t u v w : Json} {n m left : Nat} {hs : List (Table Json)} {ms ms' ts out : Table Json}

/-- The value `w` is what `v` stands for in the document. -/
def Means (root v w : Json) : Prop := ∃ n, Expands root n v w

/-- The member of this name that stands nearest to the beginning of the chain. -/
def nearest? (hs : List (Table Json)) (ts : Table Json) (name : String) : Option Json :=
  (hs.findSome? fun h => Table.get? (siblings h) name).or (Table.get? ts name)

/-- The names at the end of the chain, then those that each reference adds, the last reference first. -/
def namesAlong (hs : List (Table Json)) (ts : Table Json) : List String :=
  hs.foldr (fun h names => names ++ (Table.names (siblings h)).filter (· ∉ names)) (Table.names ts)

/-- The members that the references `hs` leave of an object with the members `ts`. -/
structure Layered (root : Json) (hs : List (Table Json)) (ts out : Table Json) : Prop where
  names : Table.names out = namesAlong hs ts
  values : ∀ name, Option.Rel (Means root) (nearest? hs ts name) (Table.get? out name)

/-- What the references `hs` make of what the last of them names. -/
structure Chained (root : Json) (hs : List (Table Json)) (t w : Json) : Prop where
  object : ∀ ts, t = .object ts → ∃ out, w = .object out ∧ Layered root hs ts out
  other : t.members? = none → Means root t w
  kept : t.members? = none → ReferenceFree t → w = t

/-- Members are expanded under their names. -/
theorem ExpandsMembers.get?_eq_some (h : ExpandsMembers root n ms ms') {name : String}
    (hv : Table.get? ms name = some v) :
    ∃ k ≤ n, ∃ w, Table.get? ms' name = some w ∧ Expands root k v w := by
  induction ms generalizing n ms' with
  | nil => cases hv
  | cons e ms ih =>
    cases h with
    | cons name' head tail =>
      rw [Table.get?] at hv ⊢
      split at hv
      · cases hv
        exact ⟨_, Nat.le_max_left _ _, _, if_pos ‹_›, head⟩
      · obtain ⟨k, hk, w, hw, value⟩ := ih tail hv
        exact ⟨k, Nat.le_trans hk (Nat.le_max_right _ _), w, (if_neg ‹_›).trans hw, value⟩

theorem ExpandsMembers.get? (h : ExpandsMembers root n ms ms') (name : String) :
    Option.Rel (Means root) (Table.get? ms name) (Table.get? ms' name) := by
  cases hv : Table.get? ms name with
  | none =>
    rw [Table.get?_eq_none_iff, ← h.names, ← Table.get?_eq_none_iff] at hv
    rw [hv]
    exact .none
  | some v =>
    obtain ⟨k, -, w, hw, value⟩ := h.get?_eq_some hv
    rw [hw]
    exact .some ⟨k, value⟩

theorem nodup_siblings (h : (Table.names ms).Nodup) : (Table.names (siblings ms)).Nodup :=
  h.sublist (List.filter_sublist.map _)

theorem nearest?_cons (ms : Table Json) (hs : List (Table Json)) (ts : Table Json) (name : String) :
    nearest? (ms :: hs) ts name = (Table.get? (siblings ms) name).or (nearest? hs ts name) := by
  rw [nearest?, nearest?, List.findSome?_cons, ← Option.or_assoc]
  cases Table.get? (siblings ms) name <;> rfl

/-- An object is layered over nothing by itself. -/
theorem Layered.nil (h : ExpandsMembers root n ts out) : Layered root [] ts out := ⟨h.names, h.get?⟩

/-- What stands beside a reference is one more layer. -/
theorem Layered.cons (h : Layered root hs ts out) (hms : (Table.names ms).Nodup)
    (beside : ExpandsMembers root n (siblings ms) ms') :
    Layered root (ms :: hs) ts (Table.putAll out ms') := by
  have hnodup : (Table.names ms').Nodup := by
    rw [beside.names]
    exact nodup_siblings hms
  constructor
  · rw [Table.names_putAll hnodup, beside.names, h.names]
    rfl
  · intro name
    rw [Table.get?_putAll hnodup, nearest?_cons]
    exact or_related (beside.get? name) (h.values name)

theorem Means.chained (h : Means root t w) (plain : t.get? refName = none) : Chained root [] t w := by
  obtain ⟨n, h⟩ := h
  refine ⟨?_, fun _ => ⟨n, h⟩, fun _ hfree => (h.unique hfree.expands).2⟩
  intro ts ht
  subst ht
  cases h with
  | object _ members => exact ⟨_, rfl, .nil members⟩
  | reference refers => exact absurd plain refers.not_plain
  | merge refers => exact absurd plain refers.not_plain

/-- An object is never expanded to anything but an object, unless it is a reference. -/
theorem Chained.members? (h : Chained root hs t w) (hw : w.members? = none) : t.members? = none := by
  cases t with
  | object ts =>
    obtain ⟨out, rfl, -⟩ := h.object ts rfl
    cases hw
  | _ => rfl

theorem Chained.exists_object (h : Chained root hs t (.object out)) (plain : t.get? refName = none) :
    ∃ ts, t = .object ts := by
  cases t with
  | object ts => exact ⟨ts, rfl⟩
  | _ =>
    obtain ⟨n, h⟩ := h.other rfl
    cases h

/-- A reference in front of what is chained already. -/
theorem Chained.cons (h : Chained root hs t u) (plain : t.get? refName = none)
    (hms : (Table.names ms).Nodup) (refers : Refers root ms r v) (value : Expands root n v u)
    (hw : Expands root m (.object ms) w) : Chained root (ms :: hs) t w := by
  cases hw with
  | object plain => exact absurd plain refers.not_plain
  | reference refers' value' other =>
    obtain ⟨-, rfl⟩ := refers.unique refers'
    obtain ⟨-, rfl⟩ := value.unique value'
    have ht := h.members? other
    refine ⟨?_, h.other, h.kept⟩
    rintro ts rfl
    cases ht
  | merge refers' value' beside =>
    obtain ⟨-, rfl⟩ := refers.unique refers'
    obtain ⟨-, rfl⟩ := value.unique value'
    obtain ⟨ts, rfl⟩ := h.exists_object plain
    obtain ⟨out, hout, hlayered⟩ := h.object ts rfl
    obtain rfl := Json.object.inj hout
    refine ⟨?_, nofun, nofun⟩
    intro ts' hts
    obtain rfl := Json.object.inj hts
    exact ⟨_, rfl, hlayered.cons hms beside⟩

/-- A reference is expanded after what it names, which is nested less deep. -/
theorem Refers.exists_expands (refers : Refers root ms r v) (hw : Expands root m (.object ms) w) :
    ∃ n u, n < m ∧ Expands root n v u := by
  cases hw with
  | object plain => exact absurd plain refers.not_plain
  | reference refers' value =>
    obtain ⟨-, rfl⟩ := refers.unique refers'
    exact ⟨_, _, Nat.lt_succ_self _, value⟩
  | merge refers' value =>
    obtain ⟨-, rfl⟩ := refers.unique refers'
    exact ⟨_, _, Nat.le_max_left _ _, value⟩

theorem Chain.plain (h : Chain root ms hs t) : t.get? refName = none := by
  induction h with
  | last _ plain => exact plain
  | link _ _ ih => exact ih

theorem Chain.length_lt (h : Chain root ms hs t) (hw : Expands root n (.object ms) w) : hs.length < n := by
  induction h generalizing n w with
  | last refers =>
    obtain ⟨k, u, hk, -⟩ := refers.exists_expands hw
    exact Nat.zero_lt_of_lt hk
  | link refers _ ih =>
    obtain ⟨k, u, hk, value⟩ := refers.exists_expands hw
    exact Nat.lt_of_le_of_lt (ih value) hk

theorem Chain.chained (hroot : root.NamedOnce) (h : Chain root ms hs t) (hms : (Table.names ms).Nodup)
    (hw : Expands root n (.object ms) w) : Chained root (ms :: hs) t w := by
  induction h generalizing n w with
  | last refers plain =>
    obtain ⟨k, u, -, value⟩ := refers.exists_expands hw
    exact (Means.chained ⟨k, value⟩ plain).cons plain hms refers value hw
  | link refers rest ih =>
    obtain ⟨k, u, -, value⟩ := refers.exists_expands hw
    have hnext := (namedOnce_object_iff.mp (hroot.target refers.found)).1
    exact (ih hnext value).cons rest.plain hms refers value hw

theorem ExpandsItems.getElem? {vs ws : List Json} (h : ExpandsItems root n vs ws) (i : Nat)
    (hv : vs[i]? = some v) : ∃ k ≤ n, ∃ w, ws[i]? = some w ∧ Expands root k v w := by
  induction vs generalizing n ws i with
  | nil => cases hv
  | cons x vs ih =>
    cases h with
    | cons head tail =>
      cases i with
      | zero =>
        cases hv
        exact ⟨_, Nat.le_max_left _ _, _, rfl, head⟩
      | succ i =>
        obtain ⟨k, hk, w, hw, value⟩ := ih tail i hv
        exact ⟨k, Nat.le_trans hk (Nat.le_max_right _ _), w, hw, value⟩

theorem Expands.child? (h : Expands root n v w) (plain : v.get? refName = none) {segment : List Char}
    (hu : v.child? segment = some u) : ∃ k ≤ n, ∃ x, w.child? segment = some x ∧ Expands root k u x := by
  cases h with
  | array items =>
    obtain ⟨i, hi, hu⟩ := Option.bind_eq_some_iff.mp hu
    obtain ⟨k, hk, x, hx, value⟩ := items.getElem? i hu
    exact ⟨k, hk, x, Option.bind_eq_some_iff.mpr ⟨i, hi, hx⟩, value⟩
  | object _ members => exact members.get?_eq_some hu
  | reference refers => exact absurd plain refers.not_plain
  | merge refers => exact absurd plain refers.not_plain
  | _ => cases hu

/-- What stands at a place is expanded there. -/
theorem Stands.expands (h : Stands v segments u) (hw : Expands root n v w) :
    ∃ k ≤ n, ∃ x, w.at? segments = some x ∧ Expands root k u x := by
  induction h generalizing n w with
  | here v => exact ⟨n, Nat.le_refl n, w, rfl, hw⟩
  | step plain child _ ih =>
    obtain ⟨k, hk, x, hx, value⟩ := hw.child? plain child
    obtain ⟨k', hk', y, hy, value'⟩ := ih value
    exact ⟨k', Nat.le_trans hk' hk, y, Option.bind_eq_some_iff.mpr ⟨x, hx, hy⟩, value'⟩

theorem Stands.inside (h : Stands v segments u) : Inside u v := by
  induction h with
  | here v => exact .self v
  | step _ child _ ih => exact inside_of_child? child ih

/-- However references come to be followed, what comes out of a chain of them is layered in its order; and
so is what stands where the chain begins, once the document is expanded. -/
theorem dereference_chain (hroot : root.NamedOnce) (h : Chain root ms hs t) :
    (∀ opened left w, (Table.names ms).Nodup →
      expandWith (followFrom root opened left) (.object ms) = .ok w →
      hs.length < left ∧ Chained root (ms :: hs) t w) ∧
    ∀ v segments, root.dereference = .ok v → Stands root segments (.object ms) →
      hs.length < referenceLimit ∧ ∃ w, v.at? segments = some w ∧ Chained root (ms :: hs) t w := by
  constructor
  · intro opened left w hms hw
    obtain ⟨n, hn, value⟩ := expandWith_sound (followFrom_sound opened left) hw
    exact ⟨Nat.lt_of_lt_of_le (h.length_lt value) hn, h.chained hroot hms value⟩
  · intro v segments hv hplace
    obtain ⟨n, hn, hexpands⟩ := expandWith_sound (followFrom_sound [] referenceLimit) hv
    obtain ⟨k, hk, w, hw, value⟩ := hplace.expands hexpands
    have hms := hroot ms hplace.inside
    exact ⟨Nat.lt_of_lt_of_le (h.length_lt value) (Nat.le_trans hk hn), w, hw, h.chained hroot hms value⟩

def nearMembers : Table Json := [("x", .null), (refName, .string "#/b"), ("w", .bool true)]

def farMembers : Table Json :=
  [("y", .object [(refName, .string "#/d")]), ("x", .bool true), (refName, .string "#/c"), ("v", .null)]

def endMembers : Table Json := [("z", .null), ("y", .null)]

def droppedMembers : Table Json := [("x", .null), (refName, .string "#/d")]

def layers : Json := .object [
  ("a", .object nearMembers), ("b", .object farMembers), ("c", .object endMembers), ("d", .array []),
  ("e", .object droppedMembers)]

theorem dereference_chain_layers : layers.NamedOnce ∧
    Chain layers nearMembers [farMembers] (.object endMembers) ∧
    Chain layers droppedMembers [] (.array []) ∧
    (∃ w, expandWith (followFrom layers ["#/e"] 2) (.object nearMembers) = .ok w ∧
      Chained layers [nearMembers, farMembers] (.object endMembers) w) ∧
    namesAlong [nearMembers, farMembers] endMembers = ["z", "y", "x", "v", "w"] ∧
    ∃ v, layers.dereference = .ok v ∧
      (Stands layers [['a']] (.object nearMembers) ∧
        ∃ w, v.at? [['a']] = some w ∧ Chained layers [nearMembers, farMembers] (.object endMembers) w) ∧
      Stands layers [['e']] (.object droppedMembers) ∧
        ∃ w, v.at? [['e']] = some w ∧ Chained layers [droppedMembers] (.array []) w := by
  have hroot : layers.NamedOnce := by
    simp [layers, nearMembers, farMembers, endMembers, droppedMembers, namedOnce_object_iff,
      namedOnce_array_iff, namedOnce_null, namedOnce_bool, namedOnce_string, Table.names, refName]
  have hnear : Chain layers nearMembers [farMembers] (.object endMembers) :=
    .link ⟨rfl, rfl⟩ (.last ⟨rfl, rfl⟩ rfl)
  have hdropped : Chain layers droppedMembers [] (.array []) := .last ⟨rfl, rfl⟩ rfl
  have ha : Stands layers [['a']] (.object nearMembers) := .step rfl rfl (.here _)
  have he : Stands layers [['e']] (.object droppedMembers) := .step rfl rfl (.here _)
  obtain ⟨w, hw⟩ : ∃ w, expandWith (followFrom layers ["#/e"] 2) (.object nearMembers) = .ok w := ⟨_, rfl⟩
  obtain ⟨v, hv⟩ : ∃ v, layers.dereference = .ok v := ⟨_, rfl⟩
  obtain ⟨hwithin, hplaced⟩ := dereference_chain hroot hnear
  obtain ⟨-, hends⟩ := dereference_chain hroot hdropped
  exact ⟨hroot, hnear, hdropped, ⟨w, hw, (hwithin _ 2 w (by decide) hw).2⟩, rfl, v, hv,
    ⟨ha, (hplaced v _ hv ha).2⟩, he, (hends v _ hv he).2⟩

end Json

end RestRoutes
