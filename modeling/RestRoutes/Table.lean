namespace RestRoutes

abbrev Table (α : Type _) := List (String × α)

namespace Table

variable {α β : Type _}

def get? (t : Table α) (name : String) : Option α :=
  match t with
  | [] => none
  | (n, v) :: rest => if n = name then some v else get? rest name

def put (t : Table α) (name : String) (value : α) : Table α :=
  match t with
  | [] => [(name, value)]
  | (n, v) :: rest => if n = name then (n, value) :: rest else (n, v) :: put rest name value

def names (t : Table α) : List String := t.map Prod.fst

/-- The entries of `more` written into `t`, in their order. -/
def putAll (t more : Table α) : Table α := more.foldl (fun t e => t.put e.1 e.2) t

def ofList (entries : List (String × α)) : Table α := putAll [] entries

theorem get?_put_self (t : Table α) (name : String) (v : α) : (t.put name v).get? name = some v := by
  induction t with
  | nil => simp [put, get?]
  | cons e t ih =>
    obtain ⟨n, w⟩ := e
    by_cases h : n = name <;> simp [put, get?, h, ih]

theorem get?_put_of_ne (t : Table α) {name other : String} (v : α) (h : name ≠ other) :
    (t.put name v).get? other = t.get? other := by
  induction t with
  | nil => simp [put, get?, h]
  | cons e t ih =>
    obtain ⟨n, w⟩ := e
    by_cases hn : n = name
    · subst hn; simp [put, get?, h]
    · simp [put, get?, hn, ih]

theorem mem_names_iff {t : Table α} {name : String} :
    name ∈ t.names ↔ (t.get? name).isSome = true := by
  induction t with
  | nil => simp [names, get?]
  | cons e t ih =>
    obtain ⟨n, w⟩ := e
    by_cases h : n = name
    · simp [names, get?, h]
    · have : name ≠ n := fun e => h e.symm
      simpa [names, get?, h, this] using ih

theorem get?_eq_none_iff {t : Table α} {name : String} : t.get? name = none ↔ name ∉ t.names := by
  rw [mem_names_iff, Bool.not_eq_true, Option.isSome_eq_false_iff, Option.isNone_iff_eq_none]

theorem mem_of_get? {t : Table α} {name : String} {v : α} (h : t.get? name = some v) :
    (name, v) ∈ t := by
  induction t with
  | nil => cases h
  | cons e t ih =>
    obtain ⟨n, w⟩ := e
    rw [get?] at h
    split at h
    · rename_i hn
      cases h
      rw [hn]
      exact List.mem_cons_self
    · exact List.mem_cons_of_mem _ (ih h)

theorem get?_of_mem {t : Table α} (h : t.names.Nodup) {name : String} {v : α} (hv : (name, v) ∈ t) :
    t.get? name = some v := by
  induction t with
  | nil => cases hv
  | cons e t ih =>
    obtain ⟨hnew, h⟩ := List.nodup_cons.mp h
    rw [get?]
    rcases List.mem_cons.mp hv with rfl | hv
    · exact if_pos rfl
    · have hname : name ∈ names t := List.mem_map_of_mem hv
      have hne : e.1 ≠ name := fun he => hnew (he ▸ hname)
      rw [if_neg hne, ih h hv]

/-- A name that is there keeps its place; a new one comes last. -/
theorem names_put (t : Table α) (name : String) (v : α) :
    (t.put name v).names = if name ∈ t.names then t.names else t.names ++ [name] := by
  induction t with
  | nil => simp [put, names]
  | cons e t ih =>
    obtain ⟨n, w⟩ := e
    by_cases h : n = name
    · subst h; simp [put, names]
    · have hne : name ≠ n := fun e => h e.symm
      simp only [names] at ih
      simp only [put, h, names, List.map_cons, List.mem_cons, hne, false_or, if_false, ih]
      by_cases hm : name ∈ List.map Prod.fst t <;> simp [hm]

theorem nodup_names_put {t : Table α} (h : t.names.Nodup) (name : String) (v : α) :
    (t.put name v).names.Nodup := by
  rw [names_put]
  split
  · exact h
  · rename_i hn
    exact List.nodup_append.2 ⟨h, by simp, by
      intro a ha b hb
      simp only [List.mem_singleton] at hb
      subst hb; exact fun e => hn (e ▸ ha)⟩

theorem mem_put {t : Table α} {name : String} {v : α} {e : String × α} (h : e ∈ t.put name v) :
    e ∈ t ∨ e = (name, v) := by
  induction t with
  | nil => exact .inr (List.mem_singleton.mp h)
  | cons f t ih =>
    obtain ⟨n, w⟩ := f
    rw [put] at h
    split at h
    · rename_i hn
      rcases List.mem_cons.mp h with rfl | h
      · exact .inr (by rw [hn])
      · exact .inl (List.mem_cons_of_mem _ h)
    · rcases List.mem_cons.mp h with rfl | h
      · exact .inl List.mem_cons_self
      · exact (ih h).imp_left (List.mem_cons_of_mem _)

theorem mem_putAll {t more : Table α} {e : String × α} (h : e ∈ t.putAll more) : e ∈ t ∨ e ∈ more := by
  induction more generalizing t with
  | nil => exact .inl h
  | cons f more ih =>
    rcases ih (t := t.put f.1 f.2) h with h | h
    · rcases mem_put h with h | rfl
      · exact .inl h
      · exact .inr List.mem_cons_self
    · exact .inr (List.mem_cons_of_mem _ h)

/-- What is written last is found. -/
theorem get?_putAll {t more : Table α} (h : more.names.Nodup) (name : String) :
    (t.putAll more).get? name = (more.get? name).or (t.get? name) := by
  induction more generalizing t with
  | nil => rfl
  | cons e more ih =>
    obtain ⟨n, v⟩ := e
    obtain ⟨hnew, h⟩ := List.nodup_cons.mp h
    change (putAll (t.put n v) more).get? name = _
    rw [ih h, get?]
    split
    · rename_i hn
      subst hn
      rw [get?_eq_none_iff.mpr hnew, get?_put_self]
      rfl
    · rename_i hn
      rw [get?_put_of_ne t v hn]

/-- Names that are there keep their places, and the new ones follow in their order. -/
theorem names_putAll {t more : Table α} (h : more.names.Nodup) :
    (t.putAll more).names = t.names ++ more.names.filter (· ∉ t.names) := by
  induction more generalizing t with
  | nil => simp [putAll, names]
  | cons e more ih =>
    obtain ⟨n, v⟩ := e
    obtain ⟨hnew, h⟩ := List.nodup_cons.mp h
    change names (putAll (t.put n v) more) = names t ++ (n :: names more).filter (· ∉ names t)
    rw [ih h, names_put]
    by_cases hn : n ∈ names t
    · simp [hn]
    · have hsame : (names more).filter (· ∉ names t ++ [n]) = (names more).filter (· ∉ names t) := by
        apply List.filter_congr
        intro m hm
        have hne : m ≠ n := by
          intro he
          subst he
          exact hnew hm
        simp [hne]
      rw [if_neg hn, hsame]
      simp [hn]

theorem get?_append (t more : Table α) (name : String) :
    (t ++ more).get? name = (t.get? name).or (more.get? name) := by
  induction t with
  | nil => rfl
  | cons e t ih =>
    rw [List.cons_append, get?, get?]
    split
    · rfl
    · exact ih

theorem names_zip {ns : List String} {vs : List α} (h : ns.length = vs.length) :
    names (ns.zip vs) = ns := List.map_fst_zip (Nat.le_of_eq h)

end Table

end RestRoutes
