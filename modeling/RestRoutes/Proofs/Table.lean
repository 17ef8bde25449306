import Mathlib.Data.List.Nodup
import RestRoutes.Table

namespace RestRoutes.Table

variable {α : Type _} {t u : Table α}

theorem get?_cons (e : String × α) (t : Table α) (name : String) :
    get? (e :: t) name = if e.1 = name then some e.2 else t.get? name := rfl

theorem get?_concat_of_ne {name other : String} {v : α} (h : name ≠ other) :
    get? (t ++ [(name, v)]) other = t.get? other := by
  rw [get?_append, get?, if_neg h, get?, Option.or_none]

theorem get?_eq_some_iff (ht : t.names.Nodup) {name : String} {v : α} :
    t.get? name = some v ↔ (name, v) ∈ t :=
  ⟨mem_of_get?, get?_of_mem ht⟩

theorem get?_perm (ht : t.names.Nodup) (h : t.Perm u) (name : String) : u.get? name = t.get? name := by
  have hu : u.names.Nodup := (h.map Prod.fst).nodup_iff.mp ht
  ext v
  rw [get?_eq_some_iff hu, get?_eq_some_iff ht, h.mem_iff]

/-- What is found under a name that is kept is found without the names that are not. -/
theorem get?_filter (t : Table α) (p : String → Bool) (name : String) :
    get? (t.filter fun e => p e.1) name = if p name then t.get? name else none := by
  induction t with
  | nil => simp [get?]
  | cons e t ih =>
    rw [get?_cons, List.filter_cons]
    by_cases he : e.1 = name
    · subst he
      cases hp : p e.1 with
      | false => simpa [hp] using ih
      | true => simp [get?_cons]
    · cases hp : p e.1 with
      | false => simpa [he] using ih
      | true => simpa [get?_cons, he] using ih

theorem names_append (t u : Table α) : names (t ++ u) = t.names ++ u.names := List.map_append

/-- The entries of `t` with the values that `more` has for them. -/
def overlay (t more : Table α) : Table α := t.map fun e => (e.1, (more.get? e.1).getD e.2)

theorem nodup_names_putAll (ht : t.names.Nodup) (more : Table α) : (t.putAll more).names.Nodup := by
  induction more generalizing t with
  | nil => exact ht
  | cons e more ih => exact ih (nodup_names_put ht e.1 e.2)

end RestRoutes.Table
