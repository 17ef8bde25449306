import Mathlib.Data.List.Basic
import RestRoutes.Files.Tree

namespace RestRoutes

theorem slash_notMem_of_mem_splitOnPPrepend {acc cs : List Char} (h : '/' ∉ acc) :
    ∀ name ∈ cs.splitOnPPrepend (· == '/') acc, '/' ∉ name := by
  induction cs generalizing acc with
  | nil => simpa using h
  | cons c cs ih =>
    rw [List.splitOnPPrepend_cons_eq_if]
    split
    · have hrest := ih List.not_mem_nil
      simpa [h] using hrest
    · rename_i hc
      exact ih (by simpa [h] using Ne.symm (by simpa using hc))

theorem Path.slash_notMem_of_mem_names {s name : String} (h : name ∈ (Path.ofString s).names) :
    '/' ∉ name.toList := by
  simp only [Path.ofString, List.mem_map, List.mem_filter] at h
  obtain ⟨cs, ⟨hcs, -⟩, rfl⟩ := h
  rw [String.toList_ofList]
  exact slash_notMem_of_mem_splitOnPPrepend (by simp) cs hcs

/-- A location that no path leads to. -/
def Hidden (l : Location) : Prop := ∃ base name, l = base ++ [name] ∧ '/' ∈ name.toList

theorem Hidden.ne_nil (h : Hidden l) : l ≠ [] := by
  obtain ⟨base, name, rfl, -⟩ := h
  simp

theorem not_hidden_concat {base : Location} {name : String} (h : '/' ∉ name.toList) :
    ¬ Hidden (base ++ [name]) := by
  rintro ⟨base', name', he, h'⟩
  obtain ⟨-, rfl⟩ := List.append_inj' he rfl |>.imp_right List.singleton_inj.mp
  exact h h'

def Entry.isFile : Entry → Bool
  | .file _ => true
  | _ => false

namespace FileTree

theorem lookup_filter_ne (entries : List (Location × Entry)) (l k : Location) :
    (entries.filter (·.1 ≠ l)).lookup k = if k = l then none else entries.lookup k := by
  induction entries with
  | nil => simp
  | cons e entries ih =>
    rw [List.filter_cons]
    grind

variable {t : FileTree} {l : Location}

theorem get?_erase (hl : l ≠ []) (k : Location) :
    (t.erase l).get? k = if k = l then none else t.get? k := by
  simp only [get?, erase, lookup_filter_ne, List.isEmpty_iff]
  grind

theorem get?_put (hl : l ≠ []) (e : Entry) (k : Location) :
    (t.put l e).get? k = if k = l then some e else t.get? k := by
  simp only [get?, put, List.isEmpty_iff, List.lookup_cons, erase, lookup_filter_ne]
  grind

@[simp] theorem workDir_put (t : FileTree) (l : Location) (e : Entry) :
    (t.put l e).workDir = t.workDir := rfl

theorem length_le_longest (entries : List (Location × Entry)) (n : Nat) :
    n ≤ entries.foldl (fun n e => max n ((e.1.getLast?.getD "").length)) n ∧
    ∀ e ∈ entries, (e.1.getLast?.getD "").length ≤
      entries.foldl (fun n e => max n ((e.1.getLast?.getD "").length)) n := by
  induction entries generalizing n with
  | nil => simp
  | cons e entries ih =>
    simp only [List.foldl_cons, List.forall_mem_cons]
    obtain ⟨h, h'⟩ := ih (max n ((e.1.getLast?.getD "").length))
    exact ⟨by omega, by omega, h'⟩

/-- The fresh name is longer than the last name of any location in use. -/
theorem get?_freshName (t : FileTree) (base : Location) :
    t.get? (base ++ [t.freshName]) = none := by
  have hl : base ++ [t.freshName] ≠ [] := by simp
  simp only [get?, List.isEmpty_iff, hl, if_false, List.lookup_eq_none_iff]
  intro e he
  rw [bne_iff_ne]
  intro h
  have hle := (length_le_longest t.entries 0).2 e he
  rw [← h, List.getLast?_concat] at hle
  simp only [freshName, Option.getD_some, String.length_ofList, List.length_replicate] at hle
  omega

theorem hidden_freshName (t : FileTree) (base : Location) : Hidden (base ++ [t.freshName]) :=
  ⟨base, t.freshName, rfl, by simp [freshName, List.replicate_succ]⟩

/-- No link stands anywhere. -/
def Linkless (t : FileTree) : Prop := ∀ l target, t.get? l ≠ some (.link target)

/-- A place after a change: as it was before, or a directory where nothing was. -/
def KeptAt (t t' : FileTree) (l : Location) : Prop :=
  t'.get? l = t.get? l ∨ t.get? l = none ∧ t'.get? l = some .directory

theorem KeptAt.trans {t u v : FileTree} (h : KeptAt t u l) (h' : KeptAt u v l) : KeptAt t v l := by
  simp only [KeptAt] at *
  grind

theorem KeptAt.get?_of_some {t u : FileTree} (h : KeptAt t u l) (hget : t.get? l = some e) :
    u.get? l = some e := by
  rcases h with hkept | ⟨hnone, -⟩
  · exact hkept.trans hget
  · simp [hget] at hnone

/-- A link that is there afterwards was there before. -/
theorem KeptAt.link {t u : FileTree} (h : KeptAt t u l) (hget : u.get? l = some (.link target)) :
    t.get? l = some (.link target) := by
  rcases h with hkept | ⟨-, hdir⟩
  · exact hkept.symm.trans hget
  · simp [hget] at hdir

/-- The files but for some locations. -/
def filesBut (t : FileTree) (skipped : List Location) : List (Location × Entry) :=
  t.entries.filter fun x => x.1 ∉ skipped && x.2.isFile

variable {skipped : List Location}

theorem erase_of_absent (hl : l ≠ []) (h : t.get? l = none) : t.erase l = t := by
  simp only [get?, List.isEmpty_iff, hl, if_false, List.lookup_eq_none_iff] at h
  rw [erase, List.filter_eq_self.mpr]
  intro x hx
  exact decide_eq_true fun he => by simpa [he] using h x hx

theorem filesBut_erase (h : l ∈ skipped) : (t.erase l).filesBut skipped = t.filesBut skipped := by
  rw [filesBut, filesBut, erase, List.filter_filter]
  refine List.filter_congr fun x _ => ?_
  by_cases hx : x.1 = l <;> simp [hx, h]

theorem filesBut_put (h : l ∈ skipped) (e : Entry) :
    (t.put l e).filesBut skipped = t.filesBut skipped := by
  have herase := filesBut_erase (t := t) h
  rw [filesBut] at herase ⊢
  rw [put, List.filter_cons_of_neg (by simp [h]), herase]

/-- A directory is no file, and nothing made room for it. -/
theorem filesBut_put_directory (hl : l ≠ []) (h : t.get? l = none) :
    (t.put l .directory).filesBut skipped = t.filesBut skipped := by
  rw [filesBut, put, erase_of_absent hl h, List.filter_cons_of_neg (by simp [Entry.isFile])]
  rfl

/-- Where nothing is, nothing is skipped. -/
theorem filesBut_append_absent {absent : List Location}
    (h : ∀ l ∈ absent, l ≠ [] ∧ t.get? l = none) :
    t.filesBut (skipped ++ absent) = t.filesBut skipped := by
  refine List.filter_congr fun x hx => ?_
  have hpresent : x.1 ∉ absent := by
    intro hmem
    obtain ⟨hl, hget⟩ := h x.1 hmem
    simp only [get?, List.isEmpty_iff, hl, if_false, List.lookup_eq_none_iff] at hget
    simpa using hget x hx
  simp [hpresent]

/-- The tree without what stands at some locations. -/
def without (t : FileTree) (ls : List Location) : FileTree :=
  { t with entries := t.entries.filter fun x => x.1 ∉ ls }

theorem lookup_filter_notMem (entries : List (Location × Entry)) (ls : List Location) (k : Location) :
    (entries.filter (·.1 ∉ ls)).lookup k = if k ∈ ls then none else entries.lookup k := by
  induction entries with
  | nil => simp
  | cons e entries ih =>
    rw [List.filter_cons]
    grind

/-- The root cannot be taken away. -/
theorem get?_without {ls : List Location} (hget : (t.without ls).get? l = some e) :
    t.get? l = some e ∧ (l ∈ ls → l = []) := by
  by_cases hl : l = []
  · subst hl
    exact ⟨hget, fun _ => rfl⟩
  · simp only [get?, without, List.isEmpty_iff, hl, if_false, lookup_filter_notMem] at hget ⊢
    split at hget
    · cases hget
    · rename_i hmem
      exact ⟨hget, fun h => absurd h hmem⟩

theorem filesBut_without (t : FileTree) (ls : List Location) :
    (t.without ls).filesBut ls = t.filesBut ls := by
  rw [filesBut, filesBut, without, List.filter_filter]
  refine List.filter_congr fun x _ => ?_
  by_cases hx : x.1 ∈ ls <;> simp [hx]

end FileTree

end RestRoutes
