import Mathlib.Data.List.Basic
import RestRoutes.Proofs.Files.Preorder

namespace RestRoutes

namespace Path

variable {base : String} {names : List String}

/-- The names between the slashes of a text. -/
def pieces (s : List Char) : List (List Char) := (s.splitOn '/').filter (!·.isEmpty)

theorem pieces_append (s t : List Char) : pieces (s ++ '/' :: t) = pieces s ++ pieces t := by
  rw [pieces, List.splitOn_append_cons_self, List.filter_append, pieces, pieces]

/-- A name that a directory can hold. -/
structure IsName (name : String) : Prop where
  ne_empty : name ≠ ""
  slashless : '/' ∉ name.toList
  step : FileTree.IsStep name

theorem isName_iff {name : String} : IsName name ↔ name ≠ "" ∧ '/' ∉ name.toList ∧
    name ≠ "." ∧ name ≠ ".." ∧ Text.Utf8.size name.toList ≤ FileTree.nameLimit :=
  ⟨fun h => ⟨h.ne_empty, h.slashless, h.step⟩, fun ⟨hempty, hslash, hstep⟩ => ⟨hempty, hslash, hstep⟩⟩

instance (name : String) : Decidable (IsName name) := decidable_of_iff _ isName_iff.symm

/-- Names with slashes between them. -/
def spelled (names : List String) : List Char := ['/'].intercalate (names.map String.toList)

theorem nil_notMem_names (hnames : ∀ name ∈ names, IsName name) : [] ∉ names.map String.toList := by
  rw [List.mem_map]
  rintro ⟨name, hname, hempty⟩
  exact (hnames name hname).ne_empty (String.toList_eq_nil_iff.mp hempty)

theorem splitOn_spelled (hnames : ∀ name ∈ names, IsName name) (hne : names ≠ []) :
    (spelled names).splitOn '/' = names.map String.toList :=
  List.splitOn_intercalate '/'
    (List.forall_mem_map.mpr fun name hname => (hnames name hname).slashless) (by simpa using hne)

theorem pieces_spelled (hnames : ∀ name ∈ names, IsName name) (hne : names ≠ []) :
    pieces (spelled names) = names.map String.toList := by
  rw [pieces, splitOn_spelled hnames hne, List.filter_eq_self]
  intro name hname
  rw [Bool.not_eq_true', List.isEmpty_eq_false_iff]
  rintro rfl
  exact nil_notMem_names hnames hname

/-- The last name is not empty and has no slash at its end. -/
theorem spelled_ends (hnames : ∀ name ∈ names, IsName name) (hne : names ≠ []) :
    spelled names ≠ [] ∧ (spelled names).getLast? ≠ some '/' := by
  have hsplit := splitOn_spelled hnames hne
  have hnil := nil_notMem_names hnames
  generalize spelled names = s at hsplit
  constructor
  · rintro rfl
    rw [List.splitOn_nil] at hsplit
    exact hnil (hsplit ▸ List.mem_cons_self)
  · intro hlast
    obtain ⟨s, rfl⟩ := List.getLast?_eq_some_iff.mp hlast
    rw [List.splitOn_append_cons_self, List.splitOn_nil] at hsplit
    exact hnil (hsplit ▸ List.mem_append_right _ List.mem_cons_self)

theorem toList_join (base : String) (names : List String) : (join base names).toList =
    base.toList ++ (if base.toList.getLast? = some '/' then [] else ['/']) ++ spelled names := by
  rw [join, String.toList_append, String.toList_append, String.toList_intercalate]
  split
  · rfl
  · rfl

/-- One slash more or less between the two makes no difference. -/
theorem pieces_join (base : String) (names : List String) :
    pieces (join base names).toList = pieces base.toList ++ pieces (spelled names) := by
  rw [toList_join]
  split
  · rename_i hlast
    obtain ⟨b, hb⟩ := List.getLast?_eq_some_iff.mp hlast
    have hbase : pieces base.toList = pieces b := by
      rw [hb, pieces_append]
      exact List.append_nil _
    rw [hbase, hb, List.append_nil, List.append_assoc, List.singleton_append, pieces_append]
  · rw [List.append_assoc, List.singleton_append, pieces_append]

/-- The names put behind a path are the last ones of the whole, and no slash is at the end. -/
theorem ofString_join (hbase : base ≠ "") (hnames : ∀ name ∈ names, IsName name) (hne : names ≠ []) :
    ofString (join base names) = ⟨(ofString base).absolute, (ofString base).names ++ names, false⟩ := by
  obtain ⟨hspelled, hend⟩ := spelled_ends hnames hne
  have habsolute : (join base names).toList.head? = base.toList.head? := by
    rw [toList_join, List.append_assoc]
    exact List.head?_append_of_ne_nil _ (by simpa using hbase)
  have hslash : (join base names).toList.getLast? ≠ some '/' := by
    rwa [toList_join, List.getLast?_append_of_ne_nil _ hspelled]
  have hall : (ofString (join base names)).names = (ofString base).names ++ names := by
    calc (ofString (join base names)).names
      _ = (pieces (join base names).toList).map String.ofList := rfl
      _ = (pieces base.toList).map String.ofList ++ (names.map String.toList).map String.ofList := by
          rw [pieces_join, pieces_spelled hnames hne, List.map_append]
      _ = (ofString base).names ++ names := by simp [ofString, pieces]
  rw [← hall]
  simp only [ofString, habsolute, hslash, decide_false]

theorem filter_dropDots (absolute : Bool) (names : List String) :
    (dropDots absolute names).filter (· ≠ ".") = names.filter (· ≠ ".") := by
  cases names with
  | nil => rfl
  | cons name names =>
    rw [dropDots]
    by_cases h : name = "."
    · cases absolute <;> simp [h]
    · simp [h]

end Path

namespace FileTree

variable {t : FileTree} {follow slash slash' : Bool} {n : Nat} {here base l l' : Location}
  {names names' rest : List String} {name path : String} {p : Place} {e e' : Entry} {bytes : List UInt8}

theorem walks_dot_iff : Walks t follow n here slash ("." :: names) p ↔ Walks t follow n here slash names p := by
  rw [← walk_eq_ok_iff, ← walk_eq_ok_iff, walk, if_pos rfl]

theorem walks_up_iff :
    Walks t follow n here slash (".." :: names) p ↔ Walks t follow n here.dropLast slash names p := by
  rw [← walk_eq_ok_iff, ← walk_eq_ok_iff, walk, if_neg (by decide), if_pos rfl]

/-- Dots before a name are passed. -/
theorem Walks.exists_cons (h : Walks t follow n here slash names p) (hname : name ≠ ".")
    (hnames : (name :: rest).filter (· ≠ ".") = names.filter (· ≠ ".")) :
    ∃ rest', rest.filter (· ≠ ".") = rest'.filter (· ≠ ".") ∧
      Walks t follow n here slash (name :: rest') p := by
  rw [List.filter_cons_of_pos (by simpa using hname)] at hnames
  induction names with
  | nil => cases hnames
  | cons first names ih =>
    by_cases hdot : first = "."
    · subst hdot
      rw [List.filter_cons_of_neg (by decide)] at hnames
      exact ih (walks_dot_iff.mp h) hnames
    · rw [List.filter_cons_of_pos (by simpa using hdot)] at hnames
      obtain ⟨rfl, hrest⟩ := List.cons.inj hnames
      exact ⟨names, hrest, h⟩

/-- With nothing but dots the walk stays where it is. -/
theorem Walks.eq_of_dots (h : Walks t follow n here slash names p) (hnames : names.filter (· ≠ ".") = []) :
    p = .found here .directory := by
  induction names with
  | nil =>
    cases h
    rfl
  | cons name names ih =>
    have hdot : name = "." := by
      by_contra hdot
      rw [List.filter_cons_of_pos (by simpa using hdot)] at hnames
      cases hnames
    subst hdot
    rw [List.filter_cons_of_neg (by decide)] at hnames
    exact ih (walks_dot_iff.mp h) hnames

theorem Walks.at_directory (h : Walks t follow n here slash (name :: names) p) (step : IsStep name)
    (get : t.get? (here ++ [name]) = some .directory) : Walks t follow n (here ++ [name]) slash names p := by
  rw [← walk_eq_ok_iff, walk_step step, get] at h
  exact walk_eq_ok_iff.mp h

theorem Walks.at_file (h : Walks t follow n here slash (name :: names) p) (step : IsStep name)
    (get : t.get? (here ++ [name]) = some (.file bytes)) : p = .found (here ++ [name]) (.file bytes) := by
  rw [← walk_eq_ok_iff, walk_step step, get] at h
  simp only at h
  split at h
  · cases h
    rfl
  · cases h

theorem Walks.at_link {target : String} (h : Walks t true (n + 1) here slash (name :: names) p)
    (step : IsStep name) (get : t.get? (here ++ [name]) = some (.link target)) :
    Walks t true n (if (Path.ofString target).absolute then [] else here)
      (slash || names.isEmpty && (Path.ofString target).slash) ((Path.ofString target).names ++ names) p := by
  rw [← walk_eq_ok_iff, walk_step step, get] at h
  simp only [Bool.not_true, Bool.and_false, Bool.false_eq_true, if_false] at h
  exact walk_eq_ok_iff.mp h

/-- Two walks by the same names, dots apart, that find something find the same. -/
theorem Walks.unique_of_dots (h : Walks t true n here slash names (.found l e))
    (h' : Walks t true n here slash' names' (.found l' e'))
    (hnames : names.filter (· ≠ ".") = names'.filter (· ≠ ".")) : l' = l ∧ e' = e := by
  generalize hp : Place.found l e = p at h
  induction h generalizing slash' names' with
  | done =>
    cases hp
    cases h'.eq_of_dots hnames.symm
    exact ⟨rfl, rfl⟩
  | dot _ ih =>
    rw [List.filter_cons_of_neg (by decide)] at hnames
    exact ih h' hnames hp
  | up _ ih =>
    obtain ⟨rest', hrest, h'⟩ := h'.exists_cons (by decide) hnames
    exact ih (walks_up_iff.mp h') hrest hp
  | free => cases hp
  | directory step get _ ih =>
    obtain ⟨rest', hrest, h'⟩ := h'.exists_cons step.1 hnames
    exact ih (h'.at_directory step get) hrest hp
  | file step get =>
    cases hp
    obtain ⟨rest', -, h'⟩ := h'.exists_cons step.1 hnames
    cases h'.at_file step get
    exact ⟨rfl, rfl⟩
  | stay _ _ hstay => cases hstay
  | link step get _ _ ih =>
    obtain ⟨rest', hrest, h'⟩ := h'.exists_cons step.1 hnames
    exact ih (h'.at_link step get) (by rw [List.filter_append, List.filter_append, hrest]) hp

/-- Each name on the way to an entry is one that a directory can hold. -/
def Named (t : FileTree) : Prop := ∀ l ∈ t.locations, ∀ name ∈ l, Path.IsName name

theorem WellFormed.walks_below (ht : t.WellFormed) (hnamed : t.Named) (hne : names ≠ [])
    (hfile : t.get? (here ++ names) = some (.file bytes)) :
    Walks t follow n here false names (.found (here ++ names) (.file bytes)) := by
  have hmem := ht.mem_locations (by simp [hne]) hfile
  induction names generalizing here with
  | nil => exact absurd rfl hne
  | cons name names ih =>
    have hstep : IsStep name := (hnamed _ hmem name (by simp)).step
    have hsplit : here ++ name :: names = here ++ [name] ++ names := List.append_cons ..
    cases hnames : names with
    | nil =>
      rw [hnames] at hfile
      exact .file hstep hfile
    | cons next more =>
      rw [← hnames, hsplit]
      rw [hsplit] at hfile hmem
      have hne : names ≠ [] := hnames ▸ List.cons_ne_nil next more
      exact .directory hstep (ht.directory_above names hne hfile) (ih hne hfile hmem)

/-- Behind a walk that finds a directory another one goes on. No slash is at the end of it. -/
theorem Walks.append (h : Walks t follow n here slash names (.found base .directory)) (hne : rest ≠ [])
    (hrest : ∀ n, Walks t follow n base false rest p) : Walks t follow n here false (names ++ rest) p := by
  generalize hp : Place.found base .directory = q at h
  induction h with
  | done =>
    cases hp
    exact hrest _
  | dot _ ih => exact .dot (ih hp)
  | up _ ih => exact .up (ih hp)
  | free => cases hp
  | directory step get _ ih => exact .directory step get (ih hp)
  | file => cases hp
  | stay => cases hp
  | @link name here target slash n names p step get _ _ ih =>
    have hempty : (names ++ rest).isEmpty = false := by simp [hne]
    rw [List.cons_append]
    refine .link step get (by simp [hempty]) ?_
    rw [hempty, Bool.false_and, Bool.or_false, ← List.append_assoc]
    exact ih hp

/-- A path leads somewhere, however long it is. -/
def Leads (t : FileTree) (path : String) (l : Location) (e : Entry) : Prop :=
  Walks t true linkLimit (t.start (Path.ofString path)) (Path.ofString path).slash
    (Path.ofString path).names (.found l e)

theorem checkPath_eq_ok {q : Path} (h : checkPath path = .ok q) : path ≠ "" ∧ q = Path.ofString path := by
  simp only [checkPath] at h
  split at h
  · cases h
  split at h
  · cases h
  rename_i hempty
  split at h
  · cases h
  cases h
  exact ⟨by simpa using hempty, rfl⟩

theorem leads_of_locate (h : t.locate true path = .ok (.found l e)) : path ≠ "" ∧ t.Leads path l e := by
  obtain ⟨q, hq, hw, -⟩ := locate_eq_ok h
  obtain ⟨hempty, rfl⟩ := checkPath_eq_ok hq
  exact ⟨hempty, hw⟩

/-- Only its text can keep a path from being followed. -/
theorem Leads.locate (h : t.Leads path l e) {q : Path} (hpath : checkPath path = .ok q) :
    t.locate true path = .ok (.found l e) := by
  obtain ⟨-, rfl⟩ := checkPath_eq_ok hpath
  exact bind_eq_ok_iff.mpr ⟨_, hpath, walk_eq_ok_iff.mpr h⟩

theorem Leads.unique {other : String} (h : t.Leads path l e) (h' : t.Leads other l' e')
    (hparts : Path.parts other = Path.parts path) : l' = l ∧ e' = e := by
  have habsolute : (Path.ofString other).absolute = (Path.ofString path).absolute :=
    congrArg Path.Parts.absolute hparts
  have hstart : t.start (Path.ofString other) = t.start (Path.ofString path) := by
    rw [start, start, habsolute]
  rw [Leads, hstart] at h'
  refine Walks.unique_of_dots h h' ?_
  calc (Path.ofString path).names.filter (· ≠ ".")
    _ = (Path.parts path).names.filter (· ≠ ".") := (Path.filter_dropDots ..).symm
    _ = (Path.parts other).names.filter (· ≠ ".") := by rw [hparts]
    _ = (Path.ofString other).names.filter (· ≠ ".") := Path.filter_dropDots ..

theorem Leads.join (h : t.Leads path base .directory) (hpath : path ≠ "") (ht : t.WellFormed)
    (hnamed : t.Named) (hne : names ≠ []) (hfile : t.get? (base ++ names) = some (.file bytes)) :
    t.Leads (Path.join path names) (base ++ names) (.file bytes) := by
  have hnames : ∀ name ∈ names, Path.IsName name := fun name hname =>
    hnamed _ (ht.mem_locations (by simp [hne]) hfile) name (List.mem_append_right _ hname)
  rw [Leads, Path.ofString_join hpath hnames hne]
  exact Walks.append h hne fun _ => ht.walks_below hnamed hne hfile

end FileTree

end RestRoutes
