import Mathlib.Algebra.GroupWithZero.Nat
import Mathlib.Algebra.Order.BigOperators.Group.List
import Mathlib.Data.List.Induction
import Mathlib.Data.List.Nodup
import Mathlib.Data.String.Basic
import RestRoutes.Proofs.Files.Walk

namespace RestRoutes

namespace Path

theorem before_cons_iff {a b : String} {as bs : List String} :
    before (a :: as) (b :: bs) = true ↔ a < b ∨ a = b ∧ before as bs = true := by
  rw [before]
  by_cases h : a = b
  · simp [h]
  · simp [h]

theorem before_total (as bs : List String) : (before as bs || before bs as) = true := by
  rw [Bool.or_eq_true]
  induction as generalizing bs with
  | nil => exact .inl (by rw [before])
  | cons a as ih =>
    cases bs with
    | nil => exact .inr (by rw [before])
    | cons b bs =>
      rw [before_cons_iff, before_cons_iff]
      rcases lt_trichotomy a b with h | rfl | h
      · exact .inl (.inl h)
      · exact (ih bs).imp (fun h => .inr ⟨rfl, h⟩) fun h => .inr ⟨rfl, h⟩
      · exact .inr (.inl h)

theorem before_trans (as bs cs : List String) (h : before as bs = true) (h' : before bs cs = true) :
    before as cs = true := by
  induction as generalizing bs cs with
  | nil => rw [before]
  | cons a as ih =>
    cases bs with
    | nil => cases h
    | cons b bs =>
      cases cs with
      | nil => cases h'
      | cons c cs =>
        rw [before_cons_iff] at h h' ⊢
        rcases h with hab | ⟨rfl, h⟩
        · rcases h' with hbc | ⟨rfl, -⟩
          · exact .inl (hab.trans hbc)
          · exact .inl hab
        · exact h'.imp_right fun ⟨hac, h'⟩ => ⟨hac, ih bs cs h h'⟩

theorem before_antisymm {as bs : List String} (h : before as bs = true) (h' : before bs as = true) :
    as = bs := by
  induction as generalizing bs with
  | nil =>
    cases bs with
    | nil => rfl
    | cons b bs => cases h'
  | cons a as ih =>
    cases bs with
    | nil => cases h
    | cons b bs =>
      rw [before_cons_iff] at h h'
      rcases h with hab | ⟨rfl, h⟩
      · rcases h' with hba | ⟨rfl, -⟩
        · exact absurd hba hab.not_gt
        · exact absurd hab (lt_irrefl _)
      · obtain ⟨-, h'⟩ := h'.resolve_left (lt_irrefl _)
        rw [ih h h']

/-- Lists of the same paths in the order of walks are the same. -/
theorem eq_of_sorted {as bs : List (List String)} (ha : as.Pairwise fun a b => before a b = true)
    (hb : bs.Pairwise fun a b => before a b = true) (h : as.Perm bs) : as = bs :=
  h.eq_of_pairwise (fun _ _ _ _ => before_antisymm) ha hb

theorem sorted_mergeSort (as : List (List String)) :
    (as.mergeSort before).Pairwise fun a b => before a b = true :=
  List.pairwise_mergeSort before_trans before_total as

end Path

namespace FileTree

variable {t u : FileTree} {here base l : Location} {names : List String} {name : String} {e : Entry}

theorem behind?_eq_some_iff : behind? base l = some names ↔ l = base ++ names := by
  induction base generalizing l with
  | nil => simp [behind?]
  | cons b base ih =>
    cases l with
    | nil => simp [behind?]
    | cons n l =>
      rw [behind?]
      by_cases h : b = n
      · simp [h, ih]
      · simp [h, Ne.symm h]

theorem fileBehind?_eq_some_iff {x : Location × Entry} :
    fileBehind? base x = some names ↔ ∃ bytes, x = (base ++ names, .file bytes) := by
  obtain ⟨l, e⟩ := x
  cases e <;> simp [fileBehind?, behind?_eq_some_iff]

def locations (t : FileTree) : List Location := t.entries.map Prod.fst

/-- Each location is there once, whatever stands somewhere stands in a directory, and relative paths begin in
one. -/
structure WellFormed (t : FileTree) : Prop where
  distinct : t.locations.Nodup
  root : [] ∉ t.locations
  parent : ∀ l ∈ t.locations, t.get? l.dropLast = some .directory
  workDir : t.get? t.workDir = some .directory

theorem lookup_eq_some_iff_mem {entries : List (Location × Entry)} (h : (entries.map Prod.fst).Nodup) :
    entries.lookup l = some e ↔ (l, e) ∈ entries := by
  induction entries with
  | nil => simp
  | cons x entries ih =>
    obtain ⟨k, f⟩ := x
    obtain ⟨hnew, h⟩ := List.nodup_cons.mp h
    rw [List.lookup_cons, List.mem_cons, Prod.mk.injEq]
    by_cases hk : l = k
    · subst hk
      have hother : (l, e) ∉ entries := fun hmem => hnew (List.mem_map.mpr ⟨_, hmem, rfl⟩)
      simp [hother, eq_comm]
    · simp only [beq_eq_false_iff_ne.mpr hk, hk, false_and, false_or]
      exact ih h

theorem WellFormed.get?_eq_some_iff (ht : t.WellFormed) (hl : l ≠ []) :
    t.get? l = some e ↔ (l, e) ∈ t.entries := by
  rw [get?, if_neg (by simpa using hl), lookup_eq_some_iff_mem ht.distinct]

theorem WellFormed.mem_locations (ht : t.WellFormed) (hl : l ≠ []) (h : t.get? l = some e) :
    l ∈ t.locations :=
  List.mem_map_of_mem ((ht.get?_eq_some_iff hl).mp h)

/-- Above anything there are directories only. -/
theorem WellFormed.directory_above (ht : t.WellFormed) (names : List String) (hnames : names ≠ [])
    (h : t.get? (here ++ names) = some e) : t.get? here = some .directory := by
  induction names using List.reverseRecOn generalizing e with
  | nil => exact absurd rfl hnames
  | append_singleton names name ih =>
    rw [← List.append_assoc] at h
    have hparent := ht.parent (here ++ names ++ [name]) (ht.mem_locations (by simp) h)
    rw [List.dropLast_concat] at hparent
    by_cases hempty : names = []
    · rwa [hempty, List.append_nil] at hparent
    · exact ih hempty hparent

theorem WellFormed.dropLast (ht : t.WellFormed) (h : t.get? here = some .directory) :
    t.get? here.dropLast = some .directory := by
  by_cases hhere : here = []
  · rwa [hhere] at h ⊢
  · have hsplit := List.dropLast_concat_getLast hhere
    exact ht.directory_above [here.getLast hhere] (List.cons_ne_nil _ _) (hsplit.symm ▸ h)

/-- A walk that begins in a directory and ends at one has found it. -/
theorem WellFormed.get?_of_walks (ht : t.WellFormed) {follow slash : Bool} {n : Nat} {p : Place}
    (h : Walks t follow n here slash names p) (hhere : t.get? here = some .directory)
    (hp : p = .found l .directory) : t.get? l = some .directory := by
  induction h with
  | done =>
    cases hp
    exact hhere
  | dot _ ih => exact ih hhere hp
  | up _ ih => exact ih (ht.dropLast hhere) hp
  | directory _ get _ ih => exact ih get hp
  | link _ _ _ _ ih =>
    refine ih ?_ hp
    split
    · rfl
    · exact hhere
  | free => cases hp
  | file => cases hp
  | stay => cases hp

theorem WellFormed.get?_of_locate (ht : t.WellFormed) {path : String}
    (h : t.locate true path = .ok (.found l .directory)) : t.get? l = some .directory := by
  obtain ⟨q, -, hw, -⟩ := locate_eq_ok h
  refine ht.get?_of_walks hw ?_ rfl
  rw [start]
  split
  · rfl
  · exact ht.workDir

/-- The name that a location has in a directory. -/
def nameIn? (here l : Location) : Option String :=
  match behind? here l with
  | some [name] => some name
  | _ => none

theorem nameIn?_eq_some_iff : nameIn? here l = some name ↔ l = here ++ [name] := by
  rw [nameIn?, ← behind?_eq_some_iff]
  split <;> simp_all

/-- The names that stand in a directory. -/
def namesIn (t : FileTree) (here : Location) : List String := t.locations.filterMap (nameIn? here)

theorem mem_namesIn : name ∈ t.namesIn here ↔ here ++ [name] ∈ t.locations := by
  simp only [namesIn, List.mem_filterMap, nameIn?_eq_some_iff, exists_eq_right]

theorem WellFormed.nodup_namesIn (ht : t.WellFormed) (here : Location) : (t.namesIn here).Nodup := by
  refine List.Nodup.filterMap (fun l l' name h h' => ?_) ht.distinct
  rw [nameIn?_eq_some_iff.mp h, nameIn?_eq_some_iff.mp h']

theorem WellFormed.sorted_namesIn (ht : t.WellFormed) (here : Location) :
    (t.namesIn here).mergeSort.Pairwise (· < ·) := by
  have hsorted : (t.namesIn here).mergeSort.Pairwise fun a b => decide (a ≤ b) = true :=
    List.pairwise_mergeSort (fun a b c => by simpa using le_trans) (fun a b => by simpa using le_total a b) _
  have hnodup : (t.namesIn here).mergeSort.Nodup :=
    (List.mergeSort_perm _ _).nodup_iff.mpr (ht.nodup_namesIn here)
  exact (hsorted.and hnodup).imp fun h => lt_of_le_of_ne (of_decide_eq_true h.1) h.2

/-- No location is longer than all of them together. -/
def size (t : FileTree) : Nat := (t.locations.map List.length).sum

theorem length_lt_size (h : name ∈ t.namesIn here) : here.length < t.size := by
  have hle : (here ++ [name]).length ≤ t.size := List.le_sum_of_mem (List.mem_map_of_mem (mem_namesIn.mp h))
  rw [List.length_append, List.length_singleton] at hle
  omega

/-- The regular files below a location as a walk meets them: the entries of each directory by name, and those
below a directory in its place. Links are not followed. -/
def preorder (t : FileTree) (here : Location) : List (List String) :=
  (t.namesIn here).mergeSort.attach.flatMap fun name =>
    match t.get? (here ++ [name.1]) with
    | some (.file _) => [[name.1]]
    | some .directory => (t.preorder (here ++ [name.1])).map (name.1 :: ·)
    | _ => []
termination_by t.size - here.length
decreasing_by
  have hlt := length_lt_size (List.mem_mergeSort.mp name.2)
  rw [List.length_append, List.length_singleton]
  omega

/-- What a walk meets at an entry of a directory. -/
def metAt (t : FileTree) (here : Location) (name : String) : List (List String) :=
  match t.get? (here ++ [name]) with
  | some (.file _) => [[name]]
  | some .directory => (t.preorder (here ++ [name])).map (name :: ·)
  | _ => []

theorem preorder_eq (t : FileTree) (here : Location) :
    t.preorder here = (t.namesIn here).mergeSort.flatMap (t.metAt here) := by
  rw [preorder]
  generalize (t.namesIn here).mergeSort = names
  calc names.attach.flatMap (fun name => t.metAt here name.1)
    _ = (names.attach.map Subtype.val).flatMap (t.metAt here) := by rw [List.flatMap_map]
    _ = names.flatMap (t.metAt here) := by rw [List.attach_map_subtype_val]

theorem mem_metAt_iff {met : List String} : met ∈ t.metAt here name ↔
    (∃ bytes, t.get? (here ++ [name]) = some (.file bytes)) ∧ met = [name] ∨
      t.get? (here ++ [name]) = some .directory ∧
        ∃ below ∈ t.preorder (here ++ [name]), met = name :: below := by
  rw [metAt]
  split
  · simp [*]
  · simp [*, eq_comm]
  · rename_i hfile hdirectory
    constructor
    · nofun
    · rintro (⟨⟨bytes, hget⟩, -⟩ | ⟨hget, -⟩)
      · exact absurd hget (hfile bytes)
      · exact absurd hget hdirectory

theorem nil_notMem_preorder : [] ∉ t.preorder here := by
  rw [preorder_eq, List.mem_flatMap]
  rintro ⟨name, -, h⟩
  obtain ⟨-, h⟩ | ⟨-, below, -, h⟩ := mem_metAt_iff.mp h
  · cases h
  · cases h

theorem cons_mem_preorder_iff : name :: names ∈ t.preorder here ↔ name ∈ t.namesIn here ∧
    ((∃ bytes, t.get? (here ++ [name]) = some (.file bytes)) ∧ names = [] ∨
      t.get? (here ++ [name]) = some .directory ∧ names ∈ t.preorder (here ++ [name])) := by
  rw [preorder_eq, List.mem_flatMap]
  constructor
  · rintro ⟨other, hother, h⟩
    rw [List.mem_mergeSort] at hother
    obtain ⟨hfile, h⟩ | ⟨hget, below, hbelow, h⟩ := mem_metAt_iff.mp h
    · cases h
      exact ⟨hother, .inl ⟨hfile, rfl⟩⟩
    · cases h
      exact ⟨hother, .inr ⟨hget, hbelow⟩⟩
  · rintro ⟨hname, h⟩
    refine ⟨name, List.mem_mergeSort.mpr hname, mem_metAt_iff.mpr ?_⟩
    obtain ⟨hfile, rfl⟩ | ⟨hget, hbelow⟩ := h
    · exact .inl ⟨hfile, rfl⟩
    · exact .inr ⟨hget, names, hbelow, rfl⟩

/-- A walk meets exactly the files below its location. -/
theorem WellFormed.mem_preorder_iff (ht : t.WellFormed) : names ∈ t.preorder here ↔
    names ≠ [] ∧ ∃ bytes, t.get? (here ++ names) = some (.file bytes) := by
  induction names generalizing here with
  | nil => exact iff_of_false nil_notMem_preorder fun h => h.1 rfl
  | cons name names ih =>
    have hsplit : here ++ name :: names = here ++ [name] ++ names := List.append_cons ..
    have hthere : here ++ [name] ≠ [] := by simp
    rw [cons_mem_preorder_iff, ih, hsplit, mem_namesIn]
    constructor
    · rintro ⟨-, ⟨⟨bytes, hget⟩, rfl⟩ | ⟨-, -, hfile⟩⟩
      · exact ⟨List.cons_ne_nil _ _, bytes, by rwa [List.append_nil]⟩
      · exact ⟨List.cons_ne_nil _ _, hfile⟩
    · rintro ⟨-, bytes, hget⟩
      by_cases hnames : names = []
      · rw [hnames, List.append_nil] at hget
        exact ⟨ht.mem_locations hthere hget, .inl ⟨⟨bytes, hget⟩, hnames⟩⟩
      · have hdirectory := ht.directory_above names hnames hget
        exact ⟨ht.mem_locations hthere hdirectory, .inr ⟨hdirectory, hnames, bytes, hget⟩⟩

/-- What is met at an earlier name comes before what is met at a later one. -/
theorem before_of_metAt {later : String} {as bs : List String} (hlt : name < later)
    (ha : as ∈ t.metAt here name) (hb : bs ∈ t.metAt here later) : Path.before bs as = false := by
  have hcons {name : String} {as : List String} (h : as ∈ t.metAt here name) :
      ∃ rest, as = name :: rest := by
    obtain ⟨-, rfl⟩ | ⟨-, below, -, rfl⟩ := mem_metAt_iff.mp h
    · exact ⟨[], rfl⟩
    · exact ⟨below, rfl⟩
  obtain ⟨as, rfl⟩ := hcons ha
  obtain ⟨bs, rfl⟩ := hcons hb
  rw [Bool.eq_false_iff, Ne, Path.before_cons_iff]
  rintro (h | ⟨h, -⟩)
  · exact absurd h hlt.not_gt
  · exact absurd h hlt.ne'

/-- No path is met after one that comes behind it. -/
theorem WellFormed.preorder_pairwise (ht : t.WellFormed) (here : Location) :
    (t.preorder here).Pairwise fun a b => Path.before b a = false := by
  induction hn : t.size - here.length using Nat.strongRecOn generalizing here with
  | ind n ih =>
    subst hn
    rw [preorder_eq, List.pairwise_flatMap]
    constructor
    · intro name hname
      have hlt := length_lt_size (List.mem_mergeSort.mp hname)
      rw [metAt]
      split
      · exact List.pairwise_singleton _ _
      · have hless : t.size - (here ++ [name]).length < t.size - here.length := by
          rw [List.length_append, List.length_singleton]
          omega
        refine List.pairwise_map.mpr ((ih _ hless _ rfl).imp fun h => ?_)
        rwa [Path.before, if_pos rfl]
      · exact .nil
    · exact (ht.sorted_namesIn here).imp fun hlt a ha b hb => before_of_metAt hlt ha hb

theorem WellFormed.sorted_preorder (ht : t.WellFormed) (here : Location) :
    (t.preorder here).Pairwise fun a b => Path.before a b = true :=
  (ht.preorder_pairwise here).imp fun {a b} h => by simpa [h] using Path.before_total a b

theorem WellFormed.nodup_preorder (ht : t.WellFormed) (here : Location) : (t.preorder here).Nodup := by
  refine (ht.preorder_pairwise here).imp fun {a b} h hab => ?_
  have hself := Path.before_total a a
  rw [hab] at h
  simp [hab, h] at hself

/-- They are those of the walk. -/
theorem WellFormed.perm_preorder (ht : t.WellFormed) {path : String} {below : List (List String)}
    (hbase : t.locate true path = .ok (.found base .directory)) (h : t.filesBelow path = .ok below) :
    below.Perm (t.preorder base) := by
  obtain ⟨base', hbase', rfl⟩ := filesBelow_eq_ok_iff.mp h
  cases hbase.symm.trans hbase'
  refine (List.perm_ext_iff_of_nodup ?_ (ht.nodup_preorder base)).mpr fun names => ?_
  · refine List.pairwise_filterMap.mpr ((List.pairwise_map.mp ht.distinct).imp ?_)
    intro x y hne names hx other hy hsame
    obtain ⟨_, rfl⟩ := fileBehind?_eq_some_iff.mp hx
    obtain ⟨_, rfl⟩ := fileBehind?_eq_some_iff.mp hy
    exact hne (congrArg (base ++ ·) hsame)
  · rw [List.mem_filterMap, ht.mem_preorder_iff]
    constructor
    · rintro ⟨x, hx, hnames⟩
      obtain ⟨bytes, rfl⟩ := fileBehind?_eq_some_iff.mp hnames
      have hl : base ++ names ≠ [] := fun hl => ht.root (hl ▸ List.mem_map_of_mem hx)
      have hget := (ht.get?_eq_some_iff hl).mpr hx
      refine ⟨?_, bytes, hget⟩
      rintro rfl
      rw [List.append_nil, ht.get?_of_locate hbase] at hget
      cases hget
    · rintro ⟨hne, bytes, hget⟩
      have hmem := (ht.get?_eq_some_iff (by simp [hne])).mp hget
      exact ⟨_, hmem, fileBehind?_eq_some_iff.mpr ⟨bytes, rfl⟩⟩

/-- Sorting them gives the walk, whatever order they are listed in. -/
theorem WellFormed.mergeSort_filter (ht : t.WellFormed) {path : String} {below : List (List String)}
    (hbase : t.locate true path = .ok (.found base .directory)) (h : t.filesBelow path = .ok below)
    (p : List String → Bool) : (below.filter p).mergeSort Path.before = (t.preorder base).filter p :=
  Path.eq_of_sorted (Path.sorted_mergeSort _) ((ht.sorted_preorder base).filter _)
    ((List.mergeSort_perm _ _).trans ((ht.perm_preorder hbase h).filter p))

/-- The same tree, whose directories may be listed in another order. -/
structure Relisted (t u : FileTree) : Prop where
  workDir : u.workDir = t.workDir
  entries : u.entries.Perm t.entries

theorem Relisted.get?_eq (h : Relisted t u) (ht : t.WellFormed) (l : Location) : u.get? l = t.get? l := by
  by_cases hl : l = []
  · rw [hl]
    rfl
  · have hdistinct : u.locations.Nodup := (h.entries.map Prod.fst).nodup_iff.mpr ht.distinct
    ext e
    rw [ht.get?_eq_some_iff hl, get?, if_neg (by simpa using hl), lookup_eq_some_iff_mem hdistinct]
    exact h.entries.mem_iff

theorem Relisted.wellFormed (h : Relisted t u) (ht : t.WellFormed) : u.WellFormed where
  distinct := (h.entries.map Prod.fst).nodup_iff.mpr ht.distinct
  root hmem := ht.root ((h.entries.map Prod.fst).mem_iff.mp hmem)
  parent l hmem := by
    rw [h.get?_eq ht]
    exact ht.parent l ((h.entries.map Prod.fst).mem_iff.mp hmem)
  workDir := by rw [h.get?_eq ht, h.workDir, ht.workDir]

theorem Relisted.preorder_eq (h : Relisted t u) (ht : t.WellFormed) (base : Location) :
    u.preorder base = t.preorder base := by
  have hu := h.wellFormed ht
  refine Path.eq_of_sorted (hu.sorted_preorder base) (ht.sorted_preorder base) ?_
  refine (List.perm_ext_iff_of_nodup (hu.nodup_preorder base) (ht.nodup_preorder base)).mpr fun names => ?_
  rw [hu.mem_preorder_iff, ht.mem_preorder_iff]
  simp only [h.get?_eq ht]

theorem Relisted.locate_iff (h : Relisted t u) (ht : t.WellFormed) {follow : Bool} {path : String} :
    u.locate follow path = .ok (.found l e) ↔ t.locate follow path = .ok (.found l e) := by
  have hget := h.get?_eq ht
  exact ⟨locate_mono h.workDir.symm fun l e hl => (hget l).symm.trans hl,
    locate_mono h.workDir fun l e hl => (hget l).trans hl⟩

theorem Relisted.kind_eq (h : Relisted t u) (ht : t.WellFormed) (path : String) :
    u.kind path = t.kind path := by
  ext k
  cases k with
  | file => simp only [kind_eq_file, h.locate_iff ht]
  | directory => simp only [kind_eq_directory, h.locate_iff ht]

end FileTree

end RestRoutes
