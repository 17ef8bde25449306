import RestRoutes.Proofs.Except
import RestRoutes.Proofs.Files.Tree

namespace RestRoutes

namespace FileTree

/-- Where names lead when only directories are passed: to a file or to a place that one can be put in. -/
def leads? (t : FileTree) (here : Location) (slash : Bool) : List String → Option Location
  | [] => none
  | name :: rest =>
    if name = "." then leads? t here slash rest
    else if name = ".." then leads? t here.dropLast slash rest
    else if nameLimit < Text.Utf8.size name.toList then none
    else if t.get? (here ++ [name]) = some .directory then leads? t (here ++ [name]) slash rest
    else if rest.isEmpty && !slash then some (here ++ [name])
    else none

def place? (t : FileTree) (path : String) : Option Location :=
  match checkPath path with
  | .ok p => t.leads? (t.start p) p.slash p.names
  | .error _ => none

variable {t t' : FileTree} {here l : Location} {slash : Bool} {names : List String} {path : String}

theorem leads?_visible (hnames : ∀ name ∈ names, '/' ∉ name.toList)
    (hl : t.leads? here slash names = some l) : t.get? l ≠ some .directory ∧ ¬ Hidden l := by
  fun_induction leads? t here slash names with
  | case1 => cases hl
  | case2 here rest ih => exact ih (List.forall_mem_cons.mp hnames).2 hl
  | case3 here rest _ ih => exact ih (List.forall_mem_cons.mp hnames).2 hl
  | case4 => cases hl
  | case5 here name rest _ _ _ hdir ih => exact ih (List.forall_mem_cons.mp hnames).2 hl
  | case6 here name rest _ _ _ hdir =>
    cases hl
    exact ⟨hdir, not_hidden_concat (List.forall_mem_cons.mp hnames).1⟩
  | case7 => cases hl

theorem leads?_end (hl : t.leads? here slash names = some l) : slash = false ∧
    ∃ name, names.getLast? = some name ∧ name ≠ "." ∧ name ≠ ".." := by
  fun_induction leads? t here slash names with
  | case1 => cases hl
  | case2 here rest ih =>
    obtain ⟨hslash, name, hlast, hname⟩ := ih hl
    exact ⟨hslash, name, by rw [List.getLast?_cons, hlast]; rfl, hname⟩
  | case3 here rest _ ih =>
    obtain ⟨hslash, name, hlast, hname⟩ := ih hl
    exact ⟨hslash, name, by rw [List.getLast?_cons, hlast]; rfl, hname⟩
  | case4 => cases hl
  | case5 here name rest _ _ _ hd ih =>
    obtain ⟨hslash, name, hlast, hname⟩ := ih hl
    exact ⟨hslash, name, by rw [List.getLast?_cons, hlast]; rfl, hname⟩
  | case6 here name rest hdot hup hlong hd hend =>
    simp only [Bool.and_eq_true, List.isEmpty_iff, Bool.not_eq_true'] at hend
    obtain ⟨rfl, hslash⟩ := hend
    exact ⟨hslash, name, rfl, hdot, hup⟩
  | case7 => cases hl

/-- Only directories are passed, so what else has changed on the way does not matter. -/
theorem leads?_mono (hdir : ∀ l, t.get? l = some .directory → t'.get? l = some .directory)
    (hl : t.leads? here slash names = some l) :
    t'.leads? here slash names = if t'.get? l = some .directory then none else some l := by
  fun_induction leads? t here slash names with
  | case1 => cases hl
  | case2 here rest ih => simp [leads?, ih hl]
  | case3 here rest _ ih => simp [leads?, ih hl]
  | case4 => cases hl
  | case5 here name rest _ _ _ hd ih =>
    simp [leads?, *, ih hl]
  | case6 here name rest hdot hup hlong hd hend =>
    obtain rfl := Option.some.inj hl
    simp only [Bool.and_eq_true, List.isEmpty_iff] at hend
    obtain ⟨rfl, hslash⟩ := hend
    simp [leads?, hdot, hup, hlong, hslash]
  | case7 => cases hl

/-- What a walk finds where it leads. -/
def standing (t : FileTree) (l : Location) : Place :=
  match t.get? l with
  | some e => .found l e
  | none => .free l false

theorem walk_of_leads? (h : t.Linkless) (hl : t.leads? here slash names = some l) (follow : Bool)
    (n : Nat) : t.walk follow n here slash names = .ok (t.standing l) := by
  fun_induction leads? t here slash names with
  | case1 => cases hl
  | case2 here rest ih =>
    rw [walk]
    exact ih hl
  | case3 here rest _ ih =>
    rw [walk]
    exact ih hl
  | case4 => cases hl
  | case5 here name rest _ _ _ hd ih =>
    rw [walk]
    simp [*, ih hl]
  | case6 here name rest hdot hup hlong hd hend =>
    obtain rfl := Option.some.inj hl
    rw [walk]
    simp only [hdot, hup, hlong, if_false, standing]
    cases hget : t.get? (here ++ [name]) with
    | none => simp_all
    | some e =>
      cases e with
      | file bytes => simp_all
      | directory => exact absurd hget hd
      | link target => exact absurd hget (h _ _)
  | case7 => cases hl

/-- A walk ends where a file can be, in a directory, or where only a directory can be made. -/
theorem walk_cases (h : t.Linkless) (hnames : ∀ name ∈ names, '/' ∉ name.toList)
    (hw : t.walk follow n here slash names = .ok p) :
    (∃ l, t.leads? here slash names = some l ∧ p = t.standing l) ∨ (∃ l, p = .found l .directory) ∨
    ∃ l, p = .free l true ∧ slash = true ∧ t.get? l = none ∧ ¬ Hidden l := by
  fun_induction leads? t here slash names with
  | case1 here =>
    rw [walk] at hw
    cases hw
    exact .inr (.inl ⟨_, rfl⟩)
  | case2 here rest ih =>
    rw [walk] at hw
    exact ih (List.forall_mem_cons.mp hnames).2 hw
  | case3 here rest _ ih =>
    rw [walk] at hw
    exact ih (List.forall_mem_cons.mp hnames).2 hw
  | case4 here name rest hdot hup hlong =>
    rw [walk] at hw
    simp [*] at hw
  | case5 here name rest _ _ _ hd ih =>
    rw [walk] at hw
    simp only [*, if_false] at hw
    exact ih (List.forall_mem_cons.mp hnames).2 hw
  | case6 here name rest hdot hup hlong hd hend =>
    have hl : t.leads? here slash (name :: rest) = some (here ++ [name]) := by
      simp only [leads?, *, if_false, if_true]
    rw [walk_of_leads? h hl] at hw
    exact .inl ⟨_, rfl, (Except.ok.inj hw).symm⟩
  | case7 here name rest hdot hup hlong hd hend =>
    rw [walk] at hw
    simp only [hdot, hup, hlong, if_false] at hw
    cases hget : t.get? (here ++ [name]) with
    | none =>
      simp only [hget] at hw
      split at hw
      · rename_i hrest
        cases hw
        have hslash : slash = true := by simpa [hrest] using hend
        refine .inr (.inr ⟨_, by rw [hslash], hslash, hget, ?_⟩)
        exact not_hidden_concat (List.forall_mem_cons.mp hnames).1
      · cases hw
    | some e =>
      cases e with
      | file bytes => simp [hget, hend] at hw
      | directory => exact absurd hget hd
      | link target => exact absurd hget (h _ _)

theorem start_congr (h : t'.workDir = t.workDir) (p : Path) : t'.start p = t.start p := by
  rw [start, start, h]

theorem checkPath_names (h : checkPath path = .ok p) : ∀ name ∈ p.names, '/' ∉ name.toList := by
  obtain rfl : p = Path.ofString path := by
    simp only [checkPath] at h
    grind
  exact fun _ => Path.slash_notMem_of_mem_names

theorem place?_eq_some : t.place? path = some l ↔
    ∃ p, checkPath path = .ok p ∧ t.leads? (t.start p) p.slash p.names = some l := by
  simp only [place?]
  split <;> simp [*]

theorem locate_of_place? (h : t.Linkless) (hl : t.place? path = some l) (follow : Bool) :
    t.locate follow path = .ok (t.standing l) := by
  obtain ⟨p, hp, hl⟩ := place?_eq_some.mp hl
  simp only [locate, hp]
  exact walk_of_leads? h hl follow linkLimit

theorem locate_cases (h : t.Linkless) (hp : t.locate follow path = .ok p) :
    (∃ l, t.place? path = some l ∧ p = t.standing l) ∨ (∃ l, p = .found l .directory) ∨
    ∃ l, p = .free l true ∧ t.get? l = none ∧ ¬ Hidden l := by
  simp only [locate, bind_eq_ok_iff] at hp
  obtain ⟨q, hq, hw⟩ := hp
  rcases walk_cases h (checkPath_names hq) hw with ⟨l, hl, he⟩ | hdir | hfree
  · exact .inl ⟨l, place?_eq_some.mpr ⟨q, hq, hl⟩, he⟩
  · exact .inr (.inl hdir)
  · obtain ⟨l, he, -, hget⟩ := hfree
    exact .inr (.inr ⟨l, he, hget⟩)

theorem place?_visible (hl : t.place? path = some l) :
    t.get? l ≠ some .directory ∧ ¬ Hidden l := by
  obtain ⟨p, hp, hl⟩ := place?_eq_some.mp hl
  exact leads?_visible (checkPath_names hp) hl

/-- More directories do not change where a path leads, but at its very end. -/
theorem place?_mono (hwork : t'.workDir = t.workDir)
    (hdir : ∀ l, t.get? l = some .directory → t'.get? l = some .directory)
    (hl : t.place? path = some l) :
    t'.place? path = if t'.get? l = some .directory then none else some l := by
  obtain ⟨p, hp, hl⟩ := place?_eq_some.mp hl
  simpa only [place?, hp, start_congr hwork] using leads?_mono hdir hl

/-- Files that come and go change nothing about where paths lead. -/
theorem place?_congr (hwork : t'.workDir = t.workDir)
    (hdir : ∀ l, t'.get? l = some .directory ↔ t.get? l = some .directory) (path : String) :
    t'.place? path = t.place? path := by
  ext l
  constructor
  · intro hl
    rw [place?_mono hwork.symm (fun l => (hdir l).mp) hl, if_neg]
    exact fun h => (place?_visible hl).1 ((hdir l).mpr h)
  · intro hl
    rw [place?_mono hwork (fun l => (hdir l).mpr) hl, if_neg]
    exact fun h => (place?_visible hl).1 ((hdir l).mp h)

/-- A path leads to a file or to nothing. -/
theorem place?_cases (h : t.Linkless) (hl : t.place? path = some l) :
    (∃ bytes, t.get? l = some (.file bytes)) ∨ t.get? l = none := by
  have hvis := (place?_visible hl).1
  cases hget : t.get? l with
  | none => exact .inr rfl
  | some e =>
    cases e with
    | file bytes => exact .inl ⟨bytes, rfl⟩
    | directory => exact absurd hget hvis
    | link target => exact absurd hget (h _ _)

theorem read_of_place? (h : t.Linkless) (hl : t.place? path = some l) : t.read path =
    match t.get? l with
    | some (.file bytes) => .ok bytes
    | _ => .error .notFound := by
  simp only [read, locate_of_place? h hl, standing]
  rcases place?_cases h hl with ⟨bytes, hget⟩ | hget <;> rw [hget] <;> rfl

theorem read_eq_ok (h : t.Linkless) (hr : t.read path = .ok bytes) :
    ∃ l, t.place? path = some l ∧ t.get? l = some (.file bytes) := by
  have hread := hr
  simp only [read, bind_eq_ok_iff] at hr
  obtain ⟨p, hp, hr⟩ := hr
  rcases locate_cases h hp with ⟨l, hl, -⟩ | ⟨l, rfl⟩ | ⟨l, rfl, -⟩
  · refine ⟨l, hl, ?_⟩
    rw [read_of_place? h hl] at hread
    rcases place?_cases h hl with ⟨bytes', hget⟩ | hget <;> simp_all
  · cases hr
  · cases hr

theorem write_of_place? (h : t.Linkless) (hl : t.place? path = some l) (bytes : List UInt8) :
    t.write path bytes = .ok (t.put l (.file bytes)) := by
  simp only [write, locate_of_place? h hl, standing]
  rcases place?_cases h hl with ⟨bytes, hget⟩ | hget <;> rw [hget] <;> rfl

theorem remove_of_place? (h : t.Linkless) (hl : t.place? path = some l) : t.remove path =
    match t.get? l with
    | some _ => .ok (t.erase l)
    | none => .error .notFound := by
  simp only [remove, locate_of_place? h hl, standing]
  rcases place?_cases h hl with ⟨bytes, hget⟩ | hget <;> rw [hget] <;> rfl

theorem stage_eq_ok (hs : t.stage path bytes = .ok (s, t')) :
    ∃ base, s = base ++ [t.freshName] ∧ t' = t.put s (.file bytes) := by
  simp only [stage, bind_eq_ok_iff] at hs
  obtain ⟨p, -, hs⟩ := hs
  split at hs
  · cases hs
    exact ⟨_, rfl, rfl⟩
  · cases hs
  · cases hs

/-- A staged file can be moved exactly to where a file can be. -/
theorem replace_eq_ok (h : t.Linkless) : t.replace s path = .ok t' ↔
    ∃ l e, t.place? path = some l ∧ t.get? s = some e ∧ t' = (t.erase s).put l e := by
  constructor
  · intro hr
    simp only [replace, bind_eq_ok_iff] at hr
    obtain ⟨p, hp, hr⟩ := hr
    split at hr
    · cases hr
    split at hr
    · obtain ⟨_, -, hr⟩ := bind_eq_ok_iff.mp hr
      cases hr
    obtain ⟨place, hw, hr⟩ := bind_eq_ok_iff.mp hr
    split at hr
    · cases hr
    rename_i hslash
    simp only [Bool.not_eq_true] at hslash
    rcases walk_cases h (checkPath_names hp) hw with ⟨l, hl, rfl⟩ | ⟨l, rfl⟩ | ⟨_, -, hfalse, -⟩
    · have hplace : t.place? path = some l := place?_eq_some.mpr ⟨p, hp, hslash ▸ hl⟩
      have hr : (match t.get? s with
          | some e => (Except.ok ((t.erase s).put l e) : Except FileError FileTree)
          | none => Except.error .notFound) = .ok t' := by
        rcases place?_cases h hplace with ⟨bytes, hget⟩ | hget
        · simp only [standing, hget] at hr
          exact hr
        · simp only [standing, hget] at hr
          exact hr
      split at hr
      · rename_i e hs
        exact ⟨l, e, hplace, hs, (Except.ok.inj hr).symm⟩
      · cases hr
    · cases hr
    · cases hfalse
  · rintro ⟨l, e, hl, hs, rfl⟩
    obtain ⟨p, hp, hlead⟩ := place?_eq_some.mp hl
    obtain ⟨hslash, name, hlast, hdot, hup⟩ := leads?_end hlead
    have hw := walk_of_leads? h hlead false linkLimit
    rw [hslash] at hw
    rw [replace, bind_eq_ok_iff]
    refine ⟨p, hp, ?_⟩
    simp only [hlast, hdot, hup, hslash, decide_false, Bool.or_false, Bool.false_eq_true, if_false]
    apply bind_eq_ok_iff.mpr
    refine ⟨_, hw, ?_⟩
    rcases place?_cases h hl with ⟨bytes, hget⟩ | hget <;> simp only [standing, hget, hs] <;> rfl

end FileTree

end RestRoutes
