import RestRoutes.Proofs.Files.Place

namespace RestRoutes

/-- Where a file can be put: at a free name, or in the place of a file or a link. -/
def Place.target? : Place → Option Location
  | .found _ .directory => none
  | .found l _ => some l
  | .free l _ => some l

theorem Place.target?_eq_some {p : Place} {l : Location} (h : p.target? = some l) :
    (∃ e, p = .found l e ∧ e ≠ .directory) ∨ ∃ s, p = .free l s := by
  cases p with
  | free l s =>
    cases h
    exact .inr ⟨s, rfl⟩
  | found l e =>
    cases e with
    | directory => cases h
    | file bytes =>
      cases h
      exact .inl ⟨_, rfl, nofun⟩
    | link target =>
      cases h
      exact .inl ⟨_, rfl, nofun⟩

namespace FileTree

/-- A name that is looked up in a directory. -/
def IsStep (name : String) : Prop :=
  name ≠ "." ∧ name ≠ ".." ∧ Text.Utf8.size name.toList ≤ nameLimit

/-- A walk that ends at a place. -/
inductive Walks (t : FileTree) (follow : Bool) :
    Nat → Location → Bool → List String → Place → Prop where
  | done : Walks t follow n here slash [] (.found here .directory)
  | dot (rest : Walks t follow n here slash names p) : Walks t follow n here slash ("." :: names) p
  | up (rest : Walks t follow n here.dropLast slash names p) :
    Walks t follow n here slash (".." :: names) p
  | free (step : IsStep name) (get : t.get? (here ++ [name]) = none) :
    Walks t follow n here slash [name] (.free (here ++ [name]) slash)
  | directory (step : IsStep name) (get : t.get? (here ++ [name]) = some .directory)
    (rest : Walks t follow n (here ++ [name]) slash names p) :
    Walks t follow n here slash (name :: names) p
  | file (step : IsStep name) (get : t.get? (here ++ [name]) = some (.file bytes)) :
    Walks t follow n here false [name] (.found (here ++ [name]) (.file bytes))
  | stay (step : IsStep name) (get : t.get? (here ++ [name]) = some (.link target))
    (hfollow : follow = false) :
    Walks t follow n here false [name] (.found (here ++ [name]) (.link target))
  | link (step : IsStep name) (get : t.get? (here ++ [name]) = some (.link target))
    (passed : (names.isEmpty && !slash && !follow) = false)
    (rest : Walks t follow n (if (Path.ofString target).absolute then [] else here)
      (slash || names.isEmpty && (Path.ofString target).slash) ((Path.ofString target).names ++ names) p) :
    Walks t follow (n + 1) here slash (name :: names) p

variable {t u v w : FileTree} {here l m : Location} {slash follow : Bool} {names : List String} {n : Nat}
  {p : Place} {path : String}

theorem walk_step {name : String} (step : IsStep name) :
    t.walk follow n here slash (name :: names) =
      match t.get? (here ++ [name]) with
      | none => if names.isEmpty then .ok (.free (here ++ [name]) slash) else .error .notFound
      | some .directory => t.walk follow n (here ++ [name]) slash names
      | some (.file bytes) =>
        if names.isEmpty && !slash then .ok (.found (here ++ [name]) (.file bytes))
        else .error .notDirectory
      | some (.link target) =>
        if names.isEmpty && !slash && !follow then .ok (.found (here ++ [name]) (.link target))
        else
          match n with
          | 0 => .error .tooManyLinks
          | n + 1 =>
            let p := Path.ofString target
            t.walk follow n (if p.absolute then [] else here) (slash || names.isEmpty && p.slash)
              (p.names ++ names) := by
  rw [walk]
  exact (if_neg step.1).trans ((if_neg step.2.1).trans (if_neg (Nat.not_lt.mpr step.2.2)))

theorem walk_eq_ok_iff :
    t.walk follow n here slash names = .ok p ↔ Walks t follow n here slash names p := by
  constructor
  · intro h
    fun_induction walk t follow n here slash names with
    | case1 =>
      cases h
      exact .done
    | case2 n here slash names ih => exact .dot (ih h)
    | case3 n here slash names _ ih => exact .up (ih h)
    | case4 => cases h
    | case5 n here slash name names hdot hup hlong there hget hend =>
      cases h
      obtain rfl := List.isEmpty_iff.mp hend
      exact .free ⟨hdot, hup, Nat.le_of_not_lt hlong⟩ hget
    | case6 => cases h
    | case7 n here slash name names hdot hup hlong there hget ih =>
      exact .directory ⟨hdot, hup, Nat.le_of_not_lt hlong⟩ hget (ih h)
    | case8 n here slash name names hdot hup hlong there bytes hget hend =>
      cases h
      simp only [Bool.and_eq_true, List.isEmpty_iff, Bool.not_eq_true'] at hend
      obtain ⟨rfl, rfl⟩ := hend
      exact .file ⟨hdot, hup, Nat.le_of_not_lt hlong⟩ hget
    | case9 => cases h
    | case10 n here slash name names hdot hup hlong there target hget hend =>
      cases h
      simp only [Bool.and_eq_true, List.isEmpty_iff, Bool.not_eq_true'] at hend
      obtain ⟨⟨rfl, rfl⟩, hfollow⟩ := hend
      exact .stay ⟨hdot, hup, Nat.le_of_not_lt hlong⟩ hget hfollow
    | case11 => cases h
    | case12 here slash name names hdot hup hlong there target hget hpassed n _ ih =>
      exact .link ⟨hdot, hup, Nat.le_of_not_lt hlong⟩ hget (Bool.eq_false_iff.mpr hpassed) (ih h)
  · intro h
    induction h with
    | done => rw [walk]
    | dot _ ih => rw [walk, if_pos rfl, ih]
    | up _ ih => rw [walk, if_neg (by decide), if_pos rfl, ih]
    | free step get =>
      rw [walk_step step, get]
      rfl
    | directory step get _ ih =>
      rw [walk_step step, get]
      exact ih
    | file step get =>
      rw [walk_step step, get]
      rfl
    | stay step get hfollow =>
      rw [walk_step step, get, hfollow]
      rfl
    | link step get passed _ ih =>
      rw [walk_step step, get]
      simp only [passed, Bool.false_eq_true, if_false]
      exact ih

/-- No name of a path has a slash in it, and links lead along paths. -/
theorem names_append {target : String} (hnames : ∀ name ∈ names, '/' ∉ name.toList) :
    ∀ name ∈ (Path.ofString target).names ++ names, '/' ∉ name.toList := by
  intro name hname
  rcases List.mem_append.mp hname with hname | hname
  · exact Path.slash_notMem_of_mem_names hname
  · exact hnames name hname

theorem Walks.free_absent (h : Walks t follow n here slash names (.free l s))
    (hnames : ∀ name ∈ names, '/' ∉ name.toList) : t.get? l = none ∧ ¬ Hidden l := by
  generalize hp : Place.free l s = p at h
  induction h with
  | done => cases hp
  | dot _ ih => exact ih (List.forall_mem_cons.mp hnames).2 hp
  | up _ ih => exact ih (List.forall_mem_cons.mp hnames).2 hp
  | free step get =>
    cases hp
    exact ⟨get, not_hidden_concat (hnames _ List.mem_cons_self)⟩
  | directory _ _ _ ih => exact ih (List.forall_mem_cons.mp hnames).2 hp
  | file => cases hp
  | stay => cases hp
  | link _ _ _ _ ih => exact ih (names_append (List.forall_mem_cons.mp hnames).2) hp

theorem Walks.found_present (h : Walks t follow n here slash names (.found l e))
    (hnames : ∀ name ∈ names, '/' ∉ name.toList) (he : e ≠ .directory) :
    t.get? l = some e ∧ ¬ Hidden l := by
  generalize hp : Place.found l e = p at h
  induction h with
  | done =>
    cases hp
    exact absurd rfl he
  | dot _ ih => exact ih (List.forall_mem_cons.mp hnames).2 hp
  | up _ ih => exact ih (List.forall_mem_cons.mp hnames).2 hp
  | free => cases hp
  | directory _ _ _ ih => exact ih (List.forall_mem_cons.mp hnames).2 hp
  | file _ get =>
    cases hp
    exact ⟨get, not_hidden_concat (hnames _ List.mem_cons_self)⟩
  | stay _ get =>
    cases hp
    exact ⟨get, not_hidden_concat (hnames _ List.mem_cons_self)⟩
  | link _ _ _ _ ih => exact ih (names_append (List.forall_mem_cons.mp hnames).2) hp

/-- Nothing is passed on the way but what is there. -/
theorem Walks.mono (h : Walks w follow n here slash names (.found l e))
    (hsub : ∀ l e, w.get? l = some e → u.get? l = some e) :
    Walks u follow n here slash names (.found l e) := by
  generalize hp : Place.found l e = p at h ⊢
  induction h with
  | done => exact .done
  | dot _ ih => exact .dot (ih hp)
  | up _ ih => exact .up (ih hp)
  | free => cases hp
  | directory step get _ ih => exact .directory step (hsub _ _ get) (ih hp)
  | file step get => exact .file step (hsub _ _ get)
  | stay step get hfollow => exact .stay step (hsub _ _ get) hfollow
  | link step get passed _ ih => exact .link step (hsub _ _ get) passed (ih hp)

/-- A tree with files put in it, none in the place of a directory. -/
structure Overlaid (v u : FileTree) : Prop where
  workDir : u.workDir = v.workDir
  get? : ∀ l, ¬ Hidden l →
    u.get? l = v.get? l ∨ v.get? l ≠ some .directory ∧ ∃ bytes, u.get? l = some (.file bytes)

theorem Walks.lands (h : Walks v false n here slash names p) (hslash : slash = false)
    (hover : Overlaid v u) (hnames : ∀ name ∈ names, '/' ∉ name.toList) (hm : p.target? = some m)
    (hput : u.get? m = some (.file bytes))
    (hu : u.walk true n here slash names = .ok (.found l e)) : l = m := by
  induction h with
  | done => cases hm
  | dot _ ih =>
    rw [walk, if_pos rfl] at hu
    exact ih hslash (List.forall_mem_cons.mp hnames).2 hm hu
  | up _ ih =>
    rw [walk, if_neg (by decide), if_pos rfl] at hu
    exact ih hslash (List.forall_mem_cons.mp hnames).2 hm hu
  | free step get =>
    cases hm
    rw [walk_step step, hput, hslash] at hu
    cases hu
    rfl
  | file step get =>
    cases hm
    rw [walk_step step, hput] at hu
    cases hu
    rfl
  | stay step get =>
    cases hm
    rw [walk_step step, hput] at hu
    cases hu
    rfl
  | directory step get _ ih =>
    have hdir := (hover.get? _ (not_hidden_concat (hnames _ List.mem_cons_self))).resolve_right
      fun hput => hput.1 get
    rw [walk_step step, hdir, get] at hu
    exact ih hslash (List.forall_mem_cons.mp hnames).2 hm hu
  | link step get passed _ ih =>
    subst hslash
    simp only [Bool.not_false, Bool.and_true] at passed
    rw [walk_step step] at hu
    rcases hover.get? _ (not_hidden_concat (hnames _ List.mem_cons_self)) with hsame | ⟨-, bytes, hfile⟩
    · rw [hsame, get] at hu
      simp only [passed, Bool.false_and, Bool.false_eq_true, if_false] at hu
      exact ih (by rw [passed]; rfl) (names_append (List.forall_mem_cons.mp hnames).2) hm
        (by rw [passed]; exact hu)
    · rw [hfile] at hu
      simp only [passed, Bool.false_and, Bool.false_eq_true, if_false] at hu
      cases hu

theorem locate_eq_ok (h : t.locate follow path = .ok p) : ∃ q, checkPath path = .ok q ∧
    Walks t follow linkLimit (t.start q) q.slash q.names p ∧ ∀ name ∈ q.names, '/' ∉ name.toList := by
  obtain ⟨q, hq, hw⟩ := bind_eq_ok_iff.mp h
  exact ⟨q, hq, walk_eq_ok_iff.mp hw, checkPath_names hq⟩

theorem locate_mono (hwork : u.workDir = w.workDir)
    (hsub : ∀ l e, w.get? l = some e → u.get? l = some e) (h : w.locate follow path = .ok (.found l e)) :
    u.locate follow path = .ok (.found l e) := by
  obtain ⟨q, hq, hw, -⟩ := locate_eq_ok h
  exact bind_eq_ok_iff.mpr ⟨q, hq, start_congr hwork q ▸ walk_eq_ok_iff.mpr (hw.mono hsub)⟩

theorem makeDirectory_eq_ok (hm : t.makeDirectory path = .ok u) :
    ∃ l, t.get? l = none ∧ ¬ Hidden l ∧ u = t.put l .directory := by
  obtain ⟨p, hp, hm⟩ := bind_eq_ok_iff.mp hm
  split at hm
  · cases hm
  · obtain ⟨q, -, hw, hnames⟩ := locate_eq_ok hp
    obtain ⟨hget, hvis⟩ := hw.free_absent hnames
    exact ⟨_, hget, hvis, (Except.ok.inj hm).symm⟩

theorem filesBut_makeDirectory (skipped : List Location) (h : t.makeDirectory path = .ok u) :
    u.filesBut skipped = t.filesBut skipped := by
  obtain ⟨l, hget, -, rfl⟩ := makeDirectory_eq_ok h
  have hl : l ≠ [] := by
    rintro rfl
    cases hget
  exact filesBut_put_directory hl hget

/-- A file can be put where the path leads, in the place of the last link on it if need be. -/
def Targets (t : FileTree) (path : String) (l : Location) : Prop :=
  ∃ q p, checkPath path = .ok q ∧ q.slash = false ∧
    Walks t false linkLimit (t.start q) false q.names p ∧ p.target? = some l

theorem Targets.visible (h : t.Targets path l) : t.get? l ≠ some .directory ∧ ¬ Hidden l := by
  obtain ⟨q, p, hq, -, hw, hl⟩ := h
  have hnames := checkPath_names hq
  rcases Place.target?_eq_some hl with ⟨e, rfl, he⟩ | ⟨s, rfl⟩
  · obtain ⟨hget, hvis⟩ := hw.found_present hnames he
    exact ⟨fun hdir => he (Option.some.inj (hget.symm.trans hdir)), hvis⟩
  · obtain ⟨hget, hvis⟩ := hw.free_absent hnames
    exact ⟨by rw [hget]; nofun, hvis⟩

/-- Without links there is no difference between what a path leads to and what is put in its place. -/
theorem Targets.place? (h : t.Targets path l) (hlink : t.Linkless) : t.place? path = some l := by
  obtain ⟨q, p, hq, hslash, hw, hl⟩ := h
  rcases walk_cases hlink (checkPath_names hq) (walk_eq_ok_iff.mpr hw) with ⟨k, hk, rfl⟩ | ⟨k, rfl⟩ | ⟨_, -, hfalse, -⟩
  · have hplace : t.place? path = some k := place?_eq_some.mpr ⟨q, hq, hslash ▸ hk⟩
    rcases place?_cases hlink hplace with ⟨bytes, hget⟩ | hget
    · rw [standing, hget] at hl
      rwa [← Option.some.inj hl]
    · rw [standing, hget] at hl
      rwa [← Option.some.inj hl]
  · cases hl
  · cases hfalse

theorem Targets.lands (h : v.Targets path m) (hover : Overlaid v u) (hput : u.get? m = some (.file bytes))
    (hu : u.locate true path = .ok (.found l e)) : l = m := by
  obtain ⟨q, p, hq, hslash, hw, hm⟩ := h
  obtain ⟨q', hq', hw', hnames⟩ := locate_eq_ok hu
  rw [hq] at hq'
  cases hq'
  rw [hslash, start_congr hover.workDir] at hw'
  exact hw.lands rfl hover hnames hm hput (walk_eq_ok_iff.mpr hw')

/-- What is moved is what is staged. -/
theorem put_of_staged (h : (match t.get? s with
      | some e => .ok ((t.erase s).put l e)
      | none => .error .notFound : Except FileError FileTree) = .ok u) :
    ∃ e, t.get? s = some e ∧ u = (t.erase s).put l e := by
  split at h
  · rename_i e hs
    exact ⟨e, hs, (Except.ok.inj h).symm⟩
  · cases h

theorem replace_targets (h : t.replace s path = .ok u) :
    ∃ l e, t.Targets path l ∧ t.get? s = some e ∧ u = (t.erase s).put l e := by
  simp only [replace, bind_eq_ok_iff] at h
  obtain ⟨q, hq, hr⟩ := h
  split at hr
  · cases hr
  split at hr
  · obtain ⟨_, -, hr⟩ := bind_eq_ok_iff.mp hr
    cases hr
  obtain ⟨p, hw, hr⟩ := bind_eq_ok_iff.mp hr
  split at hr
  · cases hr
  rename_i hslash
  have htargets (l : Location) (htarget : p.target? = some l) : t.Targets path l :=
    ⟨q, p, hq, Bool.eq_false_iff.mpr hslash, walk_eq_ok_iff.mp hw, htarget⟩
  cases p with
  | free l slash => exact ⟨l, (put_of_staged hr).imp fun e he => ⟨htargets l rfl, he⟩⟩
  | found l e =>
    cases e with
    | directory => cases hr
    | file bytes => exact ⟨l, (put_of_staged hr).imp fun e he => ⟨htargets l rfl, he⟩⟩
    | link target => exact ⟨l, (put_of_staged hr).imp fun e he => ⟨htargets l rfl, he⟩⟩

/-- The location of what a path leads to. -/
def reached? (t : FileTree) (path : String) : Option Location :=
  match t.locate true path with
  | .ok (.found l _) => some l
  | _ => none

theorem reached?_eq_some : t.reached? path = some l ↔ ∃ e, t.locate true path = .ok (.found l e) := by
  rw [reached?]
  split
  · simp [*]
  · rename_i hother
    exact ⟨nofun, fun ⟨e, he⟩ => (hother l e he).elim⟩

theorem kind_eq_file : t.kind path = some .file ↔
    ∃ l bytes, t.locate true path = .ok (.found l (.file bytes)) := by
  rw [kind]
  split
  · simp [*]
  · simp [*]
  · rename_i hother _
    exact ⟨nofun, fun ⟨l, bytes, hl⟩ => (hother l bytes hl).elim⟩

theorem kind_eq_directory : t.kind path = some .directory ↔
    ∃ base, t.locate true path = .ok (.found base .directory) := by
  rw [kind]
  split
  · simp [*]
  · simp [*]
  · rename_i hother
    constructor
    · intro h
      cases h
    · rintro ⟨base, h⟩
      exact (hother base h).elim

theorem read_eq_ok_iff : t.read path = .ok bytes ↔
    ∃ l, t.locate true path = .ok (.found l (.file bytes)) := by
  rw [read, bind_eq_ok_iff]
  constructor
  · rintro ⟨p, hp, hr⟩
    split at hr
    · cases hr
      exact ⟨_, hp⟩
    · cases hr
    · cases hr
    · cases hr
  · rintro ⟨l, hl⟩
    exact ⟨_, hl, rfl⟩

/-- The names on the way to an entry from a location above it, if it is a file. -/
def fileBehind? (base : Location) (x : Location × Entry) : Option (List String) :=
  match x.2 with
  | .file _ => behind? base x.1
  | _ => none

theorem filesBelow_eq_ok_iff {below : List (List String)} : t.filesBelow path = .ok below ↔
    ∃ base, t.locate true path = .ok (.found base .directory) ∧
      below = t.entries.filterMap (fileBehind? base) := by
  rw [filesBelow, bind_eq_ok_iff]
  constructor
  · rintro ⟨p, hp, h⟩
    split at h
    · cases h
      exact ⟨_, hp, rfl⟩
    · cases h
    · cases h
  · rintro ⟨base, hbase, rfl⟩
    exact ⟨_, hbase, rfl⟩

theorem get?_of_locate (h : t.locate follow path = .ok (.found l (.file bytes))) :
    t.get? l = some (.file bytes) := by
  obtain ⟨q, -, hw, hnames⟩ := locate_eq_ok h
  exact (hw.found_present hnames nofun).1

end FileTree

end RestRoutes
