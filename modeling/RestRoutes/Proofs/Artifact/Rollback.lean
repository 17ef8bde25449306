import RestRoutes.Proofs.Artifact.Staging

namespace RestRoutes.Artifact

open FileTree

variable {t u v w : FileTree} {l : Location} {done rest ps : List Pending} {p : Pending}

/-- Whether a staged artifact has its place at `l`. -/
def leadsTo (u : FileTree) (l : Location) (p : Pending) : Bool := u.place? p.path = some l

/-- After `done` have taken their places, the last one first, in the tree `u` where they were staged. -/
structure Taken (u : FileTree) (done : List Pending) (v : FileTree) : Prop where
  workDir : v.workDir = u.workDir
  placed : ∀ p ∈ done, (u.place? p.path).isSome
  get : ∀ l, v.get? l = match done.find? (leadsTo u l) with
    | some p => u.get? p.file
    | none => if l ∈ done.map (·.file) then none else u.get? l

theorem leadsTo_visible (h : leadsTo u l p = true) : u.get? l ≠ some .directory ∧ ¬ Hidden l :=
  place?_visible (of_decide_eq_true h)

theorem find?_leadsTo_hidden (h : Hidden l) : ps.find? (leadsTo u l) = none := by
  apply List.find?_eq_none.mpr
  intro p _ hp
  exact (leadsTo_visible hp).2 h

namespace Taken

theorem nil (u : FileTree) : Taken u [] u := ⟨rfl, by simp, by simp⟩

theorem directories (h : Taken u done v)
    (hheld : ∀ p ∈ done, ∃ bytes, u.get? p.file = some (.file bytes)) (l : Location) :
    v.get? l = some .directory ↔ u.get? l = some .directory := by
  rw [h.get]
  split
  · rename_i p hp
    obtain ⟨bytes, hbytes⟩ := hheld p (List.mem_of_find?_eq_some hp)
    have hvis := leadsTo_visible (List.find?_some hp)
    simp [hbytes, hvis.1]
  · split
    · rename_i hl
      obtain ⟨p, hp, rfl⟩ := List.mem_map.mp hl
      obtain ⟨bytes, hbytes⟩ := hheld p hp
      simp [hbytes]
    · rfl

theorem linkless (h : Taken u done v) (hlink : u.Linkless) : v.Linkless := by
  intro l target hget
  rw [h.get] at hget
  split at hget
  · rename_i p hp
    exact hlink _ target hget
  · split at hget
    · cases hget
    · exact hlink l target hget

theorem place? (h : Taken u done v)
    (hheld : ∀ p ∈ done, ∃ bytes, u.get? p.file = some (.file bytes)) (path : String) :
    v.place? path = u.place? path :=
  place?_congr h.workDir (h.directories hheld) path

/-- One more staged file is moved to its place. -/
theorem cons (h : Taken u done v) (hl : u.place? p.path = some l) (hhidden : Hidden p.file)
    (hnew : p.file ∉ done.map (·.file)) (he : v.get? p.file = some e) :
    Taken u (p :: done) ((v.erase p.file).put l e) := by
  have hvis := place?_visible hl
  have hne : l ≠ [] := by
    rintro rfl
    exact hvis.1 rfl
  have hold : u.get? p.file = some e := by
    simpa [h.get, find?_leadsTo_hidden hhidden, hnew] using he
  refine ⟨h.workDir, List.forall_mem_cons.mpr ⟨by simp [hl], h.placed⟩, fun k => ?_⟩
  rw [get?_put hne, get?_erase hhidden.ne_nil, h.get, List.find?_cons]
  by_cases hk : k = l
  · subst hk
    simp [leadsTo, hl, hold]
  · have hleads : leadsTo u k p = false := by simpa [leadsTo, hl] using Ne.symm hk
    simp only [hk, hleads, if_false, List.map_cons, List.mem_cons]
    by_cases hfile : k = p.file
    · subst hfile
      simp [find?_leadsTo_hidden hhidden]
    · simp [hfile]

end Taken

theorem run_restore (hlink : v.Linkless) (hl : v.place? p.path = some l)
    (h : (restore p : StateM FileTree _).run v = (r, w)) : w.workDir = v.workDir ∧
    ∀ k, w.get? k = if k = l then p.previous.map .file else v.get? k := by
  have hne : l ≠ [] := by
    rintro rfl
    exact (place?_visible hl).1 rfl
  simp only [restore] at h
  split at h
  · rename_i bytes hprev
    obtain ⟨a, x, hwrite, h⟩ := run_bind_eq_iff.mp h
    obtain ⟨-, rfl⟩ := run_pure_eq_iff.mp h
    rcases run_write hwrite with ⟨hwrite, -⟩ | ⟨e, hwrite, -⟩
    · rw [write_of_place? hlink hl] at hwrite
      cases hwrite
      refine ⟨rfl, fun k => ?_⟩
      rw [get?_put hne, hprev]
      rfl
    · rw [write_of_place? hlink hl] at hwrite
      cases hwrite
  · rename_i hprev
    obtain ⟨a, x, hremove, h⟩ := run_bind_eq_iff.mp h
    obtain ⟨-, rfl⟩ := run_pure_eq_iff.mp h
    simp only [hprev, Option.map_none]
    rcases run_remove hremove with ⟨hremove, -⟩ | ⟨e, hremove, -, rfl⟩
    · rw [remove_of_place? hlink hl] at hremove
      split at hremove
      · cases hremove
        exact ⟨rfl, fun k => get?_erase hne k⟩
      · cases hremove
    · rw [remove_of_place? hlink hl] at hremove
      split at hremove
      · cases hremove
      · rename_i hnone
        refine ⟨rfl, fun k => ?_⟩
        split
        · subst_vars
          exact hnone
        · rfl

theorem run_restoreAll {ps : List Pending} {v w : FileTree}
    (hplaced : ∀ p ∈ ps, (u.place? p.path).isSome) (hlink : v.Linkless)
    (hplace : ∀ path, v.place? path = u.place? path)
    (h : (restoreAll ps : StateM FileTree _).run v = (rs, w)) : w.workDir = v.workDir ∧
    ∀ l, w.get? l = match ps.reverse.find? (leadsTo u l) with
      | some p => p.previous.map .file
      | none => v.get? l := by
  induction ps generalizing v rs with
  | nil =>
    obtain ⟨-, rfl⟩ := run_pure_eq_iff.mp h
    simp
  | cons p ps ih =>
    obtain ⟨hp, hps⟩ := List.forall_mem_cons.mp hplaced
    obtain ⟨l, hl⟩ := Option.isSome_iff_exists.mp hp
    obtain ⟨a, x, hrestore, h⟩ := run_bind_eq_iff.mp h
    obtain ⟨b, y, hrest, h⟩ := run_bind_eq_iff.mp h
    obtain ⟨-, rfl⟩ := run_pure_eq_iff.mp h
    obtain ⟨hwork, hget⟩ := run_restore hlink ((hplace _).trans hl) hrestore
    have hdir : ∀ k, x.get? k = some .directory ↔ v.get? k = some .directory := by
      intro k
      rw [hget]
      split
      · subst_vars
        have hvis := (place?_visible ((hplace _).trans hl)).1
        simp [hvis]
      · rfl
    have hlink' : x.Linkless := by
      intro k target hk
      rw [hget] at hk
      split at hk
      · simp at hk
      · exact hlink k target hk
    have hplace' : ∀ path, x.place? path = u.place? path :=
      fun path => (place?_congr hwork hdir path).trans (hplace path)
    obtain ⟨hwork', hget'⟩ := ih hps hlink' hplace' hrest
    refine ⟨hwork'.trans hwork, fun k => ?_⟩
    rw [hget', List.reverse_cons, List.find?_append]
    cases hfind : ps.reverse.find? (leadsTo u k) with
    | some q => rfl
    | none =>
      rw [Option.none_or, List.find?_singleton, hget]
      by_cases hk : k = l
      · subst hk
        simp [leadsTo, hl]
      · have hleads : leadsTo u k p = false := by simpa [leadsTo, hl] using Ne.symm hk
        simp [hk, hleads]

/-- The places taken are given back and what is still staged is dropped: each place holds what its first
taker had found there, and no staged file is left. -/
theorem Taken.undone {rest : List Pending} {v w x : FileTree} (h : Taken u done v) (hlink : u.Linkless)
    (hheld : ∀ p ∈ done, ∃ bytes, u.get? p.file = some (.file bytes))
    (hrest : ∀ p ∈ rest, Hidden p.file)
    (hrestore : (restoreAll done : StateM FileTree _).run v = (rs, w))
    (hdiscard : (discardAll rest : StateM FileTree _).run w = ((), x)) (l : Location) :
    x.get? l = match done.reverse.find? (leadsTo u l) with
      | some p => p.previous.map .file
      | none => if l ∈ (done.reverse ++ rest).map (·.file) then none else u.get? l := by
  obtain ⟨-, hrestored⟩ :=
    run_restoreAll h.placed (h.linkless hlink) (h.place? hheld) hrestore
  obtain ⟨-, hdiscarded⟩ := run_discardAll (fun p hp => (hrest p hp).ne_nil) hdiscard
  rw [hdiscarded, hrestored]
  cases hfind : done.reverse.find? (leadsTo u l) with
  | some p =>
    have hvis := (leadsTo_visible (List.find?_some hfind)).2
    have hl : l ∉ rest.map (·.file) := by
      intro hmem
      obtain ⟨q, hq, rfl⟩ := List.mem_map.mp hmem
      exact hvis (hrest q hq)
    simp only [hl, if_false]
  | none =>
    have hfind' : done.find? (leadsTo u l) = none := by
      rw [List.find?_eq_none] at hfind ⊢
      exact fun q hq => hfind q (List.mem_reverse.mpr hq)
    simp only [h.get, hfind', List.map_append, List.map_reverse, List.mem_append, List.mem_reverse]
    grind

/-- The artifacts that take their places before one cannot. -/
def takers (u : FileTree) (ps : List Pending) : List Pending :=
  ps.takeWhile fun p => (u.place? p.path).isSome

theorem takers_append (hdone : ∀ p ∈ ps, (u.place? p.path).isSome) (hp : u.place? p.path = none) :
    takers u (ps ++ p :: rest) = ps := by
  rw [takers, List.takeWhile_append_of_pos hdone, List.takeWhile_cons]
  simp [hp]

/-- Either every place is taken, or those taken hold again what their first taker had found there. -/
theorem run_replaceAll {done rest : List Pending} {v w : FileTree} (hlink : t.Linkless)
    (htaken : Taken u done v) (hstaged : Staged t (done.reverse ++ rest) u)
    (h : (replaceAll done rest : StateM FileTree _).run v = (r, w)) :
    (r.result = .ok () ∧ Taken u (rest.reverse ++ done) w) ∨
    (r.result ≠ .ok () ∧ ∀ l, w.get? l =
      match (takers u (done.reverse ++ rest)).find? (leadsTo u l) with
      | some p => p.previous.map .file
      | none => if l ∈ (done.reverse ++ rest).map (·.file) then none else u.get? l) := by
  have hu := hstaged.linkless hlink
  have hheld : ∀ p ∈ done, ∃ bytes, u.get? p.file = some (.file bytes) :=
    fun p hp => hstaged.held p (by simp [hp])
  induction rest generalizing done v with
  | nil =>
    obtain ⟨rfl, rfl⟩ := run_pure_eq_iff.mp h
    exact .inl ⟨rfl, htaken⟩
  | cons p rest ih =>
    have hp : p ∈ done.reverse ++ p :: rest := by simp
    have hhidden := hstaged.hidden p hp
    have hnew : p.file ∉ done.map (·.file) := by
      have hdistinct := hstaged.distinct
      rw [List.map_append, List.map_cons, List.map_reverse] at hdistinct
      have hcross := (List.nodup_append.mp hdistinct).2.2
      intro hmem
      exact hcross _ (List.mem_reverse.mpr hmem) _ List.mem_cons_self rfl
    obtain ⟨bytes, hbytes⟩ := hstaged.held p hp
    have hget : v.get? p.file = some (.file bytes) := by
      rw [htaken.get, find?_leadsTo_hidden hhidden]
      simpa [hnew] using hbytes
    obtain ⟨a, x, hrun, hrest⟩ := run_bind_eq_iff.mp h
    rcases run_replace hrun with ⟨hreplace, rfl⟩ | ⟨e, hreplace, rfl, rfl⟩
    · obtain ⟨l, e, hl, he, rfl⟩ := (replace_eq_ok (htaken.linkless hu)).mp hreplace
      rw [htaken.place? hheld] at hl
      have hnext := htaken.cons hl hhidden hnew he
      have hstaged' : Staged t ((p :: done).reverse ++ rest) u := by simpa using hstaged
      have := ih hnext hstaged' hrest (List.forall_mem_cons.mpr ⟨⟨bytes, hbytes⟩, hheld⟩)
      simpa using this
    · obtain ⟨rs, y, hrestore, hrest⟩ := run_bind_eq_iff.mp hrest
      obtain ⟨⟨⟩, z, hdiscard, hrest⟩ := run_bind_eq_iff.mp hrest
      obtain ⟨rfl, rfl⟩ := run_pure_eq_iff.mp hrest
      have hnone : u.place? p.path = none := by
        by_contra hsome
        obtain ⟨l, hl⟩ := Option.ne_none_iff_exists'.mp hsome
        rw [← htaken.place? hheld] at hl
        have := (replace_eq_ok (htaken.linkless hu)).mpr ⟨l, _, hl, hget, rfl⟩
        rw [this] at hreplace
        cases hreplace
      have hplaced : ∀ q ∈ done.reverse, (u.place? q.path).isSome :=
        fun q hq => htaken.placed q (List.mem_reverse.mp hq)
      have hrest : ∀ q ∈ p :: rest, Hidden q.file :=
        fun q hq => hstaged.hidden q (List.mem_append_right _ hq)
      refine .inr ⟨by simp, fun l => ?_⟩
      rw [takers_append hplaced hnone]
      exact htaken.undone hu hheld hrest hrestore hdiscard l

/-- A file is overlooked when the first artifact to take its place had found nothing there: the path went
through a directory that only staging made. -/
def Overlooked (t : FileTree) (artifacts : List Artifact) (l : Location) : Prop :=
  t.get? l ≠ none ∧ ∃ staged u p, (stageAll [] artifacts : StateM FileTree _).run t = (.ok staged, u) ∧
    (takers u staged).find? (leadsTo u l) = some p ∧ p.previous = none

theorem overlooked_iff {artifacts : List Artifact}
    (h : (stageAll [] artifacts : StateM FileTree _).run t = (.ok ps, u)) :
    Overlooked t artifacts l ↔
      t.get? l ≠ none ∧ ∃ p, (takers u ps).find? (leadsTo u l) = some p ∧ p.previous = none := by
  constructor
  · rintro ⟨hget, ps', u', p, hrun, hp⟩
    rw [h] at hrun
    cases hrun
    exact ⟨hget, p, hp⟩
  · rintro ⟨hget, p, hp⟩
    exact ⟨hget, ps, u, p, h, hp⟩

/-- Nothing is overlooked when every destination can be located before anything is written. -/
theorem Overlooked.unlocated {artifacts : List Artifact} (hlink : t.Linkless)
    (h : Overlooked t artifacts l) : ∃ a ∈ artifacts, t.place? a.path = none := by
  obtain ⟨hget, staged, u, p, hrun, hfind, hprev⟩ := h
  rcases run_stageAll hlink (.nil t) hrun with ⟨_, ⟨⟩, hstaged, hpaths⟩ | ⟨e, ⟨⟩, -⟩
  have hp : p ∈ staged := (List.takeWhile_sublist _).subset (List.mem_of_find?_eq_some hfind)
  have hleads : leadsTo u l p = true := List.find?_some hfind
  have hmem : p.path ∈ staged.map (·.path) := List.mem_map.mpr ⟨p, hp, rfl⟩
  simp only [hpaths, List.reverse_nil, List.map_nil, List.nil_append] at hmem
  obtain ⟨a, ha, hpath⟩ := List.mem_map.mp hmem
  refine ⟨a, ha, ?_⟩
  by_contra hsome
  obtain ⟨k, hk⟩ := Option.ne_none_iff_exists'.mp hsome
  rw [hpath] at hk
  have hplace := place?_mono hstaged.workDir (fun _ => hstaged.get?_of_some) hk
  rw [of_decide_eq_true hleads] at hplace
  split at hplace
  · cases hplace
  · obtain rfl := Option.some.inj hplace
    exact hget (hstaged.unseen p hp hprev l hk)

/-- When writing fails, what was overlooked is lost and nothing else is: every other place is as it was,
or holds a new directory. -/
theorem writeAll_keeps_all_but_overlooked {t w : FileTree} {artifacts : List Artifact} {r : WriteReport}
    (hlink : t.Linkless) (h : (writeAll artifacts : StateM FileTree _).run t = (r, w))
    (hfail : r.result ≠ .ok ()) (l : Location) :
    (KeptAt t w l ↔ ¬ Overlooked t artifacts l) ∧ (Overlooked t artifacts l → w.get? l = none) := by
  obtain ⟨a, u, hstage, hrest⟩ := run_bind_eq_iff.mp h
  rcases run_stageAll hlink (.nil t) hstage with ⟨staged, rfl, hstaged, -⟩ | ⟨e, rfl, hgrown⟩
  · rcases run_replaceAll hlink (.nil u) hstaged hrest with ⟨hok, -⟩ | ⟨-, hget⟩
    · exact absurd hok hfail
    have hl := hget l
    rw [List.reverse_nil, List.nil_append] at hl
    rw [overlooked_iff hstage, KeptAt]
    cases hfind : (takers u staged).find? (leadsTo u l) with
    | some p =>
      simp only [hfind] at hl
      cases hprev : p.previous with
      | some bytes =>
        have hp : p ∈ staged := (List.takeWhile_sublist _).subset (List.mem_of_find?_eq_some hfind)
        have hleads : leadsTo u l p = true := List.find?_some hfind
        obtain ⟨k, hk, hold⟩ := hstaged.previous p hp bytes hprev
        obtain rfl : k = l := Option.some.inj (hk.symm.trans (of_decide_eq_true hleads))
        simp [hl, hprev, hold]
      | none => cases hold : t.get? l <;> simp [hl, hprev]
    | none =>
      simp only [hfind] at hl
      have hkept := hstaged.keptAt hl
      rw [KeptAt] at hkept
      simp [hkept]
  · obtain ⟨-, rfl⟩ := run_pure_eq_iff.mp hrest
    have hnone : ¬ Overlooked t artifacts l := by
      rintro ⟨-, staged, v, p, hok, -⟩
      rw [hok] at hstage
      cases hstage
    exact ⟨by simp [hnone, hgrown.kept l], fun h => absurd h hnone⟩

def shelf : FileTree := ⟨[(["b"], .file [111, 108, 100])], []⟩

def detour : List Artifact := [⟨"a/../b", "new"⟩, ⟨"q/", "x"⟩]

theorem linkless_shelf : shelf.Linkless := by
  intro l target
  simp only [shelf, get?, List.lookup_cons, List.lookup_nil]
  grind

/-- The first artifact is staged in a directory of its own. -/
def shelved : FileTree :=
  ⟨[(["//"], .file [110, 101, 119]), (["a"], .directory), (["b"], .file [111, 108, 100])], []⟩

theorem run_stageOne_detour : ((⟨"a/../b", "new"⟩ : Artifact).stageOne : StateM FileTree _).run shelf =
    (.ok ["//"], shelved) := by
  let made : FileTree := ⟨[(["a"], .directory), (["b"], .file [111, 108, 100])], []⟩
  have hpath : Path.Parts.toString ⟨false, ["a", ".."]⟩ = "a/.." := by cbv
  have hparts : Path.directoryOf "a/../b" = ⟨false, ["a", ".."]⟩ := by decide
  have hmade : (makeDirectories false ["a", ".."] : StateM FileTree _).run shelf = (.ok (), made) := by
    rw [makeDirectories]
    simp only [hpath]
    refine run_bind_eq_iff.mpr ⟨.error .notFound, shelf, by cbv, ?_⟩
    refine run_bind_eq_iff.mpr ⟨.ok (), made, by cbv, ?_⟩
    refine run_bind_eq_iff.mpr ⟨.error .alreadyExists, made, by cbv, ?_⟩
    refine run_bind_eq_iff.mpr ⟨some .directory, made, by cbv, rfl⟩
  simp only [stageOne, hparts]
  refine run_bind_eq_iff.mpr ⟨.ok (), made, hmade, ?_⟩
  simp only [hpath]
  cbv

theorem run_stageAll_detour : (stageAll [] detour : StateM FileTree _).run shelf =
    (.ok [⟨"a/../b", ["//"], none⟩, ⟨"q/", ["///"], none⟩],
      ⟨(["///"], .file [120]) :: shelved.entries, []⟩) := by
  refine run_bind_eq_iff.mpr ⟨.ok none, shelf, by cbv, ?_⟩
  refine run_bind_eq_iff.mpr ⟨.ok ["//"], shelved, run_stageOne_detour, ?_⟩
  refine run_bind_eq_iff.mpr ⟨.ok none, shelved, by cbv, ?_⟩
  refine run_bind_eq_iff.mpr ⟨.ok ["///"], _, by cbv, rfl⟩

theorem run_writeAll_detour : (writeAll detour : StateM FileTree _).run shelf =
    (⟨.error (.replacing "q/" .notDirectory), [⟨"a/../b", .ok ()⟩]⟩, ⟨[(["a"], .directory)], []⟩) :=
  run_bind_eq_iff.mpr ⟨_, _, run_stageAll_detour, by cbv⟩

theorem writeAll_detour_keeps_all_but_overlooked : ∃ r w,
    shelf.Linkless ∧ (writeAll detour : StateM FileTree _).run shelf = (r, w) ∧ r.result ≠ .ok () ∧
    (KeptAt shelf w ["b"] ↔ ¬ Overlooked shelf detour ["b"]) ∧
    (Overlooked shelf detour ["b"] → w.get? ["b"] = none) :=
  ⟨_, _, linkless_shelf, run_writeAll_detour, by simp,
    writeAll_keeps_all_but_overlooked linkless_shelf run_writeAll_detour (by simp) ["b"]⟩

/-- Not every place is kept: the file `b` is removed when `a/../b` is given back. -/
theorem writeAll_loses_file_behind_detour : ¬ ∀ (t w : FileTree) (artifacts : List Artifact)
    (r : WriteReport), t.Linkless → (writeAll artifacts : StateM FileTree _).run t = (r, w) →
    r.result ≠ .ok () → ∀ l, KeptAt t w l := by
  intro h
  have hkept := h _ _ _ _ linkless_shelf run_writeAll_detour (by simp) ["b"]
  simp [KeptAt, shelf, get?, List.lookup] at hkept

end RestRoutes.Artifact
