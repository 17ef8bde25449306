import Mathlib
import RestRoutes.Artifact
import RestRoutes.Proofs.Files.Run
import RestRoutes.Proofs.Files.Walk

namespace RestRoutes

namespace FileTree

/-- What staging leaves when it fails: the tree with more directories. -/
structure Grown (t u : FileTree) : Prop where
  workDir : u.workDir = t.workDir
  kept : ∀ l, KeptAt t u l

theorem Grown.refl (t : FileTree) : Grown t t := ⟨rfl, fun _ => .inl rfl⟩

theorem Grown.trans {t u v : FileTree} (h : Grown t u) (h' : Grown u v) : Grown t v where
  workDir := h'.workDir.trans h.workDir
  kept l := (h.kept l).trans (h'.kept l)

/-- A file that is found is found in the larger tree too. -/
theorem Grown.place? {t u : FileTree} (h : Grown t u) (hl : t.place? path = some l)
    (hget : t.get? l = some (.file bytes)) : u.place? path = some l := by
  have hkept := (h.kept l).get?_of_some hget
  rw [place?_mono h.workDir (fun k => (h.kept k).get?_of_some) hl, if_neg (by simp [hkept])]

theorem Grown.makeDirectory {t u : FileTree} (h : t.makeDirectory path = .ok u) : Grown t u := by
  obtain ⟨l, hget, hvis, rfl⟩ := makeDirectory_eq_ok h
  refine ⟨rfl, fun k => ?_⟩
  have hne : l ≠ [] := by
    rintro rfl
    simp [get?] at hget
  rw [KeptAt, get?_put hne]
  grind

end FileTree

namespace Artifact

open FileTree

variable {t u v : FileTree} {path : String} {bytes : List UInt8} {ps : List Pending}

theorem run_settle (h : (makeDirectories.settle path e : StateM FileTree _).run t = (r, u)) : u = t := by
  obtain ⟨a, v, hkind, h⟩ := run_bind_eq_iff.mp h
  obtain ⟨-, rfl⟩ := run_pure_eq_iff.mp h
  rw [run_kind] at hkind
  cases hkind
  rfl

/-- What holds after each directory that is made holds after all of them. -/
theorem makeDirectories_induction {R : FileTree → FileTree → Prop} (refl : ∀ t, R t t)
    (trans : ∀ {t u v}, R t u → R u v → R t v)
    (make : ∀ {t u path}, t.makeDirectory path = .ok u → R t u) {t u : FileTree}
    (h : (makeDirectories absolute names : StateM FileTree _).run t = (r, u)) : R t u := by
  have run_make {t u : FileTree} {path : String} {r : Except FileError Unit}
      (h : (FileSystem.makeDirectory path : StateM FileTree _).run t = (r, u)) : R t u := by
    rcases run_makeDirectory h with ⟨hmake, -⟩ | ⟨e, -, -, rfl⟩
    · exact make hmake
    · exact refl u
  rw [makeDirectories] at h
  split at h
  · obtain ⟨-, rfl⟩ := run_pure_eq_iff.mp h
    exact refl t
  rename_i hne
  have hlt : names.dropLast.length < names.length := by
    have hpos := List.length_pos_iff.mpr fun he => hne (List.isEmpty_iff.mpr he)
    rw [List.length_dropLast]
    omega
  obtain ⟨a, v, hmake, h⟩ := run_bind_eq_iff.mp h
  have hv := run_make hmake
  split at h
  · obtain ⟨-, rfl⟩ := run_pure_eq_iff.mp h
    exact hv
  · obtain ⟨a, w, habove, h⟩ := run_bind_eq_iff.mp h
    have hw := trans hv (makeDirectories_induction refl trans make habove)
    split at h
    · obtain ⟨-, rfl⟩ := run_pure_eq_iff.mp h
      exact hw
    · obtain ⟨a, x, hmake, h⟩ := run_bind_eq_iff.mp h
      have hx := trans hw (run_make hmake)
      split at h
      · obtain ⟨-, rfl⟩ := run_pure_eq_iff.mp h
        exact hx
      · obtain rfl := run_settle h
        exact hx
  · obtain rfl := run_settle h
    exact hv
termination_by names.length

theorem makeDirectories_grown {t u : FileTree}
    (h : (makeDirectories absolute names : StateM FileTree _).run t = (r, u)) : Grown t u :=
  makeDirectories_induction Grown.refl Grown.trans Grown.makeDirectory h

/-- Staged so far, from the tree `t` on: more directories, and a new file for each that is staged. -/
structure Staged (t : FileTree) (ps : List Pending) (u : FileTree) : Prop where
  workDir : u.workDir = t.workDir
  kept : ∀ l, l ∉ ps.map (·.file) → KeptAt t u l
  fresh : ∀ p ∈ ps, t.get? p.file = none
  hidden : ∀ p ∈ ps, Hidden p.file
  held : ∀ p ∈ ps, ∃ bytes, u.get? p.file = some (.file bytes)
  distinct : (ps.map (·.file)).Nodup
  previous : ∀ p ∈ ps, ∀ bytes, p.previous = some bytes →
    ∃ l, u.place? p.path = some l ∧ t.get? l = some (.file bytes)
  unseen : ∀ p ∈ ps, p.previous = none → ∀ l, t.place? p.path = some l → t.get? l = none

namespace Staged

theorem nil (t : FileTree) : Staged t [] t :=
  ⟨rfl, fun _ _ => .inl rfl, by simp, by simp, by simp, by simp, by simp, by simp⟩

theorem linkless (h : Staged t ps u) (hlink : t.Linkless) : u.Linkless := by
  intro l target hget
  by_cases hl : l ∈ ps.map (·.file)
  · obtain ⟨p, hp, rfl⟩ := List.mem_map.mp hl
    obtain ⟨bytes, hheld⟩ := h.held p hp
    simp [hheld] at hget
  · exact hlink l target ((h.kept l hl).link hget)

/-- Staged files stand where nothing was, so what was anywhere is there still. -/
theorem get?_of_some (h : Staged t ps u) (hget : t.get? l = some e) : u.get? l = some e := by
  refine (h.kept l fun hmem => ?_).get?_of_some hget
  obtain ⟨p, hp, rfl⟩ := List.mem_map.mp hmem
  simp [h.fresh p hp] at hget

/-- A place that a path leads to is not that of a staged file, so it is as it was. -/
theorem get?_place (h : Staged t ps u) (hl : u.place? path = some l) : u.get? l = t.get? l := by
  have hvis := place?_visible hl
  have hmem : l ∉ ps.map (·.file) := by
    intro hmem
    obtain ⟨p, hp, rfl⟩ := List.mem_map.mp hmem
    exact hvis.2 (h.hidden p hp)
  rcases h.kept l hmem with hl | ⟨-, hdir⟩
  · exact hl
  · exact absurd hdir hvis.1

/-- A file that stood there before staging is still there to be read. -/
theorem read (h : Staged t ps u) (hlink : t.Linkless) (hl : t.place? path = some l)
    (hget : t.get? l = some (.file bytes)) : u.read path = .ok bytes := by
  have hkept := h.get?_of_some hget
  have hplace := place?_mono h.workDir (fun _ => h.get?_of_some) hl
  rw [if_neg (by simp [hkept])] at hplace
  rw [read_of_place? (h.linkless hlink) hplace, hkept]

theorem grown (h : Staged t ps u) (hg : Grown u v) : Staged t ps v where
  workDir := hg.workDir.trans h.workDir
  kept l hl := (h.kept l hl).trans (hg.kept l)
  fresh := h.fresh
  hidden := h.hidden
  held p hp := by
    obtain ⟨bytes, hheld⟩ := h.held p hp
    exact ⟨bytes, (hg.kept p.file).get?_of_some hheld⟩
  distinct := h.distinct
  previous p hp bytes hprev := by
    obtain ⟨l, hl, hget⟩ := h.previous p hp bytes hprev
    exact ⟨l, hg.place? hl ((h.get?_place hl).trans hget), hget⟩
  unseen := h.unseen

theorem reverse (h : Staged t ps u) : Staged t ps.reverse u where
  workDir := h.workDir
  kept l hl := h.kept l (by simpa using hl)
  fresh p hp := h.fresh p (List.mem_reverse.mp hp)
  hidden p hp := h.hidden p (List.mem_reverse.mp hp)
  held p hp := h.held p (List.mem_reverse.mp hp)
  distinct := by
    rw [List.map_reverse]
    exact List.pairwise_reverse.mpr (h.distinct.imp Ne.symm)
  previous p hp := h.previous p (List.mem_reverse.mp hp)
  unseen p hp := h.unseen p (List.mem_reverse.mp hp)

/-- One more artifact is staged. -/
theorem cons (h : Staged t ps u) {p : Pending} {base : Location}
    (hfile : p.file = base ++ [u.freshName])
    (hprev : ∀ old, p.previous = some old → ∃ l, u.place? p.path = some l ∧ t.get? l = some (.file old))
    (hunseen : p.previous = none → ∀ l, t.place? p.path = some l → t.get? l = none) :
    Staged t (p :: ps) (u.put p.file (.file bytes)) := by
  have hfresh : u.get? p.file = none := hfile ▸ get?_freshName u base
  have hhidden : Hidden p.file := hfile ▸ hidden_freshName u base
  have hget := get?_put (t := u) hhidden.ne_nil (.file bytes)
  have hnew : p.file ∉ ps.map (·.file) := by
    intro hmem
    obtain ⟨q, hq, he⟩ := List.mem_map.mp hmem
    obtain ⟨b, hheld⟩ := h.held q hq
    simp [he, hfresh] at hheld
  have hplace : ∀ path, (u.put p.file (.file bytes)).place? path = u.place? path := by
    intro path
    apply place?_congr (workDir_put u p.file _)
    intro l
    rw [hget]
    split
    · simp_all
    · rfl
  refine ⟨h.workDir, ?_, ?_, ?_, ?_, ?_, ?_, List.forall_mem_cons.mpr ⟨hunseen, h.unseen⟩⟩
  · intro l hl
    rw [List.map_cons, List.mem_cons, not_or] at hl
    have hkept := h.kept l hl.2
    simpa only [KeptAt, hget, hl.1, if_false] using hkept
  · rw [List.forall_mem_cons]
    refine ⟨?_, h.fresh⟩
    rcases h.kept p.file hnew with hkept | ⟨hkept, -⟩
    · exact hkept.symm.trans hfresh
    · exact hkept
  · exact List.forall_mem_cons.mpr ⟨hhidden, h.hidden⟩
  · rw [List.forall_mem_cons]
    refine ⟨⟨bytes, by simp [hget]⟩, fun q hq => ?_⟩
    obtain ⟨b, hheld⟩ := h.held q hq
    have hne : q.file ≠ p.file := fun he => hnew (List.mem_map.mpr ⟨q, hq, he⟩)
    exact ⟨b, by simp [hget, hne, hheld]⟩
  · exact List.nodup_cons.mpr ⟨hnew, h.distinct⟩
  · simp only [hplace]
    exact List.forall_mem_cons.mpr ⟨hprev, h.previous⟩

end Staged

theorem run_discardAll {ps : List Pending} {t u : FileTree} (hne : ∀ p ∈ ps, p.file ≠ [])
    (h : (discardAll ps : StateM FileTree _).run t = ((), u)) : u.workDir = t.workDir ∧
    ∀ l, u.get? l = if l ∈ ps.map (·.file) then none else t.get? l := by
  induction ps generalizing t with
  | nil =>
    obtain ⟨-, rfl⟩ := run_pure_eq_iff.mp h
    simp
  | cons p ps ih =>
    obtain ⟨hp, hps⟩ := List.forall_mem_cons.mp hne
    obtain ⟨a, v, hdiscard, h⟩ := run_bind_eq_iff.mp h
    rw [run_discard] at hdiscard
    cases hdiscard
    obtain ⟨hwork, hget⟩ := ih hps h
    refine ⟨hwork, fun l => ?_⟩
    rw [hget, get?_erase hp]
    simp only [List.map_cons, List.mem_cons]
    grind

/-- Without the staged files a place is as it was before staging, or a directory. -/
theorem Staged.keptAt (h : Staged t ps u) (hget : v.get? l = if l ∈ ps.map (·.file) then none else u.get? l) :
    KeptAt t v l := by
  rw [KeptAt, hget]
  split
  · rename_i hl
    obtain ⟨p, hp, rfl⟩ := List.mem_map.mp hl
    exact .inl (h.fresh p hp).symm
  · rename_i hl
    exact h.kept l hl

theorem Staged.discardAll (h : Staged t ps u)
    (hd : (discardAll ps : StateM FileTree _).run u = ((), v)) : Grown t v := by
  obtain ⟨hwork, hget⟩ := run_discardAll (fun p hp => (h.hidden p hp).ne_nil) hd
  exact ⟨hwork.trans h.workDir, fun l => h.keptAt (hget l)⟩

theorem run_snapshot (h : (snapshot path : StateM FileTree _).run t = (r, u)) : u = t ∧
    (∀ bytes, r = .ok (some bytes) → t.read path = .ok bytes) ∧
    (r = .ok none → t.read path = .error .notFound) := by
  obtain ⟨a, v, hread, h⟩ := run_bind_eq_iff.mp h
  rw [run_read] at hread
  cases hread
  split at h
  · rename_i bytes hread
    obtain ⟨rfl, rfl⟩ := run_pure_eq_iff.mp h
    exact ⟨rfl, by simp [hread], by simp⟩
  · rename_i hread
    obtain ⟨rfl, rfl⟩ := run_pure_eq_iff.mp h
    exact ⟨rfl, by simp, fun _ => hread⟩
  · obtain ⟨rfl, rfl⟩ := run_pure_eq_iff.mp h
    exact ⟨rfl, by simp, by simp⟩

/-- An artifact is staged in a tree that has grown by the directories above it. -/
theorem run_stageOne {a : Artifact} (h : (a.stageOne : StateM FileTree _).run t = (r, u)) :
    ∃ v, Grown t v ∧ (∀ skipped, v.filesBut skipped = t.filesBut skipped) ∧
    ((∃ e, r = .error e ∧ u = v) ∨
      ∃ base, r = .ok (base ++ [v.freshName]) ∧ u = v.put (base ++ [v.freshName]) (.file a.bytes)) := by
  obtain ⟨b, v, hmake, h⟩ := run_bind_eq_iff.mp h
  refine ⟨v, makeDirectories_grown hmake, fun skipped => ?_, ?_⟩
  · exact makeDirectories_induction (R := fun t u => u.filesBut skipped = t.filesBut skipped)
      (fun _ => rfl) (fun h h' => h'.trans h) (filesBut_makeDirectory skipped) hmake
  split at h
  · obtain ⟨rfl, rfl⟩ := run_pure_eq_iff.mp h
    exact .inl ⟨_, rfl, rfl⟩
  · rcases run_stage h with ⟨s, hs, rfl⟩ | ⟨e, -, rfl, rfl⟩
    · obtain ⟨base, rfl, rfl⟩ := stage_eq_ok hs
      exact .inr ⟨base, rfl, rfl⟩
    · exact .inl ⟨e, rfl, rfl⟩

theorem run_snapshot_absent (h : t.read path = .error .notFound) :
    (snapshot path : StateM FileTree _).run t = (.ok none, t) :=
  run_bind_eq_iff.mpr ⟨.error .notFound, t, congrArg (·, t) h, rfl⟩

/-- A file can always be staged in the working directory. -/
theorem run_stageOne_here {a : Artifact} (h : Path.directoryOf a.path = ⟨false, ["."]⟩) (t : FileTree) :
    (a.stageOne : StateM FileTree _).run t =
      (.ok (t.workDir ++ [t.freshName]), t.put (t.workDir ++ [t.freshName]) (.file a.bytes)) := by
  have hpath : Path.Parts.toString ⟨false, ["."]⟩ = "." := by decide
  have hmade : (makeDirectories false ["."] : StateM FileTree _).run t = (.ok (), t) := by
    rw [makeDirectories]
    simp only [hpath]
    refine run_bind_eq_iff.mpr ⟨.error .alreadyExists, t, by cbv, ?_⟩
    exact run_bind_eq_iff.mpr ⟨some .directory, t, by cbv, rfl⟩
  simp only [stageOne, h, hpath]
  refine run_bind_eq_iff.mpr ⟨.ok (), t, hmade, ?_⟩
  generalize a.bytes = bytes
  cbv

/-- Staging either stages everything or leaves nothing staged. -/
theorem run_stageAll {done : List Pending} {t u v : FileTree} (hlink : t.Linkless)
    (hdone : Staged t done u)
    (h : (stageAll done artifacts : StateM FileTree _).run u = (r, v)) :
    (∃ ps, r = .ok ps ∧ Staged t ps v ∧
      ps.map (·.path) = done.reverse.map (·.path) ++ artifacts.map (·.path)) ∨
    ∃ e, r = .error e ∧ Grown t v := by
  induction artifacts generalizing done u with
  | nil =>
    obtain ⟨rfl, rfl⟩ := run_pure_eq_iff.mp h
    exact .inl ⟨_, rfl, hdone.reverse, by simp⟩
  | cons a artifacts ih =>
    obtain ⟨found, u', hsnapshot, hrest⟩ := run_bind_eq_iff.mp h
    obtain ⟨rfl, hfound, habsent⟩ := run_snapshot hsnapshot
    split at hrest
    · obtain ⟨⟨⟩, w, hdiscard, hrest⟩ := run_bind_eq_iff.mp hrest
      obtain ⟨rfl, rfl⟩ := run_pure_eq_iff.mp hrest
      exact .inr ⟨_, rfl, hdone.discardAll hdiscard⟩
    · rename_i previous
      obtain ⟨staged, w, hstage, hrest⟩ := run_bind_eq_iff.mp hrest
      obtain ⟨w', hgrown, -, hstaged⟩ := run_stageOne hstage
      have hdone' := hdone.grown hgrown
      rcases hstaged with ⟨e, rfl, rfl⟩ | ⟨base, rfl, rfl⟩
      · obtain ⟨⟨⟩, x, hdiscard, hrest⟩ := run_bind_eq_iff.mp hrest
        obtain ⟨rfl, rfl⟩ := run_pure_eq_iff.mp hrest
        exact .inr ⟨_, rfl, hdone'.discardAll hdiscard⟩
      · have hnext : Staged t (⟨a.path, base ++ [w'.freshName], previous⟩ :: done)
            (w'.put (base ++ [w'.freshName]) (.file a.bytes)) := by
          apply hdone'.cons rfl
          · rintro old rfl
            obtain ⟨l, hl, hget⟩ := read_eq_ok (hdone.linkless hlink) (hfound old rfl)
            exact ⟨l, hgrown.place? hl hget, (hdone.get?_place hl).symm.trans hget⟩
          · rintro rfl l hl
            rcases place?_cases hlink hl with ⟨bytes, hget⟩ | hget
            · rw [hdone.read hlink hl hget] at habsent
              cases habsent rfl
            · exact hget
        simpa using ih hnext hrest

end Artifact

end RestRoutes
