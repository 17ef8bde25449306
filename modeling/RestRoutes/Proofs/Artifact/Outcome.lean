import Mathlib.Data.List.Forall2
import Mathlib.Data.List.Nodup
import RestRoutes.Proofs.Artifact.Placement
import RestRoutes.Proofs.Artifact.Rollback
import RestRoutes.Proofs.Artifact.Stale

namespace RestRoutes.Artifact

open FileTree

variable {t u v : FileTree} {as : List Artifact} {ps : List Pending} {p : Pending} {l : Location}

/-- The last artifact for a location. -/
def lastAt? (as : List Artifact) (u : FileTree) (l : Location) : Option Artifact :=
  as.reverse.find? fun b => u.reached? b.path = some l

/-- Every artifact has its destination, and what stands anywhere is of the last artifact for that place, or
has nothing to do with them. -/
structure Filed (t : FileTree) (as : List Artifact) (u : FileTree) : Prop where
  file : ∀ a ∈ as, u.kind a.path = some .file
  held : ∀ l b, lastAt? as u l = some b → u.get? l = some (.file b.bytes)
  kept : ∀ l, lastAt? as u l = none → KeptAt t u l

/-- A place that was taken is where its path leads from then on: some file stands there. -/
theorem Taken.locate (h : Taken v ps u) (hlink : v.Linkless)
    (hheld : ∀ p ∈ ps, ∃ bytes, v.get? p.file = some (.file bytes)) (hp : p ∈ ps)
    (hl : v.place? p.path = some l) : ∃ bytes, u.locate true p.path = .ok (.found l (.file bytes)) := by
  have hfind : (ps.find? (leadsTo v l)).isSome := List.find?_isSome.mpr ⟨p, hp, decide_eq_true hl⟩
  obtain ⟨q, hq⟩ := Option.isSome_iff_exists.mp hfind
  obtain ⟨bytes, hbytes⟩ := hheld q (List.mem_of_find?_eq_some hq)
  have hlocate := locate_of_place? (h.linkless hlink) ((h.place? hheld p.path).trans hl) true
  rw [standing, h.get, hq] at hlocate
  simp only [hbytes] at hlocate
  exact ⟨bytes, hlocate⟩

section
variable (h : Taken v ps.reverse u) (hcopied : Copied t as ps v) (hstaged : Staged t ps v) (hlink : t.Linkless)
include h hcopied hstaged hlink

theorem Taken.exists_place : ∀ a ∈ as, ∃ l bytes, v.place? a.path = some l ∧
    u.locate true a.path = .ok (.found l (.file bytes)) := by
  intro a ha
  obtain ⟨p, hp, hpath, -⟩ := exists_related hcopied.copies ha
  rw [← List.mem_reverse] at hp
  obtain ⟨l, hl⟩ := Option.isSome_iff_exists.mp (h.placed p hp)
  have hheld : ∀ p ∈ ps.reverse, ∃ bytes, v.get? p.file = some (.file bytes) :=
    fun p hp => hstaged.held p (List.mem_reverse.mp hp)
  obtain ⟨bytes, hlocate⟩ := h.locate (hstaged.linkless hlink) hheld hp hl
  exact hpath ▸ ⟨l, bytes, hl, hlocate⟩

/-- The artifacts and their copies are searched for one location in step. -/
theorem Taken.lastAt?_related (l : Location) :
    Option.Rel (IsCopy v) (lastAt? as u l) (ps.reverse.find? (leadsTo v l)) := by
  refine find?_related (List.forall₂_reverse_iff.mpr ?_)
  have hplaced := (List.forall₂_and_left as ps).mpr
    ⟨h.exists_place hcopied hstaged hlink, hcopied.copies⟩
  refine hplaced.imp fun a p hp => ?_
  obtain ⟨⟨k, bytes, hk, hlocate⟩, hcopy⟩ := hp
  exact ⟨by simp only [leadsTo, hcopy.1, hk, reached?_eq_some.mpr ⟨_, hlocate⟩], hcopy⟩

theorem Taken.filed : Filed t as u := by
  have hrelated := h.lastAt?_related hcopied hstaged hlink
  refine ⟨fun a ha => ?_, fun l b hb => ?_, fun l hnone => ?_⟩
  · obtain ⟨l, bytes, -, hlocate⟩ := h.exists_place hcopied hstaged hlink a ha
    exact kind_eq_file.mpr ⟨l, bytes, hlocate⟩
  · cases hfind : ps.reverse.find? (leadsTo v l) with
    | none =>
      rw [(related_eq_none_iff (hrelated l)).mpr hfind] at hb
      cases hb
    | some p =>
      obtain ⟨b', hb', hcopy⟩ := exists_related_some (hfind ▸ hrelated l)
      obtain rfl := Option.some.inj (hb.symm.trans hb')
      rw [h.get, hfind]
      exact hcopy.2
  · have hget := h.get l
    rw [(related_eq_none_iff (hrelated l)).mp hnone] at hget
    simp only [List.map_reverse, List.mem_reverse] at hget
    exact hstaged.keptAt hget

end

theorem run_writeAll_filed {r : WriteReport} (hlink : t.Linkless)
    (h : (writeAll as : StateM FileTree _).run t = (r, u)) (hok : r.result = .ok ()) : Filed t as u := by
  obtain ⟨staged, v, hstage, hrest⟩ := run_bind_eq_iff.mp h
  split at hrest
  · obtain ⟨rfl, -⟩ := run_pure_eq_iff.mp hrest
    cases hok
  rename_i ps
  obtain ⟨ps', hps, hcopied⟩ := run_stageAll_copied hstage
  obtain rfl : ps = ps' := hps
  obtain ⟨_, ⟨⟩, hstaged, -⟩ | ⟨_, ⟨⟩, -⟩ := run_stageAll hlink (.nil t) hstage
  obtain ⟨-, htaken⟩ | ⟨hfail, -⟩ := run_replaceAll hlink (.nil v) hstaged hrest
  · rw [List.append_nil] at htaken
    exact htaken.filed hcopied hstaged hlink
  · exact absurd hok hfail

/-- The last artifact that leads where an artifact does. -/
def last? (as : List Artifact) (u : FileTree) (a : Artifact) : Option Artifact :=
  (u.reached? a.path).bind (lastAt? as u)

/-- What a tree `t` has become when everything is written. Each destination holds what the last artifact for
it has. Every other place is as it was, or a directory where nothing stood, so that no other file has changed,
come or gone. The artifacts whose files are stale are those that are not like the last one for their place. -/
structure Delivered (t : FileTree) (as : List Artifact) (u : FileTree) : Prop where
  holds : ∀ a ∈ as, ∃ b, last? as u a = some b ∧
    (FileSystem.readText a.path : StateM FileTree _).run u = (.ok b.contents, u)
  kept : ∀ l, (∀ a ∈ as, u.reached? a.path ≠ some l) → KeptAt t u l
  clean : ∀ l bytes, u.get? l = some (.file bytes) →
    t.get? l = some (.file bytes) ∨ ∃ a ∈ as, u.reached? a.path = some l
  replaced : (stale as : StateM FileTree _).run u =
    (.ok ((as.filter fun a => (last? as u a).map (·.contents) ≠ some a.contents).map (·.path)), u)
  distinct : (as.map (u.reached? ·.path)).Nodup → (stale as : StateM FileTree _).run u = (.ok [], u)

/-- The check of artifacts that can all be read. -/
theorem run_stale_of_reads {f : Artifact → Bool} (h : ∀ a ∈ as, ∃ s,
      (FileSystem.readText a.path : StateM FileTree _).run u = (.ok s, u) ∧ (f a ↔ s ≠ a.contents)) :
    (stale as : StateM FileTree _).run u = (.ok ((as.filter f).map (·.path)), u) := by
  have hfilter : as.filter (drifted u) = as.filter f := by
    refine List.filter_congr fun a ha => ?_
    obtain ⟨s, hread, hf⟩ := h a ha
    exact Bool.eq_iff_iff.mpr ((drifted_of_readText hread).2.trans hf.symm)
  rw [← hfilter]
  refine run_stale_of_comparable fun a ha => ?_
  obtain ⟨s, hread, -⟩ := h a ha
  exact (drifted_of_readText hread).1

theorem Filed.exists_last (h : Filed t as u) {a : Artifact} (ha : a ∈ as) :
    ∃ b, last? as u a = some b ∧ b ∈ as ∧ u.reached? b.path = u.reached? a.path ∧
      (FileSystem.readText a.path : StateM FileTree _).run u = (.ok b.contents, u) := by
  obtain ⟨l, bytes, hlocate⟩ := kind_eq_file.mp (h.file a ha)
  have hl : u.reached? a.path = some l := reached?_eq_some.mpr ⟨_, hlocate⟩
  have hsome : (lastAt? as u l).isSome :=
    List.find?_isSome.mpr ⟨a, List.mem_reverse.mpr ha, decide_eq_true hl⟩
  obtain ⟨b, hb⟩ := Option.isSome_iff_exists.mp hsome
  have hreached : u.reached? b.path = some l := by simpa using List.find?_some hb
  have hbytes := (get?_of_locate hlocate).symm.trans (h.held l b hb)
  rw [Option.some.injEq, Entry.file.injEq] at hbytes
  refine ⟨b, by rw [last?, hl]; exact hb, List.mem_reverse.mp (List.mem_of_find?_eq_some hb),
    hreached.trans hl.symm, run_readText_eq_ok_iff.mpr ⟨rfl, b.bytes, ?_, Text.Utf8.decode?_encode _⟩⟩
  exact read_eq_ok_iff.mpr ⟨l, hbytes ▸ hlocate⟩

theorem Filed.keptAt (h : Filed t as u) (hl : ∀ a ∈ as, u.reached? a.path ≠ some l) : KeptAt t u l :=
  h.kept l (List.find?_eq_none.mpr fun b hb => by simpa using hl b (List.mem_reverse.mp hb))

theorem Filed.delivered (h : Filed t as u) : Delivered t as u := by
  have hstale : (stale as : StateM FileTree _).run u =
      (.ok ((as.filter fun a => (last? as u a).map (·.contents) ≠ some a.contents).map (·.path)), u) := by
    refine run_stale_of_reads fun a ha => ?_
    obtain ⟨b, hb, -, -, hread⟩ := h.exists_last ha
    exact ⟨b.contents, hread, by simp [hb]⟩
  refine ⟨fun a ha => ?_, fun l => h.keptAt, fun l bytes hget => ?_, hstale, fun hdistinct => ?_⟩
  · obtain ⟨b, hb, -, -, hread⟩ := h.exists_last ha
    exact ⟨b, hb, hread⟩
  · by_contra hother
    rw [not_or, not_exists] at hother
    rcases h.keptAt (l := l) (fun a ha hl => hother.2 a ⟨ha, hl⟩) with hsame | ⟨-, hdir⟩
    · exact hother.1 (hsame.symm.trans hget)
    · rw [hdir] at hget
      cases hget
  · rw [hstale, List.filter_eq_nil_iff.mpr, List.map_nil]
    intro a ha
    obtain ⟨b, hb, hmem, hreached, -⟩ := h.exists_last ha
    obtain rfl : b = a := List.inj_on_of_nodup_map hdistinct hmem ha hreached
    simp [hb]

theorem writeAll_delivers {r : WriteReport} (hlink : t.Linkless)
    (h : (writeAll as : StateM FileTree _).run t = (r, u)) (hok : r.result = .ok ()) : Delivered t as u :=
  (run_writeAll_filed hlink h hok).delivered

/-- Two spellings of one file, the first of which leads to it only when a directory has been made. -/
def respelled : List Artifact := [⟨"a/../b", "new"⟩, ⟨"b", "newer"⟩]

theorem run_writeAll_respelled : (writeAll respelled : StateM FileTree _).run shelf =
    (⟨.ok (), []⟩, ⟨[(["b"], .file [110, 101, 119, 101, 114]), (["a"], .directory)], []⟩) := by
  have hstaged : (stageAll [] respelled : StateM FileTree _).run shelf =
      (.ok [⟨"a/../b", ["//"], none⟩, ⟨"b", ["///"], some [111, 108, 100]⟩],
        ⟨(["///"], .file [110, 101, 119, 101, 114]) :: shelved.entries, []⟩) := by
    refine run_bind_eq_iff.mpr ⟨.ok none, shelf, by cbv, ?_⟩
    refine run_bind_eq_iff.mpr ⟨.ok ["//"], shelved, run_stageOne_detour, ?_⟩
    refine run_bind_eq_iff.mpr ⟨.ok (some [111, 108, 100]), shelved, by cbv, ?_⟩
    refine run_bind_eq_iff.mpr ⟨.ok ["///"], _, by cbv, rfl⟩
  exact run_bind_eq_iff.mpr ⟨_, _, hstaged, by cbv⟩

theorem writeAll_delivers_respelled : ∃ r u,
    shelf.Linkless ∧ (writeAll respelled : StateM FileTree _).run shelf = (r, u) ∧ r.result = .ok () ∧
    Delivered shelf respelled u ∧ (stale respelled : StateM FileTree _).run u = (.ok ["a/../b"], u) :=
  ⟨_, _, linkless_shelf, run_writeAll_respelled, rfl,
    writeAll_delivers linkless_shelf run_writeAll_respelled rfl, by cbv⟩

end RestRoutes.Artifact
