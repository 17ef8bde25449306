import RestRoutes.Proofs.Artifact.Staging
import RestRoutes.Proofs.Text.Utf8

namespace RestRoutes.Artifact

open FileTree

/-- Staged files are moved to where the paths lead, each in the tree that the moves before it left. -/
inductive Moved : FileTree → List Artifact → List StagedFile → List Location → FileTree → Prop where
  | nil : Moved v [] [] [] v
  | cons {v u : FileTree} {a : Artifact} {as : List Artifact} {s : StagedFile} {ss : List StagedFile}
    {l : Location} {ls : List Location} (target : v.Targets a.path l) (staged : v.get? s = some (.file a.bytes))
    (hidden : Hidden s) (rest : Moved ((v.erase s).put l (.file a.bytes)) as ss ls u) :
    Moved v (a :: as) (s :: ss) (l :: ls) u

variable {t u v w : FileTree} {as : List Artifact} {ps : List Pending} {ls : List Location}
  {p : Pending} {l : Location}

/-- A pending artifact with the file that it is staged in. -/
def IsCopy (v : FileTree) (a : Artifact) (p : Pending) : Prop :=
  p.path = a.path ∧ v.get? p.file = some (.file a.bytes)

/-- All artifacts are staged, each in a file of its own that no path leads to. -/
structure Copied (t : FileTree) (as : List Artifact) (ps : List Pending) (v : FileTree) : Prop where
  workDir : v.workDir = t.workDir
  kept : ∀ l, l ∉ ps.map (·.file) → KeptAt t v l
  fresh : ∀ p ∈ ps, t.get? p.file = none
  hidden : ∀ p ∈ ps, Hidden p.file
  copies : List.Forall₂ (IsCopy v) as ps
  distinct : (ps.map (·.file)).Nodup
  files : ∀ skipped, (∀ p ∈ ps, p.file ∈ skipped) → v.filesBut skipped = t.filesBut skipped

theorem Copied.nil (t : FileTree) : Copied t [] [] t :=
  ⟨rfl, fun _ _ => .inl rfl, nofun, nofun, .nil, .nil, fun _ _ => rfl⟩

theorem Copied.get?_of_some (h : Copied t as ps v) (hget : t.get? l = some e) : v.get? l = some e := by
  refine (h.kept l fun hmem => ?_).get?_of_some hget
  obtain ⟨p, hp, rfl⟩ := List.mem_map.mp hmem
  rw [h.fresh p hp] at hget
  cases hget

theorem Copied.linkless (h : Copied t as ps v) (hlink : t.Linkless) : v.Linkless := by
  intro l target hget
  by_cases hl : l ∈ ps.map (·.file)
  · obtain ⟨p, hp, rfl⟩ := List.mem_map.mp hl
    obtain ⟨a, -, hcopy⟩ := exists_related h.copies.flip hp
    rw [hcopy.2] at hget
    cases hget
  · exact hlink l target ((h.kept l hl).link hget)

/-- One artifact is staged before the others, in a tree that has grown for it. -/
theorem Copied.cons {a : Artifact} {base : Location} (hg : Grown t u)
    (hgf : ∀ skipped, u.filesBut skipped = t.filesBut skipped) (hpath : p.path = a.path)
    (hfile : p.file = base ++ [u.freshName]) (h : Copied (u.put p.file (.file a.bytes)) as ps v) :
    Copied t (a :: as) (p :: ps) v := by
  have hfresh : u.get? p.file = none := hfile ▸ get?_freshName u base
  have hhidden : Hidden p.file := hfile ▸ hidden_freshName u base
  have hget := get?_put (t := u) hhidden.ne_nil (.file a.bytes)
  have hnone {l : Location} (hu : u.get? l = none) : t.get? l = none := by
    cases ht : t.get? l with
    | none => rfl
    | some e => rw [(hg.kept l).get?_of_some ht] at hu; cases hu
  have hne : ∀ q ∈ ps, q.file ≠ p.file := by
    intro q hq he
    have hq := h.fresh q hq
    rw [he, hget, if_pos rfl] at hq
    cases hq
  refine ⟨h.workDir.trans hg.workDir, fun l hl => ?_, ?_, ?_, ?_, ?_, fun skipped hskipped => ?_⟩
  · rw [List.map_cons, List.mem_cons, not_or] at hl
    have hput : (u.put p.file (.file a.bytes)).get? l = u.get? l := by rw [hget, if_neg hl.1]
    have hkept := h.kept l hl.2
    rw [KeptAt, hput] at hkept
    exact (hg.kept l).trans hkept
  · refine List.forall_mem_cons.mpr ⟨hnone hfresh, fun q hq => hnone ?_⟩
    have hq' := h.fresh q hq
    rwa [hget, if_neg (hne q hq)] at hq'
  · exact List.forall_mem_cons.mpr ⟨hhidden, h.hidden⟩
  · exact .cons ⟨hpath, h.get?_of_some (by rw [hget, if_pos rfl])⟩ h.copies
  · refine List.nodup_cons.mpr ⟨fun hmem => ?_, h.distinct⟩
    obtain ⟨q, hq, he⟩ := List.mem_map.mp hmem
    exact hne q hq he
  · obtain ⟨hp, hps⟩ := List.forall_mem_cons.mp hskipped
    rw [h.files skipped hps, filesBut_put hp, hgf]

theorem run_stageAll_copied {done qs : List Pending}
    (h : (stageAll done as : StateM FileTree _).run t = (.ok qs, v)) :
    ∃ ps, qs = done.reverse ++ ps ∧ Copied t as ps v := by
  induction as generalizing done t with
  | nil =>
    obtain ⟨hqs, rfl⟩ := run_pure_eq_iff.mp h
    cases hqs
    exact ⟨[], (List.append_nil _).symm, .nil t⟩
  | cons a as ih =>
    obtain ⟨found, t', hsnapshot, hrest⟩ := run_bind_eq_iff.mp h
    obtain ⟨rfl, -⟩ := run_snapshot hsnapshot
    split at hrest
    · obtain ⟨⟨⟩, w, -, hrest⟩ := run_bind_eq_iff.mp hrest
      cases (run_pure_eq_iff.mp hrest).1
    · rename_i previous
      obtain ⟨staged, w, hstage, hrest⟩ := run_bind_eq_iff.mp hrest
      obtain ⟨u, hgrown, hfiles, ⟨e, rfl, rfl⟩ | ⟨base, rfl, rfl⟩⟩ := run_stageOne hstage
      · obtain ⟨⟨⟩, x, -, hrest⟩ := run_bind_eq_iff.mp hrest
        cases (run_pure_eq_iff.mp hrest).1
      · obtain ⟨ps, rfl, hps⟩ := ih hrest
        refine ⟨⟨a.path, base ++ [u.freshName], previous⟩ :: ps, by simp, ?_⟩
        exact .cons hgrown hfiles rfl rfl hps

theorem copies_congr (h : List.Forall₂ (IsCopy v) as ps) (hget : ∀ p ∈ ps, w.get? p.file = v.get? p.file) :
    List.Forall₂ (IsCopy w) as ps := by
  induction h with
  | nil => exact .nil
  | cons hcopy _ ih =>
    obtain ⟨hp, hps⟩ := List.forall_mem_cons.mp hget
    exact .cons ⟨hcopy.1, hp.trans hcopy.2⟩ (ih hps)

theorem target_ne_nil {path : String} (h : v.Targets path l) : l ≠ [] := by
  rintro rfl
  exact h.visible.1 rfl

/-- What a move does to a tree. -/
theorem get?_move {path : String} (htarget : v.Targets path l) (hs : Hidden s) (e : Entry) (k : Location) :
    ((v.erase s).put l e).get? k = if k = l then some e else if k = s then none else v.get? k := by
  rw [get?_put (target_ne_nil htarget), get?_erase hs.ne_nil]

/-- A move puts a file in the place of a file. -/
theorem linkless_move {path : String} {bytes : List UInt8} (htarget : v.Targets path l)
    (hstaged : v.get? s = some (.file bytes)) (hs : Hidden s) (hlink : v.Linkless) :
    ((v.erase s).put l (.file bytes)).Linkless ∧
    ∀ path, ((v.erase s).put l (.file bytes)).place? path = v.place? path := by
  have hget := get?_move htarget hs (.file bytes)
  refine ⟨fun k target hk => ?_, place?_congr rfl fun k => ?_⟩
  · have hnone := hlink k target
    grind
  · have hvis := htarget.visible.1
    grind

theorem run_replaceAll_moved {done : List Pending} {r : WriteReport}
    (hcopies : List.Forall₂ (IsCopy v) as ps) (hhidden : ∀ p ∈ ps, Hidden p.file)
    (hdistinct : (ps.map (·.file)).Nodup)
    (h : (replaceAll done ps : StateM FileTree _).run v = (r, u)) (hr : r.result = .ok ()) :
    ∃ ls, Moved v as (ps.map (·.file)) ls u := by
  induction ps generalizing done v as with
  | nil =>
    cases hcopies
    obtain ⟨-, rfl⟩ := run_pure_eq_iff.mp h
    exact ⟨[], .nil⟩
  | cons p ps ih =>
    obtain _ | ⟨⟨hpath, hstaged⟩, hcopies⟩ := hcopies
    rename_i a as
    obtain ⟨hp, hps⟩ := List.forall_mem_cons.mp hhidden
    obtain ⟨hnew, hdistinct⟩ := List.nodup_cons.mp hdistinct
    obtain ⟨answer, w, hreplace, hrest⟩ := run_bind_eq_iff.mp h
    rcases run_replace hreplace with ⟨hmoved, rfl⟩ | ⟨e, -, rfl, rfl⟩
    · obtain ⟨l, e, htarget, he, rfl⟩ := replace_targets hmoved
      obtain rfl := Option.some.inj (hstaged.symm.trans he)
      have hget : ∀ q ∈ ps, ((v.erase p.file).put l (.file a.bytes)).get? q.file = v.get? q.file := by
        intro q hq
        have hne : q.file ≠ p.file := fun he => hnew (List.mem_map.mpr ⟨q, hq, he⟩)
        have hout : q.file ≠ l := fun he => htarget.visible.2 (he ▸ hps q hq)
        rw [get?_move htarget hp, if_neg hout, if_neg hne]
      obtain ⟨ls, hls⟩ := ih (copies_congr hcopies hget) hps hdistinct hrest
      exact ⟨l :: ls, .cons (hpath ▸ htarget) hstaged hp hls⟩
    · obtain ⟨rollbacks, x, -, hrest⟩ := run_bind_eq_iff.mp hrest
      obtain ⟨⟨⟩, y, -, hrest⟩ := run_bind_eq_iff.mp hrest
      obtain ⟨rfl, -⟩ := run_pure_eq_iff.mp hrest
      cases hr

/-- A path that leads, if anywhere, to one location. -/
def OnlyTo (u : FileTree) (path : String) (l : Location) : Prop :=
  ∀ k e, u.locate true path = .ok (.found k e) → k = l

theorem overlaid_trans (h : Overlaid v w) (h' : Overlaid w u) : Overlaid v u := by
  refine ⟨h'.workDir.trans h.workDir, fun k hk => ?_⟩
  rcases h.get? k hk with hvw | ⟨hdir, bytes, hvw⟩
  · rw [← hvw]
    exact h'.get? k hk
  · rcases h'.get? k hk with hwu | ⟨-, hwu⟩
    · exact .inr ⟨hdir, bytes, hwu.trans hvw⟩
    · exact .inr ⟨hdir, hwu⟩

namespace Moved

theorem overlaid (h : Moved v as ss ls u) : Overlaid v u := by
  induction h with
  | nil => exact ⟨rfl, fun _ _ => .inl rfl⟩
  | @cons v u a as s ss l ls target staged hidden rest ih =>
    refine overlaid_trans (w := (v.erase s).put l (.file a.bytes)) ⟨rfl, fun k hk => ?_⟩ ih
    rw [get?_move target hidden]
    split
    · rename_i he
      subst he
      exact .inr ⟨target.visible.1, a.bytes, rfl⟩
    · have hne : k ≠ s := fun he => hk (he ▸ hidden)
      rw [if_neg hne]
      exact .inl rfl

/-- Staged files leave their locations, and nothing changes but there and where they go to. -/
theorem get? (h : Moved v as ss ls u) (hl : l ∉ ls) :
    u.get? l = if l ∈ ss then none else v.get? l := by
  induction h with
  | nil => rfl
  | @cons v u a as s ss k ls target staged hidden rest ih =>
    rw [List.mem_cons, not_or] at hl
    rw [ih hl.2, get?_move target hidden, if_neg hl.1]
    simp only [List.mem_cons]
    grind

theorem files (h : Moved v as ss ls u) {skipped : List Location} (hls : ∀ l ∈ ls, l ∈ skipped)
    (hss : ∀ s ∈ ss, s ∈ skipped) : u.filesBut skipped = v.filesBut skipped := by
  induction h with
  | nil => rfl
  | cons target staged hidden rest ih =>
    rw [List.forall_mem_cons] at hls hss
    rw [ih hls.2 hss.2, filesBut_put hls.1, filesBut_erase hss.1]

theorem hidden (h : Moved v as ss ls u) : ∀ s ∈ ss, Hidden s := by
  induction h with
  | nil => nofun
  | cons target staged hidden rest ih => exact List.forall_mem_cons.mpr ⟨hidden, ih⟩

theorem visible (h : Moved v as ss ls u) : ∀ l ∈ ls, ¬ Hidden l := by
  induction h with
  | nil => nofun
  | cons target staged hidden rest ih => exact List.forall_mem_cons.mpr ⟨target.visible.2, ih⟩

theorem linkless (h : Moved v as ss ls u) (hlink : v.Linkless) :
    u.Linkless ∧ ∀ path, u.place? path = v.place? path := by
  induction h with
  | nil => exact ⟨hlink, fun _ => rfl⟩
  | cons target staged hidden rest ih =>
    obtain ⟨hmoved, hplace⟩ := linkless_move target staged hidden hlink
    obtain ⟨hu, hplace'⟩ := ih hmoved
    exact ⟨hu, fun path => (hplace' path).trans (hplace path)⟩

/-- Every path leads to where its artifact went, and what went there last is there. -/
theorem lands (h : Moved v as ss ls u) :
    (∀ a ∈ as, ∃ l ∈ ls, OnlyTo u a.path l) ∧
    ∀ l ∈ ls, ∃ a ∈ as, u.get? l = some (.file a.bytes) ∧ OnlyTo u a.path l := by
  induction h with
  | nil => exact ⟨nofun, nofun⟩
  | @cons v u a as s ss l ls target staged hidden rest ih =>
    obtain ⟨hled, hheld⟩ := ih
    have hover : Overlaid v u := (Moved.cons target staged hidden rest).overlaid
    have hput : ∃ b ∈ a :: as, u.get? l = some (.file b.bytes) ∧ (l ∉ ls → b = a) := by
      by_cases hl : l ∈ ls
      · obtain ⟨b, hb, hget, -⟩ := hheld l hl
        exact ⟨b, List.mem_cons_of_mem a hb, hget, fun h => absurd hl h⟩
      · refine ⟨a, List.mem_cons_self, ?_, fun _ => rfl⟩
        rw [rest.get? hl, if_neg fun hs => target.visible.2 (rest.hidden l hs), get?_move target hidden,
          if_pos rfl]
    obtain ⟨b, -, hget, hlast⟩ := hput
    have honly : OnlyTo u a.path l := fun k e hk => target.lands hover hget hk
    constructor
    · refine List.forall_mem_cons.mpr ⟨⟨l, List.mem_cons_self, honly⟩, fun b hb => ?_⟩
      obtain ⟨k, hk, hb⟩ := hled b hb
      exact ⟨k, List.mem_cons_of_mem l hk, hb⟩
    · intro k hk
      by_cases hmem : k ∈ ls
      · obtain ⟨b, hb, hget, honly⟩ := hheld k hmem
        exact ⟨b, List.mem_cons_of_mem a hb, hget, honly⟩
      · obtain rfl := (List.mem_cons.mp hk).resolve_right hmem
        exact ⟨a, List.mem_cons_self, hlast hmem ▸ hget, honly⟩

/-- Without links every path leads to a file in the end. -/
theorem kind_eq_file (h : Moved v as ss ls u) (hlink : v.Linkless) :
    ∀ a ∈ as, u.kind a.path = some .file := by
  have hmoved := h
  induction h with
  | nil => nofun
  | @cons v u a as s ss l ls target staged hidden rest ih =>
    obtain ⟨hu, hplace⟩ := hmoved.linkless hlink
    obtain ⟨b, -, hget, -⟩ := hmoved.lands.2 l List.mem_cons_self
    have hlocate := locate_of_place? hu ((hplace a.path).trans (target.place? hlink)) true
    rw [standing, hget] at hlocate
    exact List.forall_mem_cons.mpr ⟨FileTree.kind_eq_file.mpr ⟨l, b.bytes, hlocate⟩,
      ih (linkless_move target staged hidden hlink).1 rest⟩

end Moved

/-- Everything is in its place: a tree `t` became `u` when files were put at the locations `ls`. -/
structure Written (t : FileTree) (as : List Artifact) (ls : List Location) (u : FileTree) : Prop where
  workDir : u.workDir = t.workDir
  kept : ∀ l e, t.get? l = some e → l ∉ ls → u.get? l = some e
  led : ∀ a ∈ as, ∃ l ∈ ls, OnlyTo u a.path l
  held : ∀ l ∈ ls, ∃ a ∈ as, u.get? l = some (.file a.bytes) ∧ OnlyTo u a.path l
  files : ∀ skipped, (∀ l ∈ ls, l ∈ skipped) → u.filesBut skipped = t.filesBut skipped
  linkless : t.Linkless → ∀ a ∈ as, u.kind a.path = some .file

theorem run_writeAll_written {r : WriteReport} (h : (writeAll as : StateM FileTree _).run t = (r, u))
    (hr : r.result = .ok ()) : ∃ ls, Written t as ls u := by
  obtain ⟨staged, v, hstage, hrest⟩ := run_bind_eq_iff.mp h
  split at hrest
  · obtain ⟨rfl, -⟩ := run_pure_eq_iff.mp hrest
    cases hr
  rename_i ps
  obtain ⟨ps', hps, hcopied⟩ := run_stageAll_copied hstage
  obtain rfl : ps = ps' := hps
  obtain ⟨ls, hmoved⟩ :=
    run_replaceAll_moved hcopied.copies hcopied.hidden hcopied.distinct hrest hr
  have hstaged : ∀ s ∈ ps.map (·.file), t.get? s = none := by
    intro s hs
    obtain ⟨p, hp, rfl⟩ := List.mem_map.mp hs
    exact hcopied.fresh p hp
  obtain ⟨hled, hheld⟩ := hmoved.lands
  refine ⟨ls, hmoved.overlaid.workDir.trans hcopied.workDir, fun l e hget hl => ?_, hled, hheld,
    fun skipped hls => ?_, fun hlink => hmoved.kind_eq_file (hcopied.linkless hlink)⟩
  · have hnew : l ∉ ps.map (·.file) := by
      intro hmem
      rw [hstaged l hmem] at hget
      cases hget
    rw [hmoved.get? hl, if_neg hnew]
    exact hcopied.get?_of_some hget
  · have hgone : ∀ s ∈ ps.map (·.file), s ≠ [] ∧ u.get? s = none := by
      intro s hs
      have hhidden := hmoved.hidden s hs
      rw [hmoved.get? fun hl => hmoved.visible s hl hhidden, if_pos hs]
      exact ⟨hhidden.ne_nil, rfl⟩
    have hnew : ∀ s ∈ ps.map (·.file), s ≠ [] ∧ t.get? s = none :=
      fun s hs => ⟨(hmoved.hidden s hs).ne_nil, hstaged s hs⟩
    rw [← filesBut_append_absent hgone, ← filesBut_append_absent hnew,
      hmoved.files (fun l hl => List.mem_append_left _ (hls l hl)) fun s => List.mem_append_right _]
    exact hcopied.files _ fun p hp => List.mem_append_right _ (List.mem_map.mpr ⟨p, hp, rfl⟩)

/-- Every destination leads to a file, and those that lead to one file have the same contents. -/
structure Settled (as : List Artifact) (u : FileTree) : Prop where
  file : ∀ a ∈ as, u.kind a.path = some .file
  agree : ∀ a ∈ as, ∀ b ∈ as, u.reached? a.path = u.reached? b.path → a.contents = b.contents

/-- Where destinations lead. -/
def destinations (as : List Artifact) (u : FileTree) : List Location :=
  as.filterMap fun a => u.reached? a.path

/-- The text at the destination of an artifact is its own. -/
def Holds (u : FileTree) (a : Artifact) : Prop :=
  ∃ bytes, u.read a.path = .ok bytes ∧ Text.Utf8.decode? bytes = some a.contents.toList

/-- A text is read from a file that holds it and nothing else. -/
theorem holds_iff {a : Artifact} : Holds u a ↔ u.read a.path = .ok a.bytes := by
  simp [Holds, Text.Utf8.decode?_eq_some_iff, Artifact.bytes]

/-- One file holds one text. -/
theorem settled_of_holds (h : ∀ a ∈ as, Holds u a) : Settled as u := by
  constructor
  · intro a ha
    obtain ⟨bytes, hread, -⟩ := h a ha
    obtain ⟨l, hl⟩ := read_eq_ok_iff.mp hread
    exact kind_eq_file.mpr ⟨l, bytes, hl⟩
  · intro a ha b hb hsame
    obtain ⟨bytes, hread, hdecode⟩ := h a ha
    obtain ⟨bytes', hread', hdecode'⟩ := h b hb
    obtain ⟨l, hl⟩ := read_eq_ok_iff.mp hread
    obtain ⟨k, hk⟩ := read_eq_ok_iff.mp hread'
    rw [reached?_eq_some.mpr ⟨_, hl⟩, reached?_eq_some.mpr ⟨_, hk⟩, Option.some.injEq] at hsame
    have hbytes := get?_of_locate hl
    rw [hsame, get?_of_locate hk, Option.some.injEq, Entry.file.injEq] at hbytes
    rw [hbytes, hdecode, Option.some.injEq] at hdecode'
    exact String.toList_inj.mp hdecode'

/-- When everything is in its place and no two destinations are in each other's way, each of them holds
its artifact: what was put last at a location is of an artifact that leads there. -/
theorem Written.holds (h : Written t as ls u) (hsettled : Settled as u) : ∀ a ∈ as, Holds u a := by
  intro a ha
  obtain ⟨k, bytes, hk⟩ := kind_eq_file.mp (hsettled.file a ha)
  obtain ⟨l, hl, honly⟩ := h.led a ha
  obtain rfl := honly k _ hk
  obtain ⟨b, hb, hget, honly⟩ := h.held k hl
  obtain ⟨j, bytes', hj⟩ := kind_eq_file.mp (hsettled.file b hb)
  obtain rfl := honly j _ hj
  have hsame : a.contents = b.contents := hsettled.agree a ha b hb (by
    rw [reached?_eq_some.mpr ⟨_, hk⟩, reached?_eq_some.mpr ⟨_, hj⟩])
  have hbytes := (get?_of_locate hk).symm.trans hget
  rw [Option.some.injEq, Entry.file.injEq] at hbytes
  refine ⟨bytes, read_eq_ok_iff.mpr ⟨j, hk⟩, ?_⟩
  rw [hbytes, Artifact.bytes, Text.Utf8.decode?_encode, hsame]

/-- A settled destination leads to where a file was put. -/
theorem Written.mem_destinations (h : Written t as ls u) (hsettled : Settled as u) :
    ∀ l, l ∈ destinations as u ↔ l ∈ ls := by
  intro l
  rw [destinations, List.mem_filterMap]
  constructor
  · rintro ⟨a, ha, hl⟩
    obtain ⟨e, he⟩ := reached?_eq_some.mp hl
    obtain ⟨k, hk, honly⟩ := h.led a ha
    rwa [honly l e he]
  · intro hl
    obtain ⟨a, ha, -, honly⟩ := h.held l hl
    obtain ⟨k, bytes, hk⟩ := kind_eq_file.mp (hsettled.file a ha)
    obtain rfl := honly k _ hk
    exact ⟨a, ha, reached?_eq_some.mpr ⟨_, hk⟩⟩

end RestRoutes.Artifact
