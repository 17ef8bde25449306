import RestRoutes.Command.Run
import RestRoutes.Proofs.Files.Run
import RestRoutes.Proofs.Files.Walk

namespace RestRoutes

open FileTree

/-- The files at the location that are to be scanned. -/
def FileTree.scanned (t : FileTree) (extensions : List String) (base : Location) : List (List String) :=
  (t.entries.filterMap fun (l, e) =>
    match e with
    | .file _ => behind? base l
    | _ => none).filter (Source.hasExtension extensions)

/-- Whatever stands somewhere in a tree stands there in the other as well. -/
structure Larger (w u : FileTree) : Prop where
  workDir : u.workDir = w.workDir
  get? : ∀ l e, w.get? l = some e → u.get? l = some e

theorem Larger.refl (t : FileTree) : Larger t t := ⟨rfl, fun _ _ => id⟩

theorem FileTree.larger_without (t : FileTree) (ls : List Location) : Larger (t.without ls) t :=
  ⟨rfl, fun _ _ h => (get?_without h).1⟩

/-- Locations where nothing is scanned do not matter for what is. -/
theorem FileTree.scanned_eq {t : FileTree} {ls : List Location} {base : Location}
    {extensions : List String} (h : ∀ l ∈ ls, ∀ names, behind? base l = some names →
      Source.hasExtension extensions names = false) : t.scanned extensions base =
    ((t.filesBut ls).filterMap fun x => behind? base x.1).filter (Source.hasExtension extensions) := by
  rw [scanned, filesBut, List.filter_filterMap, List.filterMap_filter, List.filter_filterMap]
  refine List.filterMap_congr fun x _ => ?_
  obtain ⟨l, e⟩ := x
  cases e with
  | directory => simp [Entry.isFile]
  | link target => simp [Entry.isFile]
  | file bytes =>
    by_cases hl : l ∈ ls
    · cases hnames : behind? base l with
      | none => simp [hl, hnames]
      | some names => simp [hl, hnames, h l hl names hnames]
    · simp [hl, Entry.isFile]

/-- A program that reads: when it succeeds in the one tree, it gives the same in the other. -/
def Reads {ε α : Type} (w u : FileTree) (x : StateM FileTree (Except ε α)) : Prop :=
  ∀ a v, x.run w = (.ok a, v) → v = w ∧ x.run u = (.ok a, u)

namespace Reads

variable {ε ε' α β : Type} {w u : FileTree}

theorem pure (r : Except ε α) : Reads w u (Pure.pure r) := by
  intro a v h
  obtain ⟨rfl, rfl⟩ := run_pure_eq_iff.mp h
  exact ⟨rfl, rfl⟩

/-- After a failure nothing succeeds. -/
theorem bind {x : StateM FileTree (Except ε α)} {f : Except ε α → StateM FileTree (Except ε' β)}
    (hx : Reads w u x) (herror : ∀ e, ∃ e', f (.error e) = Pure.pure (.error e'))
    (hok : ∀ a, x.run w = (.ok a, w) → Reads w u (f (.ok a))) : Reads w u (x >>= f) := by
  intro b v h
  obtain ⟨r, w', hrun, hrest⟩ := run_bind_eq_iff.mp h
  cases r with
  | error e =>
    obtain ⟨e', he⟩ := herror e
    rw [he] at hrest
    cases (run_pure_eq_iff.mp hrest).1
  | ok a =>
    obtain ⟨rfl, hu⟩ := hx a w' hrun
    obtain ⟨rfl, hb⟩ := hok a hrun b v hrest
    exact ⟨rfl, run_bind_eq_iff.mpr ⟨_, _, hu, hb⟩⟩

end Reads

variable {w u : FileTree}

theorem reads_read (h : Larger w u) (path : String) :
    Reads w u (FileSystem.read path : StateM FileTree _) := by
  intro bytes v hread
  rw [run_read] at hread ⊢
  obtain ⟨hbytes, rfl⟩ := Prod.mk.inj hread
  obtain ⟨l, hl⟩ := read_eq_ok_iff.mp hbytes
  rw [read_eq_ok_iff.mpr ⟨l, locate_mono h.workDir h.get? hl⟩]
  exact ⟨rfl, rfl⟩

theorem reads_readText (h : Larger w u) (path : String) :
    Reads w u (FileSystem.readText path : StateM FileTree _) := by
  refine (reads_read h path).bind (fun _ => ⟨_, rfl⟩) fun bytes _ => ?_
  dsimp only
  split
  · exact .pure _
  · exact .pure _

theorem Config.reads_load (h : Larger w u) (path : String) :
    Reads w u (Config.load path : StateM FileTree _) := by
  refine (reads_readText h path).bind (fun _ => ⟨_, rfl⟩) fun text _ => ?_
  dsimp only
  split
  · exact .pure _
  · exact .pure _

theorem Config.reads_read (h : Larger w u) (path : Option String) :
    Reads w u (Config.read path : StateM FileTree _) := by
  cases path with
  | none => exact .pure _
  | some path => exact (Config.reads_load h path).bind (fun _ => ⟨_, rfl⟩) fun _ _ => .pure _

theorem ApiDocument.reads_read (h : Larger w u) (path : String) :
    Reads w u (ApiDocument.read path : StateM FileTree _) := by
  refine (reads_readText h path).bind (fun _ => ⟨_, rfl⟩) fun text _ => ?_
  dsimp only
  split
  · exact .pure _
  · exact .pure _

theorem Larger.kind (h : Larger w u) {path : String} {k : FileKind} (hk : w.kind path = some k) :
    u.kind path = some k := by
  have hfound {l : Location} {e : Entry} (he : w.locate true path = .ok (.found l e)) :=
    locate_mono h.workDir h.get? he
  rw [FileTree.kind] at hk ⊢
  split at hk
  · rename_i hl
    rw [hfound hl]
    exact hk
  · rename_i hl
    rw [hfound hl]
    exact hk
  · cases hk

namespace Source

variable {extensions : List String}

/-- A directory stands for the same files in both trees if no more are scanned in it. -/
def SameScan (w u : FileTree) (extensions : List String) (source : String) : Prop :=
  ∀ base, w.locate true source = .ok (.found base .directory) →
    u.scanned extensions base = w.scanned extensions base

theorem select_filesBelow (h : Larger w u) {source : String} (hscan : SameScan w u extensions source)
    {below : List (List String)} (hbelow : w.filesBelow source = .ok below) :
    ∃ below', u.filesBelow source = .ok below' ∧
      select source extensions below' = select source extensions below := by
  obtain ⟨base, hbase, rfl⟩ := filesBelow_eq_ok_iff.mp hbelow
  have hscanned := hscan base hbase
  rw [scanned, scanned] at hscanned
  refine ⟨_, filesBelow_eq_ok_iff.mpr ⟨base, locate_mono h.workDir h.get? hbase, rfl⟩, ?_⟩
  rw [select, select]
  exact congrArg (fun below => (below.mergeSort Path.before).map (Path.join source)) hscanned

theorem reads_expand (h : Larger w u) {source : String} (hscan : SameScan w u extensions source) :
    Reads w u (expand extensions source : StateM FileTree _) := by
  intro files v hrun
  obtain ⟨k, w', hkind, hrest⟩ := run_bind_eq_iff.mp hrun
  rw [run_kind] at hkind
  obtain ⟨hk, rfl⟩ := Prod.mk.inj hkind
  split at hrest
  · obtain ⟨hfiles, rfl⟩ := run_pure_eq_iff.mp hrest
    cases hfiles
    exact ⟨rfl, run_bind_eq_iff.mpr ⟨_, _, (run_kind u source).trans (by rw [h.kind hk]), rfl⟩⟩
  · cases (run_pure_eq_iff.mp hrest).1
  · obtain ⟨r, w', hlist, hrest⟩ := run_bind_eq_iff.mp hrest
    obtain ⟨hbelow, rfl⟩ := Prod.mk.inj hlist
    split at hrest
    · rename_i below
      obtain ⟨hfiles, rfl⟩ := run_pure_eq_iff.mp hrest
      cases hfiles
      obtain ⟨below', hbelow', hselect⟩ := select_filesBelow h hscan hbelow
      refine ⟨rfl, run_bind_eq_iff.mpr ⟨_, _, (run_kind u source).trans (by rw [h.kind hk]), ?_⟩⟩
      refine run_bind_eq_iff.mpr ⟨.ok below', u, congrArg (·, u) hbelow', ?_⟩
      rw [← hselect]
      rfl
    · cases (run_pure_eq_iff.mp hrest).1

theorem reads_expandAll (h : Larger w u) {sources : List String}
    (hscan : ∀ source ∈ sources, SameScan w u extensions source) :
    Reads w u (expandAll extensions sources : StateM FileTree _) := by
  induction sources with
  | nil => exact .pure _
  | cons source sources ih =>
    obtain ⟨hfirst, hrest⟩ := List.forall_mem_cons.mp hscan
    exact (reads_expand h hfirst).bind (fun _ => ⟨_, rfl⟩) fun _ _ =>
      (ih hrest).bind (fun _ => ⟨_, rfl⟩) fun _ _ => .pure _

theorem reads_collect (h : Larger w u) {sources : List String}
    (hscan : ∀ source ∈ sources, SameScan w u extensions source) :
    Reads w u (collect extensions sources : StateM FileTree _) :=
  (reads_expandAll h hscan).bind (fun _ => ⟨_, rfl⟩) fun _ _ => .pure _

theorem reads_scanAll (h : Larger w u) (markers : Markers) (files : List String) :
    Reads w u (scanAll markers files : StateM FileTree _) := by
  induction files with
  | nil => exact .pure _
  | cons file files ih =>
    refine (reads_readText h file).bind (fun _ => ⟨_, rfl⟩) fun text _ => ?_
    dsimp only
    split
    · exact .pure _
    · exact ih.bind (fun _ => ⟨_, rfl⟩) fun _ _ => .pure _

theorem reads_blocks (h : Larger w u) (markers : Markers) (files : List String) :
    Reads w u (blocks markers files : StateM FileTree _) := by
  refine (reads_scanAll h markers files).bind (fun _ => ⟨_, rfl⟩) fun found _ => ?_
  dsimp only
  split
  · exact .pure _
  · exact .pure _

theorem reads_read (h : Larger w u) {scan : ScanOptions} {sources : List String}
    (hscan : ∀ source ∈ sources, SameScan w u scan.extensions source) :
    Reads w u (Source.read scan sources : StateM FileTree _) := by
  refine (reads_collect h hscan).bind (fun _ => ⟨_, rfl⟩) fun files _ => ?_
  exact (reads_blocks h scan.markers files).bind (fun _ => ⟨_, rfl⟩) fun _ _ => .pure _

end Source

theorem Inputs.reads_read (h : Larger w u) {o : GenerateOptions}
    (hscan : ∀ c, (Config.read o.config : StateM FileTree _).run w = (.ok c, w) →
      ∀ source ∈ o.sources, Source.SameScan w u c.scan.extensions source) :
    Reads w u (Inputs.read o : StateM FileTree _) := by
  refine (Config.reads_read h o.config).bind (fun _ => ⟨_, rfl⟩) fun c hc => ?_
  refine (ApiDocument.reads_read h o.spec).bind (fun _ => ⟨_, rfl⟩) fun document _ => ?_
  exact (Source.reads_read h (hscan c hc)).bind (fun _ => ⟨_, rfl⟩) fun _ _ => .pure _

end RestRoutes
