import Mathlib.Data.List.Forall2
import RestRoutes.Proofs.Block.Language
import RestRoutes.Proofs.Files.Run
import RestRoutes.Proofs.Text.Utf8
import RestRoutes.Source

namespace RestRoutes

theorem requireDistinct_eq_ok_iff {seen blocks : List Block} :
    requireDistinct seen blocks = .ok () ↔
      (∀ b ∈ blocks, ∀ c ∈ seen, c.operation ≠ b.operation) ∧ (blocks.map (·.operation)).Nodup := by
  induction blocks generalizing seen with
  | nil => simp [requireDistinct]
  | cons b blocks ih =>
    cases hfirst : seen.find? (·.operation = b.operation) with
    | some c =>
      have hc := List.find?_some hfirst
      have hmem := List.mem_of_find?_eq_some hfirst
      simp only [decide_eq_true_eq] at hc
      simp only [requireDistinct, hfirst]
      constructor
      · nofun
      · intro h
        exact absurd hc (h.1 b List.mem_cons_self c hmem)
    | none =>
      have hnew := List.find?_eq_none.mp hfirst
      simp only [decide_eq_true_eq] at hnew
      simp only [requireDistinct, hfirst, ih, List.map_cons, List.nodup_cons, List.forall_mem_cons,
        List.mem_map, not_exists, not_and]
      constructor
      · rintro ⟨hseen, hdistinct⟩
        refine ⟨⟨hnew, fun d hd => (hseen d hd).2⟩, fun d hd he => ?_, hdistinct⟩
        exact (hseen d hd).1 he.symm
      · rintro ⟨⟨-, hseen⟩, hfresh, hdistinct⟩
        exact ⟨fun d hd => ⟨fun he => hfresh d hd he.symm, hseen d hd⟩, hdistinct⟩

theorem requireDistinct_nil_iff {blocks : List Block} :
    requireDistinct [] blocks = .ok () ↔ (blocks.map (·.operation)).Nodup := by
  simp [requireDistinct_eq_ok_iff]

/-- What is said of a block whose operation is documented by an earlier one. -/
def clash (b first : Block) : BlockError :=
  .placement b.location.file b.location.first
    (.alreadyDocumented b.operation first.location.file first.location.first)

/-- The earliest block whose operation is documented before it, and the only one before it that does. -/
def FirstClash (blocks : List Block) (b first : Block) : Prop :=
  ∃ before after, blocks = before ++ b :: after ∧ (before.map (·.operation)).Nodup ∧
    before.filter (·.operation = b.operation) = [first]

/-- The blocks before the one that is refused have been seen, the last of them first. -/
theorem requireDistinct_eq_error_iff {seen blocks : List Block} {e : BlockError} :
    requireDistinct seen blocks = .error e ↔ ∃ before b after first, blocks = before ++ b :: after ∧
      requireDistinct seen before = .ok () ∧
      (before.reverse ++ seen).find? (·.operation = b.operation) = some first ∧ e = clash b first := by
  induction blocks generalizing seen with
  | nil => simp [requireDistinct]
  | cons c blocks ih =>
    cases hfirst : seen.find? (·.operation = c.operation) with
    | some first =>
      have hstep (rest : List Block) : requireDistinct seen (c :: rest) = .error (clash c first) := by
        simp only [requireDistinct, hfirst, clash]
      rw [hstep]
      constructor
      · intro h
        cases h
        exact ⟨[], c, blocks, first, rfl, rfl, hfirst, rfl⟩
      · rintro ⟨before, b, after, other, hsplit, hok, hfind, rfl⟩
        cases before with
        | nil =>
          cases hsplit
          rw [Option.some.inj (hfirst.symm.trans hfind)]
        | cons d before =>
          cases hsplit
          rw [hstep] at hok
          cases hok
    | none =>
      have hstep (rest : List Block) : requireDistinct seen (c :: rest) = requireDistinct (c :: seen) rest := by
        simp only [requireDistinct, hfirst]
      have hseen (before : List Block) : (c :: before).reverse ++ seen = before.reverse ++ c :: seen := by
        simp
      rw [hstep, ih]
      constructor
      · rintro ⟨before, b, after, first, rfl, hok, hfind, rfl⟩
        exact ⟨c :: before, b, after, first, rfl, (hstep before).trans hok, hseen before ▸ hfind, rfl⟩
      · rintro ⟨before, b, after, first, hsplit, hok, hfind, rfl⟩
        cases before with
        | nil =>
          cases hsplit
          cases hfirst.symm.trans hfind
        | cons d before =>
          cases hsplit
          exact ⟨before, b, after, first, rfl, (hstep before).symm.trans hok, hseen before ▸ hfind, rfl⟩

/-- Among blocks of different operations there is no choice between the first and the last for one. -/
theorem filter_operation_eq_toList {blocks : List Block} (hd : (blocks.map (·.operation)).Nodup)
    (operation : String) : blocks.filter (·.operation = operation) =
      (blocks.reverse.find? (·.operation = operation)).toList := by
  have hnodup := hd.sublist ((List.filter_sublist (p := (·.operation = operation))).map Block.operation)
  have hall : ∀ c ∈ blocks.filter (·.operation = operation), c.operation = operation := fun c hc => by
    simpa using (List.mem_filter.mp hc).2
  rw [← List.head?_filter, List.filter_reverse, List.head?_reverse]
  generalize blocks.filter (·.operation = operation) = found at hnodup hall
  match found with
  | [] => rfl
  | [c] => rfl
  | c :: d :: rest =>
    have hsame : c.operation = d.operation := (hall c (by simp)).trans (hall d (by simp)).symm
    simp [hsame] at hnodup

/-- Behind blocks of different operations, one that repeats an operation clashes with the one that has it. -/
theorem exists_clash {blocks : List Block} {b : Block} (hdistinct : (blocks.map (·.operation)).Nodup)
    (hb : b.operation ∈ blocks.map (·.operation)) (rest : List Block) :
    ∃ first ∈ blocks, first.operation = b.operation ∧ FirstClash (blocks ++ b :: rest) b first := by
  obtain ⟨first, hfirst, hsame⟩ := List.mem_map.mp hb
  refine ⟨first, hfirst, hsame, blocks, rest, rfl, hdistinct, ?_⟩
  have hmem : first ∈ blocks.filter (·.operation = b.operation) :=
    List.mem_filter.mpr ⟨hfirst, by simpa using hsame⟩
  rw [filter_operation_eq_toList hdistinct] at hmem ⊢
  rw [Option.mem_toList.mp hmem]
  rfl

theorem requireDistinct_nil_eq_error_iff {blocks : List Block} {e : BlockError} :
    requireDistinct [] blocks = .error e ↔ ∃ b first, FirstClash blocks b first ∧ e = clash b first := by
  simp only [requireDistinct_eq_error_iff, requireDistinct_nil_iff, List.append_nil]
  constructor
  · rintro ⟨before, b, after, first, hsplit, hd, hfirst, he⟩
    refine ⟨b, first, ⟨before, after, hsplit, hd, ?_⟩, he⟩
    rw [filter_operation_eq_toList hd, hfirst, Option.toList_some]
  · rintro ⟨b, first, ⟨before, after, hsplit, hd, hfirst⟩, he⟩
    rw [filter_operation_eq_toList hd, Option.toList_eq_singleton_iff] at hfirst
    exact ⟨before, b, after, first, hsplit, hd, hfirst, he⟩

/-- Blocks of one file, from its first line to its last. -/
structure InOrder (file : String) (blocks : List Block) : Prop where
  file : ∀ b ∈ blocks, b.location.file = file
  lines : blocks.Pairwise fun b c => b.location.last < c.location.first

theorem Documents.first_le {s : Scanner} {ps : List Passage} {bs : List Block}
    (h : Documents s n ps bs) : ∀ b ∈ bs, n ≤ b.location.first := by
  induction h with
  | nil => nofun
  | cons head _ ih =>
    rw [List.forall_mem_cons]
    exact ⟨head.first ▸ Nat.le_add_right _ _, fun b hb => Nat.le_trans (Nat.le_add_right _ _) (ih b hb)⟩

theorem Documents.inOrder {s : Scanner} {ps : List Passage} {bs : List Block}
    (h : Documents s n ps bs) : InOrder s.file bs := by
  induction h with
  | nil => exact ⟨nofun, .nil⟩
  | @cons n ps bs p b head tail ih =>
    refine ⟨List.forall_mem_cons.mpr ⟨head.file, ih.file⟩, List.pairwise_cons.mpr ⟨fun c hc => ?_, ih.lines⟩⟩
    have hfirst := tail.first_le c hc
    rw [p.lines_length] at hfirst
    rw [head.last]
    omega

theorem Scanner.scan_inOrder {s : Scanner} {text : String} {bs : List Block} (h : s.scan text = .ok bs) :
    InOrder s.file bs := by
  obtain ⟨ps, hs⟩ := ahead_of_scanFrom h
  exact ((scanFrom_eq_ok_iff hs 1).mp h).inOrder

namespace Source

variable {markers : Markers} {t u : FileTree} {files : List String} {blocks : List Block}
  {file : String} {e : BlockError}

/-- What the scanner makes of a file that can be read. -/
def Scans (markers : Markers) (t : FileTree) (file : String) (r : Except BlockError (List Block)) : Prop :=
  ∃ text, (FileSystem.readText file : StateM FileTree _).run t = (.ok text, t) ∧
    (Scanner.mk file markers).scan text = r

/-- The first file that cannot be scanned. -/
def FirstFault (markers : Markers) (t : FileTree) (files : List String) (e : BlockError) : Prop :=
  ∃ before file after, files = before ++ file :: after ∧
    (∀ other ∈ before, ∃ bs, Scans markers t other (.ok bs)) ∧ Scans markers t file (.error e)

theorem Scans.unique {r r' : Except BlockError (List Block)} (h : Scans markers t file r)
    (h' : Scans markers t file r') : r = r' := by
  obtain ⟨text, hread, rfl⟩ := h
  obtain ⟨text', hread', rfl⟩ := h'
  cases hread.symm.trans hread'
  rfl

theorem Scans.readable {r : Except BlockError (List Block)} (h : Scans markers t file r) :
    ∃ text, (FileSystem.readText file : StateM FileTree _).run t = (.ok text, t) := by
  obtain ⟨text, hread, -⟩ := h
  exact ⟨text, hread⟩

theorem location_of_scans {found : List (List Block)} {b : Block}
    (h : List.Forall₂ (fun file bs => Scans markers t file (.ok bs)) files found)
    (hb : b ∈ found.flatten) : b.location.file ∈ files := by
  obtain ⟨bs, hbs, hmem⟩ := List.mem_flatten.mp hb
  obtain ⟨file, hfile, text, -, hscan⟩ := exists_related h.flip hbs
  rw [(Scanner.scan_inOrder hscan).file b hmem]
  exact hfile

theorem run_scanAll_eq_ok_iff :
    (scanAll markers files : StateM FileTree _).run t = (.ok blocks, u) ↔ u = t ∧ ∃ found,
      List.Forall₂ (fun file bs => Scans markers t file (.ok bs)) files found ∧
      blocks = found.flatten := by
  induction files generalizing blocks u with
  | nil =>
    rw [scanAll, run_pure_eq_iff]
    constructor
    · rintro ⟨h, rfl⟩
      cases h
      exact ⟨rfl, [], .nil, rfl⟩
    · rintro ⟨rfl, found, hfound, rfl⟩
      cases hfound
      exact ⟨rfl, rfl⟩
  | cons file files ih =>
    constructor
    · intro h
      obtain ⟨r, v, hread, hrest⟩ := run_bind_eq_iff.mp h
      split at hrest
      · cases (run_pure_eq_iff.mp hrest).1
      · rename_i text
        obtain ⟨rfl, -⟩ := FileTree.run_readText_eq_ok_iff.mp hread
        split at hrest
        · cases (run_pure_eq_iff.mp hrest).1
        · rename_i bs hscan
          obtain ⟨r, w, hmore, hlast⟩ := run_bind_eq_iff.mp hrest
          split at hlast
          · cases (run_pure_eq_iff.mp hlast).1
          · obtain ⟨rfl, found, hfound, rfl⟩ := ih.mp hmore
            obtain ⟨hblocks, rfl⟩ := run_pure_eq_iff.mp hlast
            cases hblocks
            exact ⟨rfl, bs :: found, .cons ⟨text, hread, hscan⟩ hfound, rfl⟩
    · rintro ⟨rfl, found, hfound, rfl⟩
      cases hfound with
      | cons hbs hfound =>
        obtain ⟨text, hread, hscan⟩ := hbs
        refine run_bind_eq_iff.mpr ⟨_, _, hread, ?_⟩
        simp only [hscan]
        exact run_bind_eq_iff.mpr ⟨_, _, ih.mpr ⟨rfl, _, hfound, rfl⟩, rfl⟩

/-- Files that can be scanned do not hide a failure behind them. -/
theorem run_scanAll_behind {before rest : List String} {e : SourceError}
    (hbefore : ∀ other ∈ before, ∃ bs, Scans markers t other (.ok bs))
    (h : (scanAll markers rest : StateM FileTree _).run t = (.error e, t)) :
    (scanAll markers (before ++ rest) : StateM FileTree _).run t = (.error e, t) := by
  induction before with
  | nil => exact h
  | cons other before ih =>
    obtain ⟨⟨bs, text, hread, hscan⟩, hbefore⟩ := List.forall_mem_cons.mp hbefore
    refine run_bind_eq_iff.mpr ⟨_, _, hread, ?_⟩
    simp only [hscan]
    exact run_bind_eq_iff.mpr ⟨_, _, ih hbefore, rfl⟩

/-- Nothing behind the first file that cannot be scanned is looked at. -/
theorem run_scanAll_of_firstFault (h : FirstFault markers t files e) :
    (scanAll markers files : StateM FileTree _).run t = (.error (.block e), t) := by
  obtain ⟨before, file, after, rfl, hbefore, text, hread, hscan⟩ := h
  refine run_scanAll_behind hbefore (run_bind_eq_iff.mpr ⟨_, _, hread, ?_⟩)
  simp only [hscan]
  rfl

theorem run_scanAll_of_unreadable {before after : List String} {e : FileError}
    (hbefore : ∀ other ∈ before, ∃ bs, Scans markers t other (.ok bs))
    (h : (FileSystem.readText file : StateM FileTree _).run t = (.error e, t)) :
    (scanAll markers (before ++ file :: after) : StateM FileTree _).run t = (.error (.unreadable file e), t) :=
  run_scanAll_behind hbefore (run_bind_eq_iff.mpr ⟨_, _, h, rfl⟩)

theorem run_blocks_eq_ok_iff :
    (Source.blocks markers files : StateM FileTree _).run t = (.ok blocks, u) ↔ u = t ∧ ∃ found,
      List.Forall₂ (fun file bs => Scans markers t file (.ok bs)) files found ∧
      blocks = found.flatten ∧ (blocks.map (·.operation)).Nodup := by
  rw [Source.blocks, run_bind_eq_iff]
  constructor
  · rintro ⟨r, v, hall, h⟩
    split at h
    · cases (run_pure_eq_iff.mp h).1
    · split at h
      · cases (run_pure_eq_iff.mp h).1
      · rename_i hdistinct
        obtain ⟨hblocks, rfl⟩ := run_pure_eq_iff.mp h
        cases hblocks
        obtain ⟨rfl, found, hfound, rfl⟩ := run_scanAll_eq_ok_iff.mp hall
        exact ⟨rfl, found, hfound, rfl, requireDistinct_nil_iff.mp hdistinct⟩
  · rintro ⟨rfl, found, hfound, rfl, hdistinct⟩
    refine ⟨_, _, run_scanAll_eq_ok_iff.mpr ⟨rfl, found, hfound, rfl⟩, ?_⟩
    simp only [requireDistinct_nil_iff.mpr hdistinct]
    rfl

theorem distinct_of_run_blocks
    (h : (Source.blocks markers files : StateM FileTree _).run t = (.ok blocks, u)) :
    (blocks.map (·.operation)).Nodup := by
  obtain ⟨-, _, -, -, hdistinct⟩ := run_blocks_eq_ok_iff.mp h
  exact hdistinct

theorem run_blocks_of_firstClash {found : List (List Block)} {b first : Block}
    (hfound : List.Forall₂ (fun file bs => Scans markers t file (.ok bs)) files found)
    (h : FirstClash found.flatten b first) :
    (Source.blocks markers files : StateM FileTree _).run t = (.error (.block (clash b first)), t) := by
  refine run_bind_eq_iff.mpr ⟨_, _, run_scanAll_eq_ok_iff.mpr ⟨rfl, found, hfound, rfl⟩, ?_⟩
  simp only [requireDistinct_nil_eq_error_iff.mpr ⟨b, first, h, rfl⟩]
  rfl

theorem run_blocks_of_firstFault (h : FirstFault markers t files e) :
    (Source.blocks markers files : StateM FileTree _).run t = (.error (.block e), t) :=
  run_bind_eq_iff.mpr ⟨_, _, run_scanAll_of_firstFault h, rfl⟩

theorem run_blocks_of_unreadable {before after : List String} {e : FileError}
    (hbefore : ∀ other ∈ before, ∃ bs, Scans markers t other (.ok bs))
    (h : (FileSystem.readText file : StateM FileTree _).run t = (.error e, t)) :
    (Source.blocks markers (before ++ file :: after) : StateM FileTree _).run t =
      (.error (.unreadable file e), t) :=
  run_bind_eq_iff.mpr ⟨_, _, run_scanAll_of_unreadable hbefore h, rfl⟩

theorem exists_firstClash (h : ¬ (blocks.map (·.operation)).Nodup) :
    ∃ b first, FirstClash blocks b first := by
  cases hdistinct : requireDistinct [] blocks with
  | ok => exact absurd (requireDistinct_nil_iff.mp hdistinct) h
  | error e =>
    obtain ⟨b, first, hclash, -⟩ := requireDistinct_nil_eq_error_iff.mp hdistinct
    exact ⟨b, first, hclash⟩

/-- Of files that can be read, one that cannot be scanned is the first or has the first before it. -/
theorem exists_firstFault (hreadable : ∀ file ∈ files, ∃ r, Scans markers t file r)
    (h : ∃ file ∈ files, ∃ e, Scans markers t file (.error e)) : ∃ e, FirstFault markers t files e := by
  obtain hall | ⟨before, file, after, rfl, hbefore, hnot⟩ :=
    forall_or_first (fun file => ∃ bs, Scans markers t file (.ok bs)) files
  · obtain ⟨file, hmem, e, hfault⟩ := h
    obtain ⟨bs, hfile⟩ := hall file hmem
    cases hfile.unique hfault
  · obtain ⟨r, hfile⟩ := hreadable file (List.mem_append_right before List.mem_cons_self)
    cases r with
    | ok bs => exact absurd ⟨bs, hfile⟩ hnot
    | error e => exact ⟨e, before, file, after, rfl, hbefore, hfile⟩

/-- Each file is scanned before any two blocks are compared, so a fault in the last one hides a clash
between the others. -/
theorem blocks_concatenate_or_clash (markers : Markers) (files : List String) (t : FileTree)
    (hreadable : ∀ file ∈ files, ∃ text,
      (FileSystem.readText file : StateM FileTree _).run t = (.ok text, t)) :
    (∀ blocks u, (Source.blocks markers files : StateM FileTree _).run t = (.ok blocks, u) ↔
      u = t ∧ ∃ found, List.Forall₂ (fun file bs => Scans markers t file (.ok bs)) files found ∧
        blocks = found.flatten ∧ (blocks.map (·.operation)).Nodup) ∧
    (∀ file bs, Scans markers t file (.ok bs) → InOrder file bs) ∧
    (∀ found, List.Forall₂ (fun file bs => Scans markers t file (.ok bs)) files found →
      ¬ (found.flatten.map (·.operation)).Nodup → ∃ b first, FirstClash found.flatten b first ∧
        (Source.blocks markers files : StateM FileTree _).run t =
          (.error (.block (clash b first)), t)) ∧
    ((∃ file ∈ files, ∃ e, Scans markers t file (.error e)) → ∃ e, FirstFault markers t files e ∧
      (Source.blocks markers files : StateM FileTree _).run t = (.error (.block e), t)) := by
  refine ⟨fun blocks u => run_blocks_eq_ok_iff, ?_, fun found hfound hclash => ?_, fun hfault => ?_⟩
  · rintro file bs ⟨text, -, hscan⟩
    exact Scanner.scan_inOrder hscan
  · obtain ⟨b, first, hfirst⟩ := exists_firstClash hclash
    exact ⟨b, first, hfirst, run_blocks_of_firstClash hfound hfirst⟩
  · have hscans : ∀ file ∈ files, ∃ r, Scans markers t file r := by
      intro file hfile
      obtain ⟨text, hread⟩ := hreadable file hfile
      exact ⟨_, text, hread, rfl⟩
    obtain ⟨e, hfirst⟩ := exists_firstFault hscans hfault
    exact ⟨e, hfirst, run_blocks_of_firstFault hfirst⟩

def twiceMarkers : Markers := ⟨"<", ">", []⟩

/-- The operation is named after the method. -/
def byMethod : String := "<\n\x7b\x7d\n>\nA::x(\n"

/-- The operation is named in the block. -/
def byFunction : String := "\n<\n\x7b\"REST_func\":\"x\"\x7d\n>\nA::y(\n"

def twiceTree : FileTree where
  entries := [
    (["a"], .file (Text.Utf8.encode byMethod.toList)),
    (["b"], .file (Text.Utf8.encode byFunction.toList)),
    (["c"], .file (Text.Utf8.encode "<".toList))]

theorem scans_byMethod : ∃ bs, Scans twiceMarkers twiceTree "a" (.ok bs) ∧
    bs.map (fun b => (b.operation, b.method)) = [("x", "x")] := by
  have hnames : ((Scanner.mk "a" twiceMarkers).scan byMethod).toOption.map
      (·.map fun b => (b.operation, b.method)) = some [("x", "x")] := by decide +kernel
  obtain ⟨bs, hscan, hnames⟩ := eq_ok_of_map_toOption hnames
  have hread := FileTree.run_readText_eq_ok_iff.mpr
    ⟨rfl, _, (by cbv : twiceTree.read "a" = _), Text.Utf8.decode?_encode byMethod.toList⟩
  exact ⟨bs, ⟨_, hread, hscan⟩, hnames⟩

theorem scans_byFunction : ∃ bs, Scans twiceMarkers twiceTree "b" (.ok bs) ∧
    bs.map (fun b => (b.operation, b.method)) = [("x", "y")] := by
  have hnames : ((Scanner.mk "b" twiceMarkers).scan byFunction).toOption.map
      (·.map fun b => (b.operation, b.method)) = some [("x", "y")] := by decide +kernel
  obtain ⟨bs, hscan, hnames⟩ := eq_ok_of_map_toOption hnames
  have hread := FileTree.run_readText_eq_ok_iff.mpr
    ⟨rfl, _, (by cbv : twiceTree.read "b" = _), Text.Utf8.decode?_encode byFunction.toList⟩
  exact ⟨bs, ⟨_, hread, hscan⟩, hnames⟩

theorem scans_unclosed : Scans twiceMarkers twiceTree "c" (.error (.placement "c" 1 (.unclosed "<" ">"))) := by
  have hread := FileTree.run_readText_eq_ok_iff.mpr
    ⟨rfl, _, (by cbv : twiceTree.read "c" = _), Text.Utf8.decode?_encode "<".toList⟩
  exact ⟨_, hread, by cbv⟩

theorem blocks_concatenate_or_clash_twice :
    (∃ blocks, (Source.blocks twiceMarkers ["b"] : StateM FileTree _).run twiceTree =
      (.ok blocks, twiceTree) ∧ blocks.map (fun b => (b.operation, b.method)) = [("x", "y")]) ∧
    (∃ xs ys b first, xs.map (fun b => (b.operation, b.method)) = [("x", "x")] ∧
      ys.map (fun b => (b.operation, b.method)) = [("x", "y")] ∧ FirstClash [xs, ys].flatten b first ∧
      (Source.blocks twiceMarkers ["a", "b"] : StateM FileTree _).run twiceTree =
        (.error (.block (clash b first)), twiceTree)) ∧
    ∃ e, FirstFault twiceMarkers twiceTree ["a", "b", "c"] e ∧
      (Source.blocks twiceMarkers ["a", "b", "c"] : StateM FileTree _).run twiceTree =
        (.error (.block e), twiceTree) := by
  obtain ⟨xs, hxs, hxnames⟩ := scans_byMethod
  obtain ⟨ys, hys, hynames⟩ := scans_byFunction
  have hxops : xs.map (·.operation) = ["x"] := by
    simpa using congrArg (List.map Prod.fst) hxnames
  have hyops : ys.map (·.operation) = ["x"] := by
    simpa using congrArg (List.map Prod.fst) hynames
  obtain ⟨hok, -, -, -⟩ := blocks_concatenate_or_clash twiceMarkers ["b"] twiceTree
    (List.forall_mem_singleton.mpr hys.readable)
  obtain ⟨-, -, hclash, -⟩ := blocks_concatenate_or_clash twiceMarkers ["a", "b"] twiceTree
    (List.forall_mem_cons.mpr ⟨hxs.readable, List.forall_mem_singleton.mpr hys.readable⟩)
  obtain ⟨-, -, -, hfault⟩ := blocks_concatenate_or_clash twiceMarkers ["a", "b", "c"] twiceTree
    (List.forall_mem_cons.mpr ⟨hxs.readable, List.forall_mem_cons.mpr
      ⟨hys.readable, List.forall_mem_singleton.mpr scans_unclosed.readable⟩⟩)
  refine ⟨⟨ys, (hok ys twiceTree).mpr ⟨rfl, [ys], .cons hys .nil, by simp, by simp [hyops]⟩, hynames⟩, ?_,
    hfault ⟨"c", by simp, _, scans_unclosed⟩⟩
  obtain ⟨b, first, hfirst, hrun⟩ := hclash [xs, ys] (.cons hxs (.cons hys .nil)) (by simp [hxops, hyops])
  exact ⟨xs, ys, b, first, hxnames, hynames, hfirst, hrun⟩

end Source

end RestRoutes
