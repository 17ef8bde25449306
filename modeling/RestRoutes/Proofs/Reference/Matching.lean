import Mathlib.Data.List.Forall2
import Mathlib.Data.List.Nodup
import Mathlib.Logic.ExistsUnique
import RestRoutes.Notice
import RestRoutes.Proofs.Block.Sources
import RestRoutes.Proofs.Route.Table
import RestRoutes.Reference.Entry

namespace RestRoutes

/-- The last of some blocks that documents an operation, or none when no block does. -/
def LastFor (blocks : List Block) (operation : String) : Option Block → Prop
  | none => ∀ b ∈ blocks, b.operation ≠ operation
  | some b => ∃ before after, blocks = before ++ b :: after ∧ b.operation = operation ∧
      ∀ c ∈ after, c.operation ≠ operation

/-- What the entry of a route holds. -/
structure ReferenceEntry.Presents (blocks : List Block) (r : Route) (e : ReferenceEntry) : Prop where
  path : e.path = r.path
  method : e.method = r.method
  operation : e.operation = r.operation
  key : e.key = r.key
  block : LastFor blocks r.operation e.block
  purpose : e.purpose = (e.block.bind (·.payload.purpose)).or r.summary

namespace ReferenceEntry

theorem blockFor?_lastFor (blocks : List Block) (operation : String) :
    LastFor blocks operation (blockFor? blocks operation) := by
  cases h : blockFor? blocks operation with
  | none =>
    intro b hb
    have hnone := List.find?_eq_none.mp h b (List.mem_reverse.mpr hb)
    simpa using hnone
  | some b =>
    obtain ⟨hb, before, after, hsplit, hbefore⟩ := List.find?_eq_some_iff_append.mp h
    refine ⟨after.reverse, before.reverse, ?_, by simpa using hb, ?_⟩
    · rw [← List.reverse_reverse blocks, hsplit]
      simp
    · intro c hc
      simpa using hbefore c (List.mem_reverse.mp hc)

theorem presents_ofRoute (blocks : List Block) (r : Route) : Presents blocks r (ofRoute blocks r) :=
  ⟨rfl, rfl, rfl, rfl, blockFor?_lastFor blocks r.operation, rfl⟩

theorem all_presents (routes : List Route) (blocks : List Block) :
    List.Forall₂ (Presents blocks) routes (all routes blocks) := by
  rw [all, List.forall₂_map_right_iff, List.forall₂_same]
  intro r _
  exact presents_ofRoute blocks r

/-- Among blocks of different operations every block is the last one for its own. -/
theorem blockFor?_eq_some_iff {blocks : List Block} (hd : (blocks.map (·.operation)).Nodup)
    {operation : String} {b : Block} :
    blockFor? blocks operation = some b ↔ b ∈ blocks ∧ b.operation = operation := by
  rw [blockFor?, ← Option.mem_toList, ← filter_operation_eq_toList hd, List.mem_filter, decide_eq_true_eq]

end ReferenceEntry

/-- The entry at this position shows the block. -/
def Shows (routes : List Route) (blocks : List Block) (i : Nat) (b : Block) : Prop :=
  ∃ e, (ReferenceEntry.all routes blocks)[i]? = some e ∧ e.block = some b

/-- What is told of the blocks that document nothing. -/
def warnings (routes : List Route) (blocks : List Block) : List Notice :=
  (ReferenceEntry.unmatched routes blocks).map .unmatched

def Warns (routes : List Route) (blocks : List Block) (j : Nat) (b : Block) : Prop :=
  (warnings routes blocks)[j]? = some (.unmatched b)

/-- No block is lost and none is used twice. -/
structure Accounted (routes : List Route) (blocks : List Block) : Prop where
  each : ∀ b ∈ blocks,
    ((∃! i, Shows routes blocks i b) ∧ ∀ j, ¬ Warns routes blocks j b) ∨
    ((∃! j, Warns routes blocks j b) ∧ ∀ i, ¬ Shows routes blocks i b)
  /-- An entry shows no block but one that names its operation, itself or by its method. -/
  named : ∀ e ∈ ReferenceEntry.all routes blocks, ∀ b, e.block = some b →
    b ∈ blocks ∧ e.operation = b.payload.function.getD b.method
  /-- Warnings stand in the order of the blocks. -/
  ordered : ∃ bs : List Block, bs.Sublist blocks ∧ warnings routes blocks = bs.map .unmatched
  told : ∀ n ∈ warnings routes blocks,
    n.severity = .warning ∧ n.message = "annotation does not match any operationId"

theorem existsUnique_getElem? {α : Type} {as : List α} {a : α} (hd : as.Nodup) (ha : a ∈ as) :
    ∃! i : Nat, as[i]? = some a := by
  obtain ⟨i, hi⟩ := List.mem_iff_getElem?.mp ha
  refine ⟨i, hi, ?_⟩
  intro j hj
  obtain ⟨hj', -⟩ := List.getElem?_eq_some_iff.mp hj
  exact (List.getElem?_inj hj' hd).mp (hj.trans hi.symm)

section

variable {routes : List Route} {blocks : List Block} {b : Block}

theorem shows_iff (hd : (blocks.map (·.operation)).Nodup) (hb : b ∈ blocks) (i : Nat) :
    Shows routes blocks i b ↔ (routes.map (·.operation))[i]? = some b.operation := by
  simp only [Shows, ReferenceEntry.all, List.getElem?_map, Option.map_eq_some_iff]
  constructor
  · rintro ⟨e, ⟨r, hr, rfl⟩, hblock⟩
    exact ⟨r, hr, ((ReferenceEntry.blockFor?_eq_some_iff hd).mp hblock).2.symm⟩
  · rintro ⟨r, hr, hop⟩
    exact ⟨_, ⟨r, hr, rfl⟩, (ReferenceEntry.blockFor?_eq_some_iff hd).mpr ⟨hb, hop.symm⟩⟩

theorem warns_iff (j : Nat) :
    Warns routes blocks j b ↔ (ReferenceEntry.unmatched routes blocks)[j]? = some b := by
  simp [Warns, warnings, List.getElem?_map]

theorem mem_unmatched_iff : b ∈ ReferenceEntry.unmatched routes blocks ↔
    b ∈ blocks ∧ b.operation ∉ routes.map (·.operation) := by
  simp [ReferenceEntry.unmatched]

theorem accounted (hd : (blocks.map (·.operation)).Nodup) (hr : (routes.map (·.operation)).Nodup) :
    Accounted routes blocks := by
  have hunmatched : (ReferenceEntry.unmatched routes blocks).Nodup := (List.Nodup.of_map _ hd).filter _
  refine ⟨?_, ?_, ⟨_, List.filter_sublist, rfl⟩, ?_⟩
  · intro b hb
    simp only [shows_iff hd hb, warns_iff]
    by_cases hop : b.operation ∈ routes.map (·.operation)
    · left
      refine ⟨existsUnique_getElem? hr hop, fun j hj => ?_⟩
      exact (mem_unmatched_iff.mp (List.mem_of_getElem? hj)).2 hop
    · right
      refine ⟨existsUnique_getElem? hunmatched (mem_unmatched_iff.mpr ⟨hb, hop⟩), fun i hi => ?_⟩
      exact hop (List.mem_of_getElem? hi)
  · intro e he b hblock
    obtain ⟨r, -, rfl⟩ := List.mem_map.mp he
    obtain ⟨hb, hop⟩ := (ReferenceEntry.blockFor?_eq_some_iff hd).mp hblock
    exact ⟨hb, hop.symm⟩
  · intro n hn
    obtain ⟨b, -, rfl⟩ := List.mem_map.mp hn
    exact ⟨rfl, rfl⟩

end

/-- The names are unique on both sides, so the join loses nothing; for any other list of blocks an entry
has the last one that names its operation. -/
theorem blocks_accounted :
    (∀ (markers : Markers) (files : List String) (t u : FileTree) (blocks : List Block) (text : String)
      (d : ApiDocument) (p : Policy) (routes : List Route),
      (Source.blocks markers files : StateM FileTree _).run t = (.ok blocks, u) →
      ApiDocument.ofText text = .ok d → Route.table p d.operations = .ok routes →
      Accounted routes blocks) ∧
    ∀ (routes : List Route) (blocks : List Block),
      List.Forall₂ (ReferenceEntry.Presents blocks) routes (ReferenceEntry.all routes blocks) := by
  refine ⟨?_, ReferenceEntry.all_presents⟩
  intro markers files t u blocks text d p routes hblocks hd hroutes
  obtain ⟨-, -, hserves⟩ := Route.table_eq_ok hroutes
  apply accounted (Source.distinct_of_run_blocks hblocks)
  rw [Route.map_operation hserves]
  exact ApiDocument.ofText_distinct hd

def crossedMarkers : Markers := ⟨"<", ">", []⟩

def crossedSource : String :=
  "<\n\x7b\"REST_func\":\"y\"\x7d\n>\nA::x(\n" ++
    "<\n\x7b\"REST_func\":\"x\"\x7d\n>\nA::y(\n" ++ "<\n\x7b\x7d\n>\nA::z(\n"

def crossedTree : FileTree := ⟨[(["a.cpp"], .file (Text.Utf8.encode crossedSource.toList))], []⟩

def crossedText : String :=
  "\x7b\"paths\":\x7b\"/a\":\x7b\"get\":\x7b\"operationId\":\"x\"\x7d," ++
    "\"put\":\x7b\"operationId\":\"y\"\x7d\x7d\x7d\x7d"

def crossedDocument : ApiDocument where
  operations := [
    { path := "/a", method := .get, id := "x" },
    { path := "/a", method := .put, id := "y" }]

theorem blocks_accounted_crossed : ∃ blocks routes,
    (Source.blocks crossedMarkers ["a.cpp"] : StateM FileTree _).run crossedTree =
      (.ok blocks, crossedTree) ∧
    blocks.map (fun b => (b.operation, b.method)) = [("y", "x"), ("x", "y"), ("z", "z")] ∧
    ApiDocument.ofText crossedText = .ok crossedDocument ∧
    Route.table {} crossedDocument.operations = .ok routes ∧ Accounted routes blocks := by
  have hread : (FileSystem.readText "a.cpp" : StateM FileTree _).run crossedTree =
      (.ok crossedSource, crossedTree) :=
    FileTree.run_readText_eq_ok_iff.mpr ⟨rfl, _, by cbv, Text.Utf8.decode?_encode _⟩
  have hnames : ((Scanner.mk "a.cpp" crossedMarkers).scan crossedSource).toOption.map
      (·.map fun b => (b.operation, b.method)) = some [("y", "x"), ("x", "y"), ("z", "z")] := by
    decide +kernel
  have hd : ApiDocument.ofText crossedText = .ok crossedDocument := by cbv
  obtain ⟨routes, hroutes⟩ : ∃ routes, Route.table {} crossedDocument.operations = .ok routes :=
    ⟨_, rfl⟩
  obtain ⟨blocks, hscan, hnames⟩ := eq_ok_of_map_toOption hnames
  have hdistinct : requireDistinct [] blocks = .ok () := by
    have hops := congrArg (List.map Prod.fst) hnames
    rw [List.map_map] at hops
    apply requireDistinct_nil_iff.mpr
    change (blocks.map (Prod.fst ∘ fun b => (b.operation, b.method))).Nodup
    rw [hops]
    decide
  have hall : (Source.scanAll crossedMarkers ["a.cpp"] : StateM FileTree _).run crossedTree =
      (.ok blocks, crossedTree) := by
    refine run_bind_eq_iff.mpr ⟨_, _, hread, ?_⟩
    simp only [hscan]
    exact run_bind_eq_iff.mpr ⟨.ok [], _, rfl, run_pure_eq_iff.mpr ⟨by rw [List.append_nil], rfl⟩⟩
  have hblocks : (Source.blocks crossedMarkers ["a.cpp"] : StateM FileTree _).run crossedTree =
      (.ok blocks, crossedTree) := by
    refine run_bind_eq_iff.mpr ⟨_, _, hall, ?_⟩
    simp only [hdistinct]
    rfl
  exact ⟨blocks, routes, hblocks, hnames, hd, hroutes,
    blocks_accounted.1 _ _ _ _ _ _ _ _ _ hblocks hd hroutes⟩

end RestRoutes
