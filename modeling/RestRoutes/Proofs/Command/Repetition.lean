import Mathlib.Data.List.Forall2
import Mathlib.Data.List.Nodup
import Mathlib.Tactic.Choose
import RestRoutes.Proofs.Block.Composition
import RestRoutes.Proofs.Block.Sources
import RestRoutes.Proofs.Command.Frame
import RestRoutes.Proofs.Files.Collection
import RestRoutes.Proofs.Files.Spelling

namespace RestRoutes

open FileTree

/-- The block as the scanner finds it in another file. -/
def Block.moved (file : String) (b : Block) : Block := { b with location := { b.location with file } }

@[simp] theorem Block.operation_moved (file : String) (b : Block) : (b.moved file).operation = b.operation :=
  rfl

namespace Scanner

variable {file : String} {markers : Markers} {state state' : ScanState} {found : Option Block}
  {line : Line} {lines : List Line} {n : Nat} {bs : List Block}

theorem Takes.moved (h : Takes ⟨file, markers⟩ n state line state' found) (other : String) :
    Takes ⟨other, markers⟩ n state line state' (found.map (·.moved other)) := by
  cases h with
  | plain h => exact .plain h
  | opening h => exact .opening h
  | body h => exact .body h
  | closing h read => exact .closing h (close_eq_ok_iff.mpr (close_eq_ok_iff.mp read))
  | gap h => exact .gap h
  | definition h found => exact .definition h found

theorem scanFrom_moved (h : (Scanner.mk file markers).scanFrom state n lines = .ok bs) (other : String) :
    (Scanner.mk other markers).scanFrom state n lines = .ok (bs.map (·.moved other)) := by
  induction lines generalizing state n bs with
  | nil =>
    obtain ⟨u, hfinish, h⟩ := bind_eq_ok_iff.mp h
    cases h
    obtain rfl := finish_eq_ok hfinish
    rfl
  | cons line lines ih =>
    obtain ⟨⟨state', found⟩, hstep, h⟩ := bind_eq_ok_iff.mp h
    obtain ⟨more, hmore, h⟩ := bind_eq_ok_iff.mp h
    cases h
    rw [scanFrom_cons ((takes_of_step hstep).moved other), ih hmore]
    cases found with
    | none => rfl
    | some b => rfl

end Scanner

namespace Source

variable {t : FileTree} {extensions sources extra files more : List String} {markers : Markers}
  {file twin other : String} {bs : List Block}

/-- Two paths to one text: what is scanned behind the one is scanned behind the other. -/
theorem Scans.moved (h : Scans markers t twin (.ok bs))
    (hsame : (FileSystem.readText file : StateM FileTree _).run t =
      (FileSystem.readText twin : StateM FileTree _).run t) :
    Scans markers t file (.ok (bs.map (·.moved file))) := by
  obtain ⟨text, hread, hscan⟩ := h
  exact ⟨text, hsame.trans hread, Scanner.scanFrom_moved hscan file⟩

/-- A further source leads to a file that is a source or is found below one, or to a directory that is a source
or stands below one. -/
inductive Repeats (t : FileTree) (extensions sources : List String) (other : String) : Prop where
  | file (hsource : source ∈ sources) (hlisted : t.locate true source = .ok (.found l (.file bytes)))
    (h : t.locate true other = .ok (.found l (.file bytes)))
  | below (hsource : source ∈ sources) (hlisted : t.locate true source = .ok (.found base .directory))
    (h : t.locate true other = .ok (.found (base ++ names) (.file bytes)))
    (hextension : HasExtension extensions names)
  | directory (hsource : source ∈ sources) (hlisted : t.locate true source = .ok (.found base .directory))
    (h : t.locate true other = .ok (.found (base ++ names) .directory))

theorem Repeats.kind_ne_none (h : Repeats t extensions sources other) : t.kind other ≠ none := by
  cases h with
  | file _ _ h => rw [kind_eq_file.mpr ⟨_, _, h⟩]; nofun
  | below _ _ h _ => rw [kind_eq_file.mpr ⟨_, _, h⟩]; nofun
  | directory _ _ h => rw [kind_eq_directory.mpr ⟨_, h⟩]; nofun

/-- Whatever it stands for, a source that was there before stands for the same file. -/
theorem Repeats.exists_kept (h : Repeats t extensions sources other) (ht : t.WellFormed) (hnamed : t.Named)
    (hfile : StandsFor t extensions other file) : ∃ source ∈ sources, ∃ kept l bytes,
      StandsFor t extensions source kept ∧ t.Leads kept l (.file bytes) ∧ t.Leads file l (.file bytes) := by
  cases h with
  | @file source l bytes hsource hlisted h =>
    cases hfile with
    | itself =>
      exact ⟨source, hsource, source, l, bytes, .itself (kind_eq_file.mpr ⟨l, bytes, hlisted⟩),
        (leads_of_locate hlisted).2, (leads_of_locate h).2⟩
    | below h' => cases h.symm.trans h'
  | @below source base names bytes hsource hlisted h hextension =>
    cases hfile with
    | itself =>
      obtain ⟨hempty, hleads⟩ := leads_of_locate hlisted
      have hget := get?_of_locate h
      exact ⟨source, hsource, _, _, bytes, .below hlisted hget hextension,
        hleads.join hempty ht hnamed hextension.ne_nil hget, (leads_of_locate h).2⟩
    | below h' => cases h.symm.trans h'
  | @directory source base names hsource hlisted h =>
    cases hfile with
    | itself hkind =>
      obtain ⟨l, bytes, h'⟩ := kind_eq_file.mp hkind
      cases h.symm.trans h'
    | @below _ bytes more h' hget hextension =>
      cases h.symm.trans h'
      obtain ⟨hempty, hleads⟩ := leads_of_locate hlisted
      obtain ⟨hempty', hleads'⟩ := leads_of_locate h
      have hadded := hleads'.join hempty' ht hnamed hextension.ne_nil hget
      rw [List.append_assoc] at hget hadded
      have hne : names ++ more ≠ [] := List.append_ne_nil_of_right_ne_nil _ hextension.ne_nil
      exact ⟨source, hsource, _, _, bytes, .below hlisted hget (hextension.append names),
        hleads.join hempty ht hnamed hne hget, hadded⟩

/-- The one path leads to the file that the other one finds. -/
def SameFile (t : FileTree) (file twin : String) : Prop :=
  ∃ l bytes, t.Leads file l (.file bytes) ∧ t.locate true twin = .ok (.found l (.file bytes))

theorem exists_twin (hcollected : Collected t extensions sources files)
    (hreadable : ∀ twin ∈ files, ∃ bytes, t.read twin = .ok bytes) (ht : t.WellFormed) (hnamed : t.Named)
    (h : Repeats t extensions sources other) (hfile : StandsFor t extensions other file) :
    ∃ twin ∈ files, SameFile t file twin := by
  obtain ⟨source, hsource, kept, l, bytes, hkept, hleads, hsame⟩ := h.exists_kept ht hnamed hfile
  obtain ⟨twin, htwin, hparts⟩ := hcollected.complete source hsource kept hkept
  obtain ⟨bytes', hread⟩ := hreadable twin htwin
  obtain ⟨l', hfound⟩ := read_eq_ok_iff.mp hread
  obtain ⟨rfl, hbytes⟩ := hleads.unique (leads_of_locate hfound).2 hparts
  cases hbytes
  exact ⟨twin, htwin, l', bytes, hsame, hfound⟩

/-- The same text is read, unless the one path is none. -/
theorem SameFile.readText_cases (h : SameFile t file twin) :
    (FileSystem.readText file : StateM FileTree _).run t =
      (FileSystem.readText twin : StateM FileTree _).run t ∨
      ∃ e, checkPath file = .error e ∧ (FileSystem.readText file : StateM FileTree _).run t = (.error e, t) := by
  obtain ⟨l, bytes, hleads, hfound⟩ := h
  cases hpath : checkPath file with
  | ok q =>
    have hfile := read_eq_ok_iff.mpr ⟨l, hleads.locate hpath⟩
    exact .inl (run_readText_congr (hfile.trans (read_eq_ok_iff.mpr ⟨l, hfound⟩).symm))
  | error e =>
    have hread : t.read file = .error e := by
      rw [FileTree.read, FileTree.locate, hpath]
      rfl
    exact .inr ⟨e, rfl, run_readText_eq_error hread⟩

/-- What is collected stays in front. -/
theorem exists_collected_append (ht : t.WellFormed) {offered added : List (List String)}
    (hoffered : List.Forall₂ (Offers t extensions) sources offered)
    (hadded : List.Forall₂ (Offers t extensions) extra added) : ∃ more,
      (collect extensions (sources ++ extra) : StateM FileTree _).run t =
        (.ok (firsts offered.flatten ++ more), t) ∧
      ∀ file ∈ more, Path.parts file ∉ (firsts offered.flatten).map Path.parts ∧
        ∃ other ∈ extra, StandsFor t extensions other file := by
  obtain ⟨more, hmore, hsub⟩ := exists_distinct_append [] offered.flatten added.flatten
  rw [distinct_nil_eq, distinct_nil_eq, ← List.flatten_append] at hmore
  have hall := List.rel_append hoffered hadded
  refine ⟨more, hmore ▸ run_collect_of_offers ht hall, fun file hfile => ⟨fun hold => ?_, ?_⟩⟩
  · have hdistinct := (collected_of_offers ht hall).distinct
    rw [hmore, List.map_append] at hdistinct
    exact List.disjoint_of_nodup_append hdistinct hold (List.mem_map_of_mem hfile)
  obtain ⟨paths, hpaths, hmem⟩ := List.mem_flatten.mp (hsub.subset hfile)
  obtain ⟨other, hother, hoffers⟩ := exists_related hadded.flip hpaths
  exact ⟨other, hother, (hoffers.mem_iff ht).mp hmem⟩

theorem exists_offers_of_collect (ht : t.WellFormed) (h : answer (collect extensions sources) t = .ok files) :
    ∃ offered, List.Forall₂ (Offers t extensions) sources offered ∧ files = firsts offered.flatten := by
  have hrun := (keeps_collect extensions sources).run_eq_iff.mpr ⟨h, rfl⟩
  obtain hall | ⟨missing, hmissing⟩ := all_exist_or t sources
  · obtain ⟨offered, hoffered⟩ := exists_all_offers extensions hall
    cases hrun.symm.trans (run_collect_of_offers ht hoffered)
    exact ⟨offered, hoffered, rfl⟩
  · cases hrun.symm.trans (run_collect_of_firstMissing ht hmissing)

variable {found : List (List Block)}

/-- A file can be scanned and names operations that were named before. -/
def ScansAgain (markers : Markers) (t : FileTree) (operations : List String) (file : String) : Prop :=
  ∃ bs, Scans markers t file (.ok bs) ∧ ∀ b ∈ bs, b.operation ∈ operations

theorem SameFile.scansAgain (h : SameFile t file twin) (htwin : twin ∈ files)
    (hfound : List.Forall₂ (fun file bs => Scans markers t file (.ok bs)) files found) :
    ScansAgain markers t (found.flatten.map (·.operation)) file ∨
      ∃ e, checkPath file = .error e ∧ (FileSystem.readText file : StateM FileTree _).run t = (.error e, t) := by
  refine h.readText_cases.imp_left fun hsame => ?_
  obtain ⟨bs, hbs, hscan⟩ := exists_related hfound htwin
  refine ⟨_, hscan.moved hsame, List.forall_mem_map.mpr fun b hb => ?_⟩
  exact List.mem_map.mpr ⟨b, List.mem_flatten.mpr ⟨bs, hbs, hb⟩, rfl⟩

/-- Why files that have been scanned under another path are refused. -/
inductive Refused (files more : List String) : SourceError → Prop where
  | unreadable {path : String} (hmem : path ∈ more) (hpath : checkPath path = .error e) :
    Refused files more (.unreadable path e)
  | documented {b first : Block} (hfirst : first.location.file ∈ files) (hb : b.location.file ∈ more)
    (hsame : first.operation = b.operation) : Refused files more (.block (clash b first))

theorem run_blocks_of_nil (hfound : List.Forall₂ (fun file bs => Scans markers t file (.ok bs)) files found)
    (hdistinct : (found.flatten.map (·.operation)).Nodup)
    (hmore : ∀ file ∈ more, Scans markers t file (.ok [])) :
    (Source.blocks markers (files ++ more) : StateM FileTree _).run t = (.ok found.flatten, t) := by
  have hnone : List.Forall₂ (fun file bs => Scans markers t file (.ok bs)) more (more.map fun _ => []) :=
    List.forall₂_map_right_iff.mpr (List.forall₂_same.mpr hmore)
  have hempty : (more.map fun _ => ([] : List Block)).flatten = [] := by
    rw [List.flatten_eq_nil_iff]
    exact List.forall_mem_map.mpr fun _ _ => rfl
  refine run_blocks_eq_ok_iff.mpr ⟨rfl, _, List.rel_append hfound hnone, ?_, hdistinct⟩
  rw [List.flatten_append, hempty, List.append_nil]

/-- Of files that were scanned before, the first that cannot be read or else the first block is refused. -/
theorem exists_refused (hfound : List.Forall₂ (fun file bs => Scans markers t file (.ok bs)) files found)
    (hdistinct : (found.flatten.map (·.operation)).Nodup)
    (hmore : ∀ file ∈ more, ∃ twin ∈ files, SameFile t file twin)
    (h : ¬ ∀ file ∈ more, Scans markers t file (.ok [])) : ∃ e, Refused files more e ∧
      (Source.blocks markers (files ++ more) : StateM FileTree _).run t = (.error e, t) := by
  obtain hall | ⟨before, file, after, rfl, hbefore, hnot⟩ :=
    forall_or_first (ScansAgain markers t (found.flatten.map (·.operation))) more
  · choose! added hadded using hall
    have hscans : List.Forall₂ (fun file bs => Scans markers t file (.ok bs)) more (more.map added) :=
      List.forall₂_map_right_iff.mpr (List.forall₂_same.mpr fun file hfile => (hadded file hfile).1)
    cases hblocks : (more.map added).flatten with
    | nil =>
      rw [List.flatten_eq_nil_iff, List.forall_mem_map] at hblocks
      exact absurd (fun file hfile => hblocks file hfile ▸ (hadded file hfile).1) h
    | cons b rest =>
      have hmem : b ∈ (more.map added).flatten := hblocks ▸ List.mem_cons_self
      obtain ⟨bs, hbs, hb⟩ := List.mem_flatten.mp hmem
      obtain ⟨file, hfile, rfl⟩ := List.mem_map.mp hbs
      obtain ⟨first, hfirst, hsame, hclash⟩ := exists_clash hdistinct ((hadded file hfile).2 b hb) rest
      refine ⟨_, .documented (location_of_scans hfound hfirst) (location_of_scans hscans hmem) hsame,
        run_blocks_of_firstClash (List.rel_append hfound hscans) ?_⟩
      rwa [List.flatten_append, hblocks]
  · obtain ⟨twin, htwin, hsame⟩ := hmore file (by simp)
    obtain ⟨e, hpath, hread⟩ := (hsame.scansAgain htwin hfound).resolve_left hnot
    refine ⟨_, .unreadable (by simp) hpath, ?_⟩
    rw [← List.append_assoc]
    refine run_blocks_of_unreadable (fun other hother => ?_) hread
    rcases List.mem_append.mp hother with hold | hnew
    · obtain ⟨bs, -, hscan⟩ := exists_related hfound hold
      exact ⟨bs, hscan⟩
    · obtain ⟨bs, hscan, -⟩ := hbefore other hnew
      exact ⟨bs, hscan⟩

end Source

/-- The same request with further sources behind the others. -/
def GenerateOptions.adding (o : GenerateOptions) (extra : List String) : GenerateOptions :=
  { o with sources := o.sources ++ extra }

variable {o : GenerateOptions} {t : FileTree} {i : Inputs} {extra : List String}

/-- What is read decides what is done. -/
theorem GenerateOptions.run_adding (hi : answer (Inputs.read o) t = .ok i)
    (h : answer (Inputs.read (o.adding extra)) t = .ok i) :
    ((o.adding extra).run : StateM FileTree Outcome).run t = (o.run : StateM FileTree Outcome).run t := by
  have hread (p : GenerateOptions) : (p.run : StateM FileTree Outcome).run t = _ :=
    (Inputs.keeps_read p).run_bind _ t
  rw [hread, hread, hi, h]
  rfl

/-- Inputs that could be read, taken apart. -/
theorem Inputs.answer_read_eq_ok (hi : answer (Inputs.read o) t = .ok i) :
    answer (Config.read o.config) t = .ok i.config ∧ answer (ApiDocument.read o.spec) t = .ok i.document ∧
    ∃ files, answer (Source.collect i.config.scan.extensions o.sources) t = .ok files ∧
      answer (Source.blocks i.config.scan.markers files) t = .ok i.blocks := by
  simp only [Inputs.answer_read, Source.answer_read, bind_eq_ok_iff, mapError_eq_ok_iff] at hi
  obtain ⟨c, hc, d, hd, bs, ⟨files, hfiles, hbs⟩, hi⟩ := hi
  cases hi
  exact ⟨hc, hd, files, hfiles, hbs⟩

/-- What further sources add to the collected files are paths with other parts that lead to the same files. When
none of these holds a block, the run is the one without them; otherwise it is refused. -/
theorem repeated_sources_iff (ht : t.WellFormed) (hnamed : t.Named) (hi : answer (Inputs.read o) t = .ok i)
    (hextra : ∀ other ∈ extra, Source.Repeats t i.config.scan.extensions o.sources other) :
    ∃ files more, answer (Source.collect i.config.scan.extensions o.sources) t = .ok files ∧
      answer (Source.collect i.config.scan.extensions (o.sources ++ extra)) t = .ok (files ++ more) ∧
      (∀ file ∈ more, Path.parts file ∉ files.map Path.parts ∧ ∃ twin ∈ files, Source.SameFile t file twin) ∧
      ((∀ file ∈ more, Source.Scans i.config.scan.markers t file (.ok [])) →
        ((o.adding extra).run : StateM FileTree Outcome).run t = (o.run : StateM FileTree Outcome).run t) ∧
      ((∃ file ∈ more, ¬ Source.Scans i.config.scan.markers t file (.ok [])) → ∃ e,
        Source.Refused files more e ∧
          ((o.adding extra).run : StateM FileTree Outcome).run t = (⟨.error (.source e), []⟩, t)) := by
  obtain ⟨hc, hd, files, hfiles, hbs⟩ := Inputs.answer_read_eq_ok hi
  obtain ⟨offered, hoffered, rfl⟩ := Source.exists_offers_of_collect ht hfiles
  obtain ⟨added, hadded⟩ := Source.exists_all_offers i.config.scan.extensions
    fun other hother => (hextra other hother).kind_ne_none
  obtain ⟨more, hmore, hnew⟩ := Source.exists_collected_append ht hoffered hadded
  obtain ⟨-, found, hfound, hblocks, hdistinct⟩ :=
    Source.run_blocks_eq_ok_iff.mp ((Source.keeps_blocks _ _).run_eq_iff.mpr ⟨hbs, rfl⟩)
  rw [hblocks] at hdistinct
  have htwins : ∀ file ∈ more, ∃ twin ∈ Source.firsts offered.flatten, Source.SameFile t file twin := by
    intro file hfile
    obtain ⟨-, other, hother, hstands⟩ := hnew file hfile
    refine Source.exists_twin (Source.collected_of_offers ht hoffered) (fun twin htwin => ?_) ht hnamed
      (hextra other hother) hstands
    obtain ⟨bs, -, text, hread, -⟩ := exists_related hfound htwin
    obtain ⟨-, bytes, hbytes, -⟩ := run_readText_eq_ok_iff.mp hread
    exact ⟨bytes, hbytes⟩
  replace hmore := ((Source.keeps_collect _ _).run_eq_iff.mp hmore).1
  refine ⟨_, more, hfiles, hmore, fun file hfile => ⟨(hnew file hfile).1, htwins file hfile⟩, fun hnone => ?_,
    fun hsome => ?_⟩
  · have hsame := ((Source.keeps_blocks _ _).run_eq_iff.mp (Source.run_blocks_of_nil hfound hdistinct hnone)).1
    rw [← hblocks] at hsame
    refine GenerateOptions.run_adding hi ?_
    simp only [Inputs.answer_read, Source.answer_read, bind_eq_ok_iff, mapError_eq_ok_iff]
    exact ⟨_, hc, _, hd, _, ⟨_, hmore, hsame⟩, rfl⟩
  · obtain ⟨e, hrefused, hrun⟩ := Source.exists_refused hfound hdistinct htwins (by simpa using hsome)
    have hfails := ((Source.keeps_blocks _ _).run_eq_iff.mp hrun).1
    have hfailed : (o.adding extra).FailsEarly t (.source e) := .blocks hc hd hmore hfails
    exact ⟨e, hrefused, hfailed.run_eq⟩

/-- The API is one of no operations, so that the block documents none of them. -/
def handlerTree (bytes : List UInt8) : FileTree :=
  ⟨(["s", "a.h"], .file bytes) :: (["s", "b.h"], .file []) :: bareTree.entries, []⟩

def handlerText : String := fileText (bare []).lines

def handlerBytes : List UInt8 := Text.Utf8.encode handlerText.toList

theorem locations_handlerTree (bytes : List UInt8) :
    (handlerTree bytes).locations = [["s", "a.h"], ["s", "b.h"], ["a"], ["s"]] := rfl

theorem wellFormed_handlerTree (bytes : List UInt8) : (handlerTree bytes).WellFormed := by
  refine ⟨?_, ?_, ?_, rfl⟩
  · rw [locations_handlerTree]
    decide
  · rw [locations_handlerTree]
    decide
  · rw [locations_handlerTree]
    simp [FileTree.get?, handlerTree, bareTree, List.lookup_cons]

theorem named_handlerTree (bytes : List UInt8) : (handlerTree bytes).Named := by
  rw [Named, locations_handlerTree]
  decide

/-- One block is found under every path to the file. -/
theorem scans_handler : ∃ b : Block, ∀ file, (handlerTree handlerBytes).read file = .ok handlerBytes →
    Source.Scans {} (handlerTree handlerBytes) file (.ok [b.moved file]) := by
  obtain ⟨b, hscan, -⟩ := exists_scan_passage (by decide) (bare_fits (by simp)) (bare_readable [])
  refine ⟨b, fun file h => ⟨handlerText, ?_, Scanner.scanFrom_moved hscan file⟩⟩
  exact run_readText_eq_ok_iff.mpr ⟨rfl, _, h, Text.Utf8.decode?_encode handlerText.toList⟩

theorem scans_empty {t : FileTree} {file : String} (h : t.read file = .ok []) :
    Source.Scans {} t file (.ok []) :=
  ⟨"", run_readText_eq_ok_iff.mpr ⟨rfl, [], h, rfl⟩, rfl⟩

/-- What is collected, and what is read of it. -/
theorem collect_handlerTree (bytes : List UInt8) :
    answer (Source.collect ({} : ScanOptions).extensions ["s"]) (handlerTree bytes) = .ok ["s/a.h", "s/b.h"] ∧
    (handlerTree bytes).read "s/a.h" = .ok bytes ∧ (handlerTree bytes).read "s/b.h" = .ok [] :=
  ⟨by cbv, by cbv, by cbv⟩

/-- The inputs with the one block. -/
def handlerInputs (b : Block) : Inputs := { bareInputs with blocks := [b] }

theorem read_handlerTree : ∃ b,
    answer (Inputs.read (bareOptions "r" "d")) (handlerTree handlerBytes) = .ok (handlerInputs b) := by
  obtain ⟨hcollect, hread, hempty⟩ := collect_handlerTree handlerBytes
  obtain ⟨b, hscan⟩ := scans_handler
  have hblocks : answer (Source.blocks {} ["s/a.h", "s/b.h"]) (handlerTree handlerBytes) =
      .ok [b.moved "s/a.h"] :=
    ((Source.keeps_blocks _ _).run_eq_iff.mp (Source.run_blocks_eq_ok_iff.mpr ⟨rfl, [[b.moved "s/a.h"], []],
      .cons (hscan _ hread) (.cons (scans_empty hempty) .nil), rfl, List.nodup_singleton _⟩)).1
  have hdocument (bytes : List UInt8) :
      answer (ApiDocument.read "a") (handlerTree bytes) = .ok { operations := [] } := by
    cbv
  refine ⟨b.moved "s/a.h", ?_⟩
  simp only [Inputs.answer_read, Source.answer_read, bind_eq_ok_iff, mapError_eq_ok_iff]
  exact ⟨{}, rfl, _, hdocument _, _, ⟨_, hcollect, hblocks⟩, rfl⟩

/-- The tree with both files written. -/
def handlerTreeWritten (bytes x y : List UInt8) : FileTree :=
  ⟨(["d"], .file y) :: (["r"], .file x) :: (handlerTree bytes).entries, []⟩

theorem succeeds_handlerTree : ∃ u, (bareOptions "r" "d").Succeeds (handlerTree handlerBytes) u := by
  obtain ⟨b, hread⟩ := read_handlerTree
  obtain ⟨g, x, y, hbuild, hartifacts⟩ : ∃ g x y, Build.ofInputs (bareOptions "r" "d") (handlerInputs b) = .ok g ∧
      g.artifacts = [⟨"r", x⟩, ⟨"d", y⟩] := ⟨_, _, _, rfl, rfl⟩
  have hnew (bytes : List UInt8) : (handlerTree bytes).freshName = "////" := by cbv
  have hnew' (bytes x : List UInt8) : ((handlerTree bytes).put ["////"] (.file x)).freshName = "/////" := by cbv
  have hroutes (bytes : List UInt8) : (handlerTree bytes).read "r" = .error .notFound := by cbv
  have hdispatch (bytes x : List UInt8) :
      ((handlerTree bytes).put ["////"] (.file x)).read "d" = .error .notFound := by cbv
  have hmove (bytes x y : List UInt8) : (Artifact.replaceAll [] [⟨"r", ["////"], none⟩, ⟨"d", ["/////"], none⟩] :
      StateM FileTree _).run (((handlerTree bytes).put ["////"] (.file x)).put ["/////"] (.file y)) =
        (⟨.ok (), []⟩, handlerTreeWritten bytes x y) := by cbv
  have hr : Path.directoryOf "r" = ⟨false, ["."]⟩ := by decide
  have hd : Path.directoryOf "d" = ⟨false, ["."]⟩ := by decide
  exact ⟨_, succeeds_of_moves ((Inputs.keeps_read _).run_eq_iff.mpr ⟨hread, rfl⟩) hbuild hartifacts rfl rfl
    hr hd (hnew _) (hnew' _ _) (hroutes _) (hdispatch _ _) (hmove _ _ _)⟩

theorem repeats_below (bytes : List UInt8) (path : String) {name : String} {file : List UInt8}
    (h : (handlerTree bytes).locate true path = .ok (.found ["s", name] (.file file)))
    (hextension : Source.hasExtension ({} : ScanOptions).extensions [name] = true) :
    Source.Repeats (handlerTree bytes) ({} : ScanOptions).extensions ["s"] path :=
  .below List.mem_cons_self (by cbv) h (Source.hasExtension_iff.mp hextension)

theorem repeats_directory (bytes : List UInt8) :
    Source.Repeats (handlerTree bytes) ({} : ScanOptions).extensions ["s"] "./s" := by
  have hlisted : (handlerTree bytes).locate true "s" = .ok (.found ["s"] .directory) := by cbv
  have h : (handlerTree bytes).locate true "./s" = .ok (.found (["s"] ++ []) .directory) := by cbv
  exact .directory List.mem_cons_self hlisted h

theorem collect_twice (bytes : List UInt8) :
    answer (Source.collect ({} : ScanOptions).extensions ["s", "./s"]) (handlerTree bytes) =
      .ok ["s/a.h", "s/b.h", "./s/a.h", "./s/b.h"] ∧
    (handlerTree bytes).read "./s/a.h" = .ok bytes := ⟨by cbv, by cbv⟩

theorem repeated_sources_handler :
    (((bareOptions "r" "d").adding ["s/./a.h", "./s/b.h"]).run : StateM FileTree Outcome).run
      (handlerTree handlerBytes) = ((bareOptions "r" "d").run : StateM FileTree Outcome).run
      (handlerTree handlerBytes) ∧
    ∃ e, Source.Refused ["s/a.h", "s/b.h"] ["./s/a.h", "./s/b.h"] e ∧
      (((bareOptions "r" "d").adding ["./s"]).run : StateM FileTree Outcome).run (handlerTree handlerBytes) =
        (⟨.error (.source e), []⟩, handlerTree handlerBytes) := by
  obtain ⟨b, hi⟩ := read_handlerTree
  obtain ⟨c, hscan⟩ := scans_handler
  have ht := wellFormed_handlerTree handlerBytes
  have hnamed := named_handlerTree handlerBytes
  have hcollect := (collect_handlerTree handlerBytes).1
  constructor
  · have hadded (bytes : List UInt8) : answer (Source.collect ({} : ScanOptions).extensions
        ["s", "s/./a.h", "./s/b.h"]) (handlerTree bytes) = .ok ["s/a.h", "s/b.h", "./s/b.h"] ∧
        (handlerTree bytes).read "./s/b.h" = .ok [] := ⟨by cbv, by cbv⟩
    have hextra : ∀ other ∈ ["s/./a.h", "./s/b.h"], Source.Repeats (handlerTree handlerBytes)
        ({} : ScanOptions).extensions ["s"] other := by
      have hfirst (bytes : List UInt8) := repeats_below bytes "s/./a.h" (by cbv) (by decide)
      have hsecond (bytes : List UInt8) := repeats_below bytes "./s/b.h" (by cbv) (by decide)
      exact List.forall_mem_cons.mpr ⟨hfirst _, List.forall_mem_singleton.mpr (hsecond _)⟩
    obtain ⟨files, more, hfiles, hmore, -, hsame, -⟩ := repeated_sources_iff ht hnamed hi hextra
    cases hcollect.symm.trans hfiles
    cases List.append_cancel_left (Except.ok.inj ((hadded handlerBytes).1.symm.trans hmore) :
      ["s/a.h", "s/b.h"] ++ ["./s/b.h"] = ["s/a.h", "s/b.h"] ++ more)
    exact hsame (List.forall_mem_singleton.mpr (scans_empty (hadded handlerBytes).2))
  · obtain ⟨htwice, hread⟩ := collect_twice handlerBytes
    obtain ⟨files, more, hfiles, hmore, -, -, hrefused⟩ := repeated_sources_iff ht hnamed hi
      (List.forall_mem_singleton.mpr (repeats_directory handlerBytes))
    cases hcollect.symm.trans hfiles
    cases List.append_cancel_left (Except.ok.inj (htwice.symm.trans hmore) :
      ["s/a.h", "s/b.h"] ++ ["./s/a.h", "./s/b.h"] = ["s/a.h", "s/b.h"] ++ more)
    refine hrefused ⟨"./s/a.h", List.mem_cons_self, fun hnone => ?_⟩
    cases (hscan _ hread).unique hnone

/-- A directory under another path is scanned twice, and its blocks are refused. -/
theorem repeated_directory_refused : ¬ ∀ (o : GenerateOptions) (t u : FileTree) (c : Config)
    (extra : List String), t.WellFormed → t.Named → answer (Config.read o.config) t = .ok c →
    (∀ other ∈ extra, Source.Repeats t c.scan.extensions o.sources other) → o.Succeeds t u →
    (o.adding extra).Succeeds t u := by
  intro h
  obtain ⟨u, hu⟩ := succeeds_handlerTree
  obtain ⟨i, g, hread, -⟩ := GenerateOptions.succeeds_iff.mp (h _ _ u {} ["./s"]
    (wellFormed_handlerTree handlerBytes) (named_handlerTree handlerBytes) rfl
    (List.forall_mem_singleton.mpr (repeats_directory handlerBytes)) hu)
  obtain ⟨hc, -, files, hfiles, hblocks⟩ :=
    Inputs.answer_read_eq_ok ((Inputs.keeps_read _).run_eq_iff.mp hread).1
  have hconfig : i.config = {} := (Except.ok.inj hc).symm
  rw [hconfig] at hfiles hblocks
  obtain ⟨htwice, hagain⟩ := collect_twice handlerBytes
  cases htwice.symm.trans hfiles
  obtain ⟨-, found, hfound, hflat, hdistinct⟩ :=
    Source.run_blocks_eq_ok_iff.mp ((Source.keeps_blocks _ _).run_eq_iff.mpr ⟨hblocks, rfl⟩)
  rw [hflat] at hdistinct
  obtain ⟨b, hscan⟩ := scans_handler
  have hfirst := hscan "s/a.h" (collect_handlerTree handlerBytes).2.1
  have hsecond := hscan "./s/a.h" hagain
  cases hfound with
  | cons h₁ hfound =>
    cases hfound with
    | cons _ hfound =>
      cases hfound with
      | cons h₃ hfound =>
        cases hfirst.unique h₁
        cases hsecond.unique h₃
        simp at hdistinct

end RestRoutes
