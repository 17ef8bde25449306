import RestRoutes.Proofs.Artifact.Placement
import RestRoutes.Proofs.Artifact.Stale
import RestRoutes.Proofs.Command.Inputs

namespace RestRoutes

namespace Arguments

theorem given_check (args : List String) :
    given generateArity ("--check" :: args) =
      (given generateArity args).map (⟨"check", []⟩ :: ·) := by
  have hoption : longOption? "--check" = some ("check", none) := by decide
  rw [given, if_neg (by decide), if_neg (by decide), hoption]
  rfl

/-- A flag that was given already is given too often. -/
theorem flag_check (gs : List Given) : flag "check" (⟨"check", []⟩ :: gs) =
    (flag "check" gs).bind fun before => if before then none else some true := by
  have hcount : count "check" (⟨"check", []⟩ :: gs) = count "check" gs + 1 := by
    rw [count, count, List.filter_cons_of_pos (by decide)]
    rfl
  rw [flag, flag, hcount]
  rcases count "check" gs with _ | _ | n
  · rfl
  · rfl
  · rfl

theorem bind_eq_bind_bind {α β γ : Type} {x : Option α} {f : α → Option γ} {g : α → Option β}
    {h : β → Option γ} (hfg : ∀ a, f a = (g a).bind h) : x.bind f = (x.bind g).bind h := by
  rw [Option.bind_assoc]
  exact Option.bind_congr fun a _ => hfg a

/-- `--check` before the other arguments asks for the same with a check, or for one too many. -/
theorem generate_check (env : Environment) (args : List String) :
    generate env ("--check" :: args) =
      (generate env args).bind fun o => if o.check then none else some { o with check := true } := by
  rw [generate, generate, given_check]
  cases given generateArity args with
  | none => rfl
  | some gs =>
    refine bind_eq_bind_bind (x := flag verbose gs) fun _ => bind_eq_bind_bind fun sources => ?_
    split
    · rfl
    · -- The other options come to the same, one after the other.
      repeat refine bind_eq_bind_bind fun _ => ?_
      rw [flag_check]
      rcases flag "check" gs with _ | _ | _
      · rfl
      · rfl
      · rfl

end Arguments

namespace Artifact

variable {as : List Artifact} {t u : FileTree}

/-- Nothing is out of date when every destination holds its artifact. -/
theorem run_stale_iff : (stale as : StateM FileTree _).run t = (.ok [], u) ↔
    u = t ∧ ∀ a ∈ as, Holds t a := by
  simp only [run_stale_eq_nil_iff, holds_iff]

/-- What a tree holds at some paths is one text for each. -/
theorem eq_of_holds {bs : List Artifact} (hpaths : as.map (·.path) = bs.map (·.path))
    (ha : ∀ a ∈ as, Holds t a) (hb : ∀ b ∈ bs, Holds t b) : as = bs := by
  induction as generalizing bs with
  | nil => exact (List.map_eq_nil_iff.mp hpaths.symm).symm
  | cons a as ih =>
    cases bs with
    | nil => cases hpaths
    | cons b bs =>
      obtain ⟨hpath, hpaths⟩ := List.cons.inj hpaths
      replace hpath : a.path = b.path := hpath
      obtain ⟨⟨bytes, hread, hdecode⟩, ha⟩ := List.forall_mem_cons.mp ha
      obtain ⟨⟨bytes', hread', hdecode'⟩, hb⟩ := List.forall_mem_cons.mp hb
      rw [← hpath, hread, Except.ok.injEq] at hread'
      rw [← hread', hdecode, Option.some.injEq] at hdecode'
      have hsame : a = b := by
        cases a
        cases b
        exact (Artifact.mk.injEq ..).mpr ⟨hpath, String.toList_inj.mp hdecode'⟩
      rw [hsame, ih hpaths ha hb]

end Artifact

namespace GenerateOptions

variable {o : GenerateOptions} {t u : FileTree} {as : List Artifact}

/-- The artifacts that are generated from the inputs in a tree. -/
def Generates (o : GenerateOptions) (t : FileTree) (as : List Artifact) : Prop :=
  ∃ i b, (Inputs.read o : StateM FileTree _).run t = (.ok i, t) ∧ Build.ofInputs o i = .ok b ∧
    b.artifacts = as

/-- A run that does not fail, from one tree to another. -/
def Succeeds (o : GenerateOptions) (t u : FileTree) : Prop :=
  ∃ outcome text, (o.run : StateM FileTree _).run t = (outcome, u) ∧ outcome.result = .ok text

theorem run_read_eq_ok {i : Inputs} (h : (Inputs.read o : StateM FileTree _).run t = (.ok i, u)) : u = t :=
  (Inputs.reads_read (Larger.refl t) (fun _ _ _ _ _ _ => rfl) i u h).1

theorem Generates.paths (h : o.Generates t as) :
    as.map (·.path) = [o.routesOut, o.dispatchOut] ++ o.docsOut.toList := by
  obtain ⟨i, b, -, hbuild, rfl⟩ := h
  simp only [Build.ofInputs] at hbuild
  split at hbuild
  · cases hbuild
  · cases hbuild
    cases o.docsOut <;> rfl

theorem Generates.unique {bs : List Artifact} (h : o.Generates t as) (h' : o.Generates t bs) : as = bs := by
  obtain ⟨i, b, hread, hbuild, rfl⟩ := h
  obtain ⟨i', b', hread', hbuild', rfl⟩ := h'
  rw [hread] at hread'
  cases hread'
  rw [hbuild] at hbuild'
  cases hbuild'
  rfl

theorem succeeds_iff : o.Succeeds t u ↔ ∃ i b,
    (Inputs.read o : StateM FileTree _).run t = (.ok i, t) ∧ Build.ofInputs o i = .ok b ∧
    ∃ outcome text,
      (if o.check then b.check else b.write o.spec : StateM FileTree Outcome).run t = (outcome, u) ∧
      outcome.result = .ok text := by
  constructor
  · rintro ⟨outcome, text, hrun, hresult⟩
    obtain ⟨r, v, hread, hrest⟩ := run_bind_eq_iff.mp hrun
    split at hrest
    · obtain ⟨rfl, -⟩ := run_pure_eq_iff.mp hrest
      cases hresult
    rename_i i
    obtain rfl := run_read_eq_ok hread
    split at hrest
    · obtain ⟨rfl, -⟩ := run_pure_eq_iff.mp hrest
      cases hresult
    rename_i b hbuild
    refine ⟨i, b, hread, hbuild, ?_⟩
    split at hrest
    · rename_i hcheck
      obtain ⟨outcome', v, hdone, hrest⟩ := run_bind_eq_iff.mp hrest
      obtain ⟨rfl, rfl⟩ := run_pure_eq_iff.mp hrest
      exact ⟨outcome', text, by rw [if_pos hcheck, hdone], hresult⟩
    · rename_i hcheck
      obtain ⟨outcome', v, hdone, hrest⟩ := run_bind_eq_iff.mp hrest
      obtain ⟨rfl, rfl⟩ := run_pure_eq_iff.mp hrest
      exact ⟨outcome', text, by rw [if_neg hcheck, hdone], hresult⟩
  · rintro ⟨i, b, hread, hbuild, outcome, text, hrun, hresult⟩
    refine ⟨{ outcome with notices := b.unmatched.map .unmatched ++ outcome.notices }, text,
      run_bind_eq_iff.mpr ⟨_, _, hread, ?_⟩, hresult⟩
    simp only [hbuild]
    split at hrun
    · rename_i hcheck
      rw [if_pos hcheck]
      exact run_bind_eq_iff.mpr ⟨_, _, hrun, rfl⟩
    · rename_i hcheck
      rw [if_neg hcheck]
      exact run_bind_eq_iff.mpr ⟨_, _, hrun, rfl⟩

theorem succeeds_check_iff (hcheck : o.check = true) : o.Succeeds t u ↔
    u = t ∧ ∃ as, o.Generates t as ∧ ∀ a ∈ as, Artifact.Holds t a := by
  rw [succeeds_iff]
  constructor
  · rintro ⟨i, b, hread, hbuild, outcome, text, hrun, hresult⟩
    rw [if_pos hcheck] at hrun
    obtain ⟨r, v, hstale, hrest⟩ := run_bind_eq_iff.mp hrun
    split at hrest
    · obtain ⟨rfl, -⟩ := run_pure_eq_iff.mp hrest
      cases hresult
    · obtain ⟨-, rfl⟩ := run_pure_eq_iff.mp hrest
      obtain ⟨rfl, hholds⟩ := Artifact.run_stale_iff.mp hstale
      exact ⟨rfl, b.artifacts, ⟨i, b, hread, hbuild, rfl⟩, hholds⟩
    · obtain ⟨rfl, -⟩ := run_pure_eq_iff.mp hrest
      cases hresult
  · rintro ⟨rfl, as, ⟨i, b, hread, hbuild, rfl⟩, hholds⟩
    have hdone : (b.check : StateM FileTree _).run u =
        (⟨.ok (toString b.artifacts.length ++ " artifact(s) up to date\n"), []⟩, u) :=
      run_bind_eq_iff.mpr ⟨_, _, Artifact.run_stale_iff.mpr ⟨rfl, hholds⟩, rfl⟩
    exact ⟨i, b, hread, hbuild, _, _, by rw [if_pos hcheck, hdone], rfl⟩

theorem Succeeds.written (h : o.Succeeds t u) (hcheck : o.check = false) :
    ∃ as ls, o.Generates t as ∧ Artifact.Written t as ls u := by
  obtain ⟨i, b, hread, hbuild, outcome, text, hrun, hresult⟩ := succeeds_iff.mp h
  rw [if_neg (by rw [hcheck]; decide)] at hrun
  obtain ⟨report, v, hwrite, hrest⟩ := run_bind_eq_iff.mp hrun
  obtain ⟨rfl, rfl⟩ := run_pure_eq_iff.mp hrest
  have hreport : report.result = .ok () := by
    dsimp only at hresult
    split at hresult
    · assumption
    · cases hresult
  obtain ⟨ls, hwritten⟩ := Artifact.run_writeAll_written hwrite hreport
  exact ⟨b.artifacts, ls, ⟨i, b, hread, hbuild, rfl⟩, hwritten⟩

/-- The inputs do not depend on what is at these locations: they can be read without it, and none of the
locations is that of a file that is scanned for being in a directory. -/
structure Apart (o : GenerateOptions) (t : FileTree) (ls : List Location) : Prop where
  readable : ∃ i, (Inputs.read o : StateM FileTree _).run (t.without ls) = (.ok i, t.without ls)
  unscanned : ∀ c, (Config.read o.config : StateM FileTree _).run t = (.ok c, t) →
    ∀ source ∈ o.sources, ∀ base, t.locate true source = .ok (.found base .directory) →
    ∀ l ∈ ls, ∀ names, FileTree.behind? base l = some names →
      Source.hasExtension c.scan.extensions names = false

theorem Apart.generates {ls : List Location} (ha : o.Apart t ls) (hu : Larger (t.without ls) u)
    (hfiles : u.filesBut ls = t.filesBut ls) (hg : o.Generates t as) : o.Generates u as := by
  obtain ⟨i, hi⟩ := ha.readable
  obtain ⟨i', b, hread, hbuild, hartifacts⟩ := hg
  have ht := FileTree.larger_without t ls
  have hunscanned (c : Config)
      (hc : (Config.read o.config : StateM FileTree _).run (t.without ls) = (.ok c, t.without ls))
      (source : String) (hs : source ∈ o.sources) (base : Location)
      (hbase : (t.without ls).locate true source = .ok (.found base .directory)) :=
    ha.unscanned c (Config.reads_read ht o.config c _ hc).2 source hs base
      (FileTree.locate_mono ht.workDir ht.get? hbase)
  have hscan {v : FileTree} (hv : v.filesBut ls = t.filesBut ls) (c : Config)
      (hc : (Config.read o.config : StateM FileTree _).run (t.without ls) = (.ok c, t.without ls)) :
      ∀ source ∈ o.sources, Source.SameScan (t.without ls) v c.scan.extensions source := by
    intro source hs base hbase
    have hnone := hunscanned c hc source hs base hbase
    rw [FileTree.scanned_eq hnone, FileTree.scanned_eq hnone, hv, FileTree.filesBut_without]
  have hsame := (Inputs.reads_read ht (hscan rfl) i _ hi).2
  rw [hread] at hsame
  cases hsame
  exact ⟨i, b, (Inputs.reads_read hu (hscan hfiles) i _ hi).2, hbuild, hartifacts⟩

end GenerateOptions

theorem Artifact.Written.larger {t u : FileTree} {as : List Artifact} {ls taken : List Location}
    (h : Written t as ls u) (htaken : ∀ l ∈ ls, l ∈ taken) : Larger (t.without taken) u := by
  refine ⟨h.workDir, fun l e hget => ?_⟩
  obtain ⟨hget, hroot⟩ := FileTree.get?_without hget
  by_cases hl : l ∈ taken
  · obtain rfl := hroot hl
    exact hget
  · exact h.kept l e hget fun hmem => hl (htaken l hmem)

/-- After a run that did not fail two things are left to ask: whether the inputs, read again, give the same
artifacts, and whether the destinations are settled. Given the one, the same arguments with `--check` succeed
exactly when the other holds. The inputs give the same when the destinations are apart from them; and
without links every destination leads to a file. -/
theorem check_after_generate {env : Environment} {args : List String} {o : GenerateOptions}
    {t u : FileTree} (hargs : Arguments.generate env args = some o) (hcheck : o.check = false)
    (hrun : o.Succeeds t u) :
    ∃ o' as, Arguments.generate env ("--check" :: args) = some o' ∧ o.Generates t as ∧
      (o.Generates u as → (o'.Succeeds u u ↔ Artifact.Settled as u)) ∧
      (Artifact.Settled as u → (o'.Succeeds u u ↔ o.Generates u as)) ∧
      (Artifact.Settled as u → o.Apart t (Artifact.destinations as u) → o'.Succeeds u u) ∧
      (t.Linkless → ∀ a ∈ as, u.kind a.path = some .file) := by
  obtain ⟨as, ls, hgenerates, hwritten⟩ := hrun.written hcheck
  have hmem := hwritten.mem_destinations
  have hargs' : Arguments.generate env ("--check" :: args) = some { o with check := true } := by
    rw [Arguments.generate_check, hargs, Option.bind_some, hcheck]
    rfl
  have hsucceeds : ({ o with check := true } : GenerateOptions).Succeeds u u ↔
      ∃ bs, o.Generates u bs ∧ ∀ b ∈ bs, Artifact.Holds u b := by
    rw [GenerateOptions.succeeds_check_iff rfl]
    exact ⟨And.right, fun h => ⟨rfl, h⟩⟩
  have hclean (hsettled : Artifact.Settled as u) :
      ({ o with check := true } : GenerateOptions).Succeeds u u ↔ o.Generates u as := by
    rw [hsucceeds]
    constructor
    · rintro ⟨bs, hbs, hholds⟩
      have hpaths := hgenerates.paths.trans hbs.paths.symm
      rw [Artifact.eq_of_holds hpaths (hwritten.holds hsettled) hholds]
      exact hbs
    · exact fun h => ⟨as, h, hwritten.holds hsettled⟩
  refine ⟨_, as, hargs', hgenerates, fun hagain => ?_, hclean,
    fun hsettled hapart => (hclean hsettled).mpr ?_, hwritten.linkless⟩
  · refine ⟨fun h => ?_, fun hsettled => (hclean hsettled).mpr hagain⟩
    obtain ⟨bs, hbs, hholds⟩ := hsucceeds.mp h
    rw [hagain.unique hbs]
    exact Artifact.settled_of_holds hholds
  · have hls : ∀ l ∈ ls, l ∈ Artifact.destinations as u := fun l => (hmem hsettled l).mpr
    exact hapart.generates (hwritten.larger hls) (hwritten.files _ hls) hgenerates

open Artifact FileTree

def bareText : String := "\x7b\"paths\":\x7b\x7d\x7d"

def bareTree : FileTree := ⟨[(["a"], .file (Text.Utf8.encode bareText.toList)), (["s"], .directory)], []⟩

def bareArguments (routes dispatch : String) : List String :=
  ["--spec", "a", "--sources", "s", "--router", "actix", "--routes-out", routes, "--dispatch-out", dispatch]

def bareOptions (routes dispatch : String) : GenerateOptions :=
  { spec := "a", sources := ["s"], routesOut := routes, dispatchOut := dispatch, router := some .actix }

def bareArtifacts (routes dispatch : String) : List Artifact :=
  let r := RouterKind.actix.router {} {}
  [⟨routes, r.bindings []⟩, ⟨dispatch, r.dispatchMap []⟩]

def bareInputs : Inputs := ⟨{}, { operations := [] }, []⟩

theorem generates_bare {r d : String} {t : FileTree}
    (h : (Inputs.read (bareOptions r d) : StateM FileTree _).run t = (.ok bareInputs, t)) :
    (bareOptions r d).Generates t (bareArtifacts r d) :=
  ⟨bareInputs, _, h, rfl, rfl⟩

theorem read_bare (r d : String) :
    (Inputs.read (bareOptions r d) : StateM FileTree _).run bareTree = (.ok bareInputs, bareTree) := by
  cbv

/-- With two files staged. -/
def bareStaged (x y : List UInt8) : FileTree :=
  (bareTree.put ["//"] (.file x)).put ["///"] (.file y)

/-- Staging goes the same way for all destinations in the working directory that are free; what is left to
look at is the moves. -/
theorem succeeds_of_moves {o : GenerateOptions} {i : Inputs} {g : Build} {a b : Artifact} {t u : FileTree}
    {first second : String} (hread : (Inputs.read o : StateM FileTree _).run t = (.ok i, t))
    (hbuild : Build.ofInputs o i = .ok g) (hartifacts : g.artifacts = [a, b]) (hcheck : o.check = false)
    (hwork : t.workDir = []) (ha : Path.directoryOf a.path = ⟨false, ["."]⟩)
    (hb : Path.directoryOf b.path = ⟨false, ["."]⟩) (hnew : t.freshName = first)
    (hnew' : (t.put [first] (.file a.bytes)).freshName = second) (hfirst : t.read a.path = .error .notFound)
    (hsecond : (t.put [first] (.file a.bytes)).read b.path = .error .notFound)
    (hmove : (replaceAll [] [⟨a.path, [first], none⟩, ⟨b.path, [second], none⟩] : StateM FileTree _).run
      ((t.put [first] (.file a.bytes)).put [second] (.file b.bytes)) = (⟨.ok (), []⟩, u)) :
    o.Succeeds t u := by
  have hstage := run_stageOne_here ha t
  rw [hwork, hnew] at hstage
  have hstage' := run_stageOne_here hb (t.put [first] (.file a.bytes))
  rw [workDir_put, hwork, hnew'] at hstage'
  have hall : (stageAll [] [a, b] : StateM FileTree _).run t =
      (.ok [⟨a.path, [first], none⟩, ⟨b.path, [second], none⟩],
        (t.put [first] (.file a.bytes)).put [second] (.file b.bytes)) := by
    refine run_bind_eq_iff.mpr ⟨.ok none, t, run_snapshot_absent hfirst, ?_⟩
    refine run_bind_eq_iff.mpr ⟨_, _, hstage, ?_⟩
    refine run_bind_eq_iff.mpr ⟨.ok none, _, run_snapshot_absent hsecond, ?_⟩
    exact run_bind_eq_iff.mpr ⟨_, _, hstage', rfl⟩
  have hwrite : (writeAll g.artifacts : StateM FileTree _).run t = (⟨.ok (), []⟩, u) :=
    hartifacts ▸ run_bind_eq_iff.mpr ⟨_, _, hall, hmove⟩
  have hdone : (if o.check then g.check else g.write o.spec : StateM FileTree Outcome).run t =
      (⟨.ok (g.summary o.spec), []⟩, u) := by
    rw [if_neg (by rw [hcheck]; decide)]
    exact run_bind_eq_iff.mpr ⟨_, _, hwrite, rfl⟩
  exact GenerateOptions.succeeds_iff.mpr ⟨i, g, hread, hbuild, _, _, hdone, rfl⟩

theorem succeeds_bare {r d : String} {u : List UInt8 → List UInt8 → FileTree}
    (hr : Path.directoryOf r = ⟨false, ["."]⟩) (hd : Path.directoryOf d = ⟨false, ["."]⟩)
    (hfirst : bareTree.read r = .error .notFound)
    (hsecond : ∀ x, (bareTree.put ["//"] (.file x)).read d = .error .notFound)
    (hmove : ∀ x y, (replaceAll [] [⟨r, ["//"], none⟩, ⟨d, ["///"], none⟩] : StateM FileTree _).run
      (bareStaged x y) = (⟨.ok (), []⟩, u x y)) :
    ∃ x y, (bareOptions r d).Succeeds bareTree (u x y) := by
  let a : Artifact := ⟨r, (RouterKind.actix.router {} {}).bindings []⟩
  let b : Artifact := ⟨d, (RouterKind.actix.router {} {}).dispatchMap []⟩
  have hnew : bareTree.freshName = "//" := by cbv
  have hnew' (x : List UInt8) : (bareTree.put ["//"] (.file x)).freshName = "///" := by cbv
  obtain ⟨g, hbuild, hartifacts⟩ : ∃ g, Build.ofInputs (bareOptions r d) bareInputs = .ok g ∧
      g.artifacts = [a, b] := ⟨_, rfl, rfl⟩
  exact ⟨a.bytes, b.bytes, succeeds_of_moves (read_bare r d) hbuild hartifacts rfl rfl hr hd hnew
    (hnew' a.bytes) hfirst (hsecond a.bytes) (hmove a.bytes b.bytes)⟩

def bareSeparate (x y : List UInt8) : FileTree :=
  ⟨(["d"], .file y) :: (["r"], .file x) :: bareTree.entries, []⟩

def bareShared (_ y : List UInt8) : FileTree := ⟨(["x"], .file y) :: bareTree.entries, []⟩

theorem linkless_bareTree : bareTree.Linkless := by
  intro l target
  simp only [bareTree, get?, List.lookup_cons, List.lookup_nil]
  grind

theorem check_after_generate_separate : ∃ o o' u,
    Arguments.generate {} (bareArguments "r" "d") = some o ∧ o.check = false ∧ o.Succeeds bareTree u ∧
    Arguments.generate {} ("--check" :: bareArguments "r" "d") = some o' ∧ o'.Succeeds u u := by
  have hargs : Arguments.generate {} (bareArguments "r" "d") = some (bareOptions "r" "d") := by cbv
  obtain ⟨x, y, hrun⟩ := succeeds_bare (r := "r") (d := "d") (u := bareSeparate) (by decide) (by decide)
    (by cbv) (fun _ => by cbv) (fun _ _ => by cbv)
  obtain ⟨o', as, hargs', hgenerates, -, -, hclean, hfile⟩ := check_after_generate hargs rfl hrun
  obtain rfl := hgenerates.unique (generates_bare (read_bare "r" "d"))
  have hroutes : (bareSeparate x y).reached? "r" = some ["r"] := by cbv
  have hdispatch : (bareSeparate x y).reached? "d" = some ["d"] := by cbv
  have hsettled : Settled (bareArtifacts "r" "d") (bareSeparate x y) := by
    refine ⟨hfile linkless_bareTree, ?_⟩
    simp [bareArtifacts, hroutes, hdispatch]
  have hapart : (bareOptions "r" "d").Apart bareTree
      (destinations (bareArtifacts "r" "d") (bareSeparate x y)) := by
    have hdestinations : destinations (bareArtifacts "r" "d") (bareSeparate x y) = [["r"], ["d"]] := by
      simp [destinations, bareArtifacts, hroutes, hdispatch]
    have hwithout : bareTree.without [["r"], ["d"]] = bareTree := by decide
    rw [hdestinations]
    refine ⟨⟨bareInputs, by rw [hwithout, read_bare]⟩, fun c _ source hsource base hbase => ?_⟩
    obtain rfl := List.mem_singleton.mp hsource
    have hlocate : bareTree.locate true "s" = .ok (.found ["s"] .directory) := by cbv
    rw [hlocate] at hbase
    cases hbase
    simp [behind?]
  exact ⟨_, o', _, hargs, rfl, hrun, hargs', hclean hsettled hapart⟩

/-- One file cannot hold two texts: what two destinations share is out of date at once. -/
theorem check_fails_on_shared_output : ¬ ∀ (env : Environment) (args : List String)
    (o o' : GenerateOptions) (t u : FileTree), Arguments.generate env args = some o → o.check = false →
    Arguments.generate env ("--check" :: args) = some o' → o.Succeeds t u → ∃ w, o'.Succeeds u w := by
  intro h
  have hargs : Arguments.generate {} (bareArguments "x" "x") = some (bareOptions "x" "x") := by cbv
  have hargs' : Arguments.generate {} ("--check" :: bareArguments "x" "x") =
      some { bareOptions "x" "x" with check := true } := by
    rw [Arguments.generate_check, hargs]
    rfl
  obtain ⟨x, y, hrun⟩ := succeeds_bare (r := "x") (d := "x") (u := bareShared) (by decide) (by decide)
    (by cbv) (fun _ => by cbv) (fun _ _ => by cbv)
  obtain ⟨w, hw⟩ := h {} _ _ _ bareTree _ hargs rfl hargs' hrun
  obtain ⟨rfl, as, hgenerates, hholds⟩ := (GenerateOptions.succeeds_check_iff rfl).mp hw
  have hread : (Inputs.read (bareOptions "x" "x") : StateM FileTree _).run (bareShared x y) =
      (.ok bareInputs, bareShared x y) := by cbv
  obtain rfl := (generates_bare hread).unique hgenerates
  have hsame : (RouterKind.actix.router {} {}).bindings [] = (RouterKind.actix.router {} {}).dispatchMap [] :=
    (settled_of_holds hholds).agree _ List.mem_cons_self _ (List.mem_cons_of_mem _ List.mem_cons_self) rfl
  exact absurd hsame (by decide)

end RestRoutes
