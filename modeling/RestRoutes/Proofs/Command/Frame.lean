import RestRoutes.Proofs.Command.Check

namespace RestRoutes

/-- What a program answers on a tree. -/
def answer {α : Type} (x : StateM FileTree α) (t : FileTree) : α := (x.run t).1

/-- A program that leaves every tree as it is. -/
def Keeps {α : Type} (x : StateM FileTree α) : Prop := ∀ t, (x.run t).2 = t

namespace Keeps

variable {α β ε : Type}

theorem pure (a : α) : Keeps (Pure.pure a) := fun _ => rfl

theorem run_eq {x : StateM FileTree α} (hx : Keeps x) (t : FileTree) : x.run t = (answer x t, t) :=
  Prod.ext rfl (hx t)

theorem run_eq_iff {x : StateM FileTree α} (hx : Keeps x) {a : α} {t u : FileTree} :
    x.run t = (a, u) ↔ answer x t = a ∧ u = t := by
  rw [hx.run_eq]
  constructor
  · intro h
    cases h
    exact ⟨rfl, rfl⟩
  · rintro ⟨rfl, rfl⟩
    rfl

theorem run_bind {x : StateM FileTree α} (hx : Keeps x) (f : α → StateM FileTree β) (t : FileTree) :
    (x >>= f).run t = (f (answer x t)).run t := by
  rw [StateT.run_bind, hx.run_eq]
  rfl

theorem answer_bind {x : StateM FileTree α} (hx : Keeps x) (f : α → StateM FileTree β) (t : FileTree) :
    answer (x >>= f) t = answer (f (answer x t)) t := by
  rw [answer, hx.run_bind]
  rfl

theorem bind {x : StateM FileTree α} {f : α → StateM FileTree β} (hx : Keeps x)
    (hf : ∀ a, Keeps (f a)) : Keeps (x >>= f) := by
  intro t
  rw [hx.run_bind]
  exact hf _ t

/-- After a failure nothing more is done. -/
theorem andThen {x : StateM FileTree (Except ε α)} {f : Except ε α → StateM FileTree β} (hx : Keeps x)
    (herror : ∀ e, ∃ b, f (.error e) = Pure.pure b) (hok : ∀ a, Keeps (f (.ok a))) : Keeps (x >>= f) := by
  apply hx.bind
  intro r
  cases r with
  | error e =>
    obtain ⟨b, hb⟩ := herror e
    rw [hb]
    exact .pure b
  | ok a => exact hok a

end Keeps

theorem keeps_readText (path : String) : Keeps (FileSystem.readText path) := by
  have hread : Keeps (FileSystem.read path) := fun _ => rfl
  refine hread.andThen (fun _ => ⟨_, rfl⟩) fun bytes => ?_
  dsimp only
  split
  · exact .pure _
  · exact .pure _

theorem Config.keeps_read (path : Option String) : Keeps (Config.read path) := by
  cases path with
  | none => exact .pure _
  | some path =>
    have hload : Keeps (Config.load path) := by
      refine (keeps_readText path).andThen (fun _ => ⟨_, rfl⟩) fun text => ?_
      dsimp only
      split
      · exact .pure _
      · exact .pure _
    exact hload.andThen (fun _ => ⟨_, rfl⟩) fun _ => .pure _

theorem ApiDocument.keeps_read (path : String) : Keeps (ApiDocument.read path) := by
  refine (keeps_readText path).andThen (fun _ => ⟨_, rfl⟩) fun text => ?_
  dsimp only
  split
  · exact .pure _
  · exact .pure _

namespace Source

theorem keeps_expand (extensions : List String) (source : String) :
    Keeps (expand extensions source) := by
  have hkind : Keeps (FileSystem.kind source) := fun _ => rfl
  have hbelow : Keeps (FileSystem.filesBelow source) := fun _ => rfl
  apply hkind.bind
  intro k
  rcases k with _ | _ | _
  · exact .pure _
  · exact .pure _
  · exact hbelow.bind fun r => by cases r <;> exact .pure _

theorem keeps_collect (extensions sources : List String) : Keeps (collect extensions sources) := by
  have hall : Keeps (expandAll extensions sources) := by
    induction sources with
    | nil => exact .pure _
    | cons source sources ih =>
      refine (keeps_expand extensions source).andThen (fun _ => ⟨_, rfl⟩) fun files => ?_
      exact ih.andThen (fun _ => ⟨_, rfl⟩) fun _ => .pure _
  exact hall.andThen (fun _ => ⟨_, rfl⟩) fun _ => .pure _

theorem keeps_scanAll (markers : Markers) (files : List String) : Keeps (scanAll markers files) := by
  induction files with
  | nil => exact .pure _
  | cons file files ih =>
    refine (keeps_readText file).andThen (fun _ => ⟨_, rfl⟩) fun text => ?_
    dsimp only
    split
    · exact .pure _
    · exact ih.andThen (fun _ => ⟨_, rfl⟩) fun _ => .pure _

theorem keeps_blocks (markers : Markers) (files : List String) : Keeps (blocks markers files) := by
  refine (keeps_scanAll markers files).andThen (fun _ => ⟨_, rfl⟩) fun found => ?_
  dsimp only
  split
  · exact .pure _
  · exact .pure _

theorem keeps_read (scan : ScanOptions) (sources : List String) : Keeps (Source.read scan sources) := by
  refine (keeps_collect scan.extensions sources).andThen (fun _ => ⟨_, rfl⟩) fun files => ?_
  exact (keeps_blocks scan.markers files).andThen (fun _ => ⟨_, rfl⟩) fun _ => .pure _

end Source

theorem Inputs.keeps_read (o : GenerateOptions) : Keeps (Inputs.read o) := by
  refine (Config.keeps_read o.config).andThen (fun _ => ⟨_, rfl⟩) fun c => ?_
  refine (ApiDocument.keeps_read o.spec).andThen (fun _ => ⟨_, rfl⟩) fun d => ?_
  exact (Source.keeps_read c.scan o.sources).andThen (fun _ => ⟨_, rfl⟩) fun _ => .pure _

/-- The stages all read the same tree. -/
theorem Source.answer_read (scan : ScanOptions) (sources : List String) (t : FileTree) :
    answer (Source.read scan sources) t =
      (answer (collect scan.extensions sources) t).mapError .source >>= fun files =>
        (answer (blocks scan.markers files) t).mapError .source := by
  rw [Source.read, (keeps_collect scan.extensions sources).answer_bind]
  cases answer (collect scan.extensions sources) t with
  | error e => rfl
  | ok files =>
    show answer (blocks scan.markers files >>= _) t = (answer (blocks scan.markers files) t).mapError _
    rw [(keeps_blocks scan.markers files).answer_bind]
    cases answer (blocks scan.markers files) t with
    | error e => rfl
    | ok bs => rfl

theorem Inputs.answer_read (o : GenerateOptions) (t : FileTree) :
    answer (Inputs.read o) t = do
      let c ← answer (Config.read o.config) t
      let d ← answer (ApiDocument.read o.spec) t
      let bs ← answer (Source.read c.scan o.sources) t
      return ⟨c, d, bs⟩ := by
  rw [Inputs.read, (Config.keeps_read o.config).answer_bind]
  cases answer (Config.read o.config) t with
  | error e => rfl
  | ok c =>
    show answer (ApiDocument.read o.spec >>= _) t = answer (ApiDocument.read o.spec) t >>= _
    rw [(ApiDocument.keeps_read o.spec).answer_bind]
    cases answer (ApiDocument.read o.spec) t with
    | error e => rfl
    | ok d =>
      show answer (Source.read c.scan o.sources >>= _) t = answer (Source.read c.scan o.sources) t >>= _
      rw [(Source.keeps_read c.scan o.sources).answer_bind]
      cases answer (Source.read c.scan o.sources) t with
      | error e => rfl
      | ok bs => rfl

theorem Artifact.keeps_stale (as : List Artifact) : Keeps (stale as) := by
  induction as with
  | nil =>
    rw [stale]
    exact .pure _
  | cons a as ih =>
    have hmore : Keeps (stale.more a.path as) := by
      rw [stale.more]
      exact ih.bind fun r => by cases r <;> exact .pure _
    rw [stale]
    apply (keeps_readText a.path).bind
    intro r
    split
    · split
      · exact ih
      · exact hmore
    · exact hmore
    · exact .pure _

theorem Build.keeps_check (b : Build) : Keeps b.check := by
  apply (Artifact.keeps_stale b.artifacts).bind
  intro r
  split
  · exact .pure _
  · exact .pure _
  · exact .pure _

theorem RoutesOptions.keeps_run (o : RoutesOptions) : Keeps o.run := by
  refine (Config.keeps_read o.config).andThen (fun _ => ⟨_, rfl⟩) fun c => ?_
  refine (ApiDocument.keeps_read o.spec).andThen (fun _ => ⟨_, rfl⟩) fun d => ?_
  dsimp only
  split
  · exact .pure _
  · exact .pure _

namespace GenerateOptions

theorem keeps_run {o : GenerateOptions} (hcheck : o.check = true) : Keeps o.run := by
  refine (Inputs.keeps_read o).andThen (fun _ => ⟨_, rfl⟩) fun i => ?_
  dsimp only
  split
  · exact .pure _
  · rename_i b hbuild
    rw [if_pos hcheck]
    exact b.keeps_check.bind fun _ => .pure _

/-- How a run fails before there is anything to write: one of its stages does, and those before it do not. -/
inductive FailsEarly (o : GenerateOptions) (t : FileTree) : Failure → Prop where
  | config (h : answer (Config.read o.config) t = .error f) : FailsEarly o t f
  | spec (hc : answer (Config.read o.config) t = .ok c)
      (h : answer (ApiDocument.read o.spec) t = .error f) : FailsEarly o t f
  | sources (hc : answer (Config.read o.config) t = .ok c)
      (hd : answer (ApiDocument.read o.spec) t = .ok d)
      (h : answer (Source.collect c.scan.extensions o.sources) t = .error e) :
      FailsEarly o t (.source e)
  | blocks (hc : answer (Config.read o.config) t = .ok c)
      (hd : answer (ApiDocument.read o.spec) t = .ok d)
      (hs : answer (Source.collect c.scan.extensions o.sources) t = .ok files)
      (h : answer (Source.blocks c.scan.markers files) t = .error e) : FailsEarly o t (.source e)
  | compile (hc : answer (Config.read o.config) t = .ok c)
      (hd : answer (ApiDocument.read o.spec) t = .ok d)
      (hs : answer (Source.collect c.scan.extensions o.sources) t = .ok files)
      (hb : answer (Source.blocks c.scan.markers files) t = .ok blocks)
      (h : Build.ofInputs o ⟨c, d, blocks⟩ = .error f) : FailsEarly o t f

variable {o : GenerateOptions} {t u : FileTree} {f : Failure}

theorem failsEarly_iff : o.FailsEarly t f ↔ answer (Inputs.read o) t = .error f ∨
    ∃ i, answer (Inputs.read o) t = .ok i ∧ Build.ofInputs o i = .error f := by
  simp only [Inputs.answer_read, Source.answer_read, bind_eq_error_iff, bind_eq_ok_iff,
    mapError_eq_error_iff, mapError_eq_ok_iff]
  constructor
  · intro h
    cases h with
    | config h => exact .inl (.inl h)
    | spec hc h => exact .inl (.inr ⟨_, hc, .inl h⟩)
    | sources hc hd h => exact .inl (.inr ⟨_, hc, .inr ⟨_, hd, .inl (.inl ⟨_, h, rfl⟩)⟩⟩)
    | blocks hc hd hs h =>
      exact .inl (.inr ⟨_, hc, .inr ⟨_, hd, .inl (.inr ⟨_, hs, ⟨_, h, rfl⟩⟩)⟩⟩)
    | compile hc hd hs hb h => exact .inr ⟨_, ⟨_, hc, _, hd, _, ⟨_, hs, hb⟩, rfl⟩, h⟩
  · rintro ((h | ⟨c, hc, h | ⟨d, hd, (⟨e, h, rfl⟩ | ⟨files, hs, e, h, rfl⟩) | ⟨bs, -, h⟩⟩⟩) |
      ⟨i, ⟨c, hc, d, hd, bs, ⟨files, hs, hb⟩, hi⟩, h⟩)
    · exact .config h
    · exact .spec hc h
    · exact .sources hc hd h
    · exact .blocks hc hd hs h
    · cases h
    · cases hi
      exact .compile hc hd hs hb h

/-- Then there is nothing else that it does. -/
theorem FailsEarly.run_eq (h : o.FailsEarly t f) :
    (o.run : StateM FileTree Outcome).run t = (⟨.error f, []⟩, t) := by
  rw [GenerateOptions.run, (Inputs.keeps_read o).run_bind]
  rcases failsEarly_iff.mp h with hread | ⟨i, hread, hbuild⟩
  · rw [hread]
    rfl
  · simp only [hread, hbuild]
    rfl

theorem generates_iff {as : List Artifact} : o.Generates t as ↔
    ∃ i b, answer (Inputs.read o) t = .ok i ∧ Build.ofInputs o i = .ok b ∧ b.artifacts = as := by
  simp only [Generates, (Inputs.keeps_read o).run_eq_iff, and_true]

/-- A run that does not fail before has something to write, or to compare. -/
theorem exists_generates_iff : (∃ as, o.Generates t as) ↔ ∀ f, ¬ o.FailsEarly t f := by
  simp only [generates_iff, failsEarly_iff]
  constructor
  · rintro ⟨as, i, b, hread, hbuild, -⟩ f (h | ⟨i', h, hfails⟩)
    · rw [hread] at h
      cases h
    · rw [hread] at h
      cases h
      rw [hbuild] at hfails
      cases hfails
  · intro h
    cases hread : answer (Inputs.read o) t with
    | error f => exact absurd (.inl hread) (h f)
    | ok i =>
      cases hbuild : Build.ofInputs o i with
      | error f => exact absurd (.inr ⟨i, hread, hbuild⟩) (h f)
      | ok b => exact ⟨b.artifacts, i, b, rfl, hbuild, rfl⟩

theorem succeeds_iff_of_run {outcome : Outcome}
    (h : (o.run : StateM FileTree Outcome).run t = (outcome, u)) :
    o.Succeeds t u ↔ ∃ text, outcome.result = .ok text := by
  constructor
  · rintro ⟨outcome', text, hrun, hresult⟩
    rw [h] at hrun
    cases hrun
    exact ⟨text, hresult⟩
  · rintro ⟨text, hresult⟩
    exact ⟨outcome, text, h, hresult⟩

end GenerateOptions

section Program

variable {env : Environment} {args : List String} {t u : FileTree} {r : Option Outcome}

theorem run_program {c : Command} (hargs : Arguments.command env args = some c)
    (hrun : (program env args : StateM FileTree _).run t = (r, u)) :
    ∃ outcome, (c.run : StateM FileTree Outcome).run t = (outcome, u) ∧ r = some outcome := by
  rw [program, hargs] at hrun
  obtain ⟨outcome, v, hdone, hrest⟩ := run_bind_eq_iff.mp hrun
  obtain ⟨rfl, rfl⟩ := run_pure_eq_iff.mp hrest
  exact ⟨outcome, hdone, rfl⟩

theorem exitCode_eq_zero_iff {outcome : Outcome} :
    exitCode (some outcome) = 0 ↔ ∃ text, outcome.result = .ok text := by
  obtain ⟨result, notices⟩ := outcome
  cases result with
  | error e => simp [exitCode]
  | ok text => simp [exitCode]

/-- Of all programs only one that generates, is not to check and gets as far as having something to write
changes the tree; one that fails before does nothing but report it. A check succeeds exactly when everything
can be generated and each destination can be read and holds the bytes of its own text. -/
theorem check_exact (hrun : (program env args : StateM FileTree _).run t = (r, u)) :
    (Arguments.command env args = none → u = t) ∧
    (∀ o, Arguments.command env args = some (.routes o) → u = t) ∧
    ∀ o, Arguments.command env args = some (.generate o) →
      (∀ f, o.FailsEarly t f → u = t ∧ r = some ⟨.error f, []⟩) ∧
      ((∃ as, o.Generates t as) ↔ ∀ f, ¬ o.FailsEarly t f) ∧
      (o.check = true → u = t ∧ (exitCode r = 0 ↔ ∃ as, o.Generates t as ∧
        as.map (·.path) = [o.routesOut, o.dispatchOut] ++ o.docsOut.toList ∧
        ∀ a ∈ as, t.read a.path = .ok a.bytes)) := by
  refine ⟨fun hargs => ?_, fun o hargs => ?_, fun o hargs => ?_⟩
  · rw [program, hargs] at hrun
    exact (run_pure_eq_iff.mp hrun).2.symm
  · obtain ⟨outcome, hdone, -⟩ := run_program hargs hrun
    exact (o.keeps_run.run_eq_iff.mp hdone).2
  · obtain ⟨outcome, hdone, rfl⟩ := run_program hargs hrun
    replace hdone : (o.run : StateM FileTree Outcome).run t = (outcome, u) := hdone
    refine ⟨fun f hfails => ?_, GenerateOptions.exists_generates_iff, fun hcheck => ?_⟩
    · rw [hfails.run_eq] at hdone
      cases hdone
      exact ⟨rfl, rfl⟩
    · obtain ⟨-, rfl⟩ := (GenerateOptions.keeps_run hcheck).run_eq_iff.mp hdone
      refine ⟨rfl, ?_⟩
      rw [exitCode_eq_zero_iff, ← GenerateOptions.succeeds_iff_of_run hdone,
        GenerateOptions.succeeds_check_iff hcheck]
      simp only [Artifact.holds_iff, true_and]
      refine exists_congr fun as => and_congr_right fun hgenerates => ?_
      exact (and_iff_right hgenerates.paths).symm

end Program

/-- The texts of an API of no operations, where they belong. -/
def bareGenerated : FileTree :=
  let r := RouterKind.actix.router {} {}
  bareSeparate (Text.Utf8.encode (r.bindings []).toList) (Text.Utf8.encode (r.dispatchMap []).toList)

theorem check_exact_bare :
    (∃ r, (program {} ("generate" :: "--check" :: bareArguments "r" "d") : StateM FileTree _).run
      bareGenerated = (r, bareGenerated) ∧ exitCode r = 0) ∧
    ∃ r, (program {} ("generate" :: bareArguments "r" "d") : StateM FileTree _).run ⟨[], []⟩ =
      (r, ⟨[], []⟩) ∧ exitCode r = 1 := by
  constructor
  · have hargs : Arguments.command {} ("generate" :: "--check" :: bareArguments "r" "d") =
        some (.generate { bareOptions "r" "d" with check := true }) := by cbv
    have hread (x y : List UInt8) : (Inputs.read (bareOptions "r" "d") : StateM FileTree _).run
        (bareSeparate x y) = (.ok bareInputs, bareSeparate x y) := by cbv
    have hroutes (x y : List UInt8) : (bareSeparate x y).read "r" = .ok x := by cbv
    have hdispatch (x y : List UInt8) : (bareSeparate x y).read "d" = .ok y := by cbv
    rcases hrun : (program {} ("generate" :: "--check" :: bareArguments "r" "d") :
      StateM FileTree _).run bareGenerated with ⟨r, u⟩
    obtain ⟨hkeeps, hexact⟩ := ((check_exact hrun).2.2 _ hargs).2.2 rfl
    refine ⟨r, by rw [hkeeps], hexact.mpr ⟨_, generates_bare (hread _ _), rfl, fun a ha => ?_⟩⟩
    rcases List.mem_pair.mp ha with rfl | rfl
    · exact hroutes _ _
    · exact hdispatch _ _
  · have hargs : Arguments.command {} ("generate" :: bareArguments "r" "d") =
        some (.generate (bareOptions "r" "d")) := by cbv
    have hmissing : (bareOptions "r" "d").FailsEarly ⟨[], []⟩ (.specFile "a" .notFound) := by
      apply GenerateOptions.FailsEarly.spec (c := {})
      · cbv
      · cbv
    rcases hrun : (program {} ("generate" :: bareArguments "r" "d") : StateM FileTree _).run ⟨[], []⟩
      with ⟨r, u⟩
    obtain ⟨hkeeps, hfails⟩ := ((check_exact hrun).2.2 _ hargs).1 _ hmissing
    exact ⟨r, by rw [hkeeps], by rw [hfails]; rfl⟩

end RestRoutes
