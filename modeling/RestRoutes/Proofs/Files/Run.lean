import RestRoutes.Proofs.Files.Place

namespace RestRoutes

theorem run_bind_eq_iff {σ α β : Type} {x : StateM σ α} {f : α → StateM σ β} {s s' : σ} {b : β} :
    (x >>= f).run s = (b, s') ↔ ∃ a u, x.run s = (a, u) ∧ (f a).run u = (b, s') := by
  constructor
  · intro h
    exact ⟨_, _, rfl, h⟩
  · rintro ⟨a, u, hx, h⟩
    rw [StateT.run_bind, hx]
    exact h

theorem run_pure_eq_iff {σ α : Type} {a b : α} {s s' : σ} :
    (pure a : StateM σ α).run s = (b, s') ↔ a = b ∧ s = s' :=
  Iff.of_eq (Prod.mk.injEq a s b s')

namespace FileTree

variable {t u : FileTree} {path : String}

theorem run_read (t : FileTree) (path : String) :
    (FileSystem.read path : StateM FileTree _).run t = (t.read path, t) := rfl

theorem run_kind (t : FileTree) (path : String) :
    (FileSystem.kind path : StateM FileTree _).run t = (t.kind path, t) := rfl

theorem run_discard (t : FileTree) (s : StagedFile) :
    (FileSystem.discard s : StateM FileTree _).run t = ((), t.erase s) := rfl

theorem run_readText_eq_ok_iff {s : String} :
    (FileSystem.readText path : StateM FileTree _).run t = (.ok s, u) ↔
      u = t ∧ ∃ bytes, t.read path = .ok bytes ∧ Text.Utf8.decode? bytes = some s.toList := by
  rw [FileSystem.readText, run_bind_eq_iff]
  constructor
  · rintro ⟨r, v, hrun, h⟩
    rw [run_read] at hrun
    obtain ⟨hread, rfl⟩ := Prod.mk.inj hrun
    split at h
    · cases (run_pure_eq_iff.mp h).1
    · rename_i bytes
      split at h
      · rename_i letters hdecode
        obtain ⟨hs, rfl⟩ := run_pure_eq_iff.mp h
        cases hs
        exact ⟨rfl, bytes, hread, by rw [hdecode, String.toList_ofList]⟩
      · cases (run_pure_eq_iff.mp h).1
  · rintro ⟨rfl, bytes, hread, hdecode⟩
    refine ⟨.ok bytes, u, by rw [run_read, hread], ?_⟩
    simp only [hdecode, String.ofList_toList]
    rfl

theorem run_readText_eq_error {e : FileError} (h : t.read path = .error e) :
    (FileSystem.readText path : StateM FileTree _).run t = (.error e, t) := by
  refine run_bind_eq_iff.mpr ⟨_, t, run_read t path, ?_⟩
  simp only [h]
  rfl

/-- Of a path nothing but what it holds matters. -/
theorem run_readText_congr {other : String} (h : t.read path = t.read other) :
    (FileSystem.readText path : StateM FileTree _).run t =
      (FileSystem.readText other : StateM FileTree _).run t := by
  have hrun : (FileSystem.read path : StateM FileTree _).run t =
      (FileSystem.read other : StateM FileTree _).run t := by
    rw [run_read, run_read, h]
  rw [FileSystem.readText, FileSystem.readText, StateT.run_bind, StateT.run_bind, hrun]

theorem settle_cases {r : Except FileError FileTree} (h : t.settle r = (a, u)) :
    (r = .ok u ∧ a = .ok ()) ∨ ∃ e, r = .error e ∧ a = .error e ∧ u = t := by
  cases r with
  | ok t' =>
    cases h
    exact .inl ⟨rfl, rfl⟩
  | error e =>
    cases h
    exact .inr ⟨e, rfl, rfl, rfl⟩

theorem run_makeDirectory
    (h : (FileSystem.makeDirectory path : StateM FileTree _).run t = (a, u)) :
    (t.makeDirectory path = .ok u ∧ a = .ok ()) ∨
    ∃ e, t.makeDirectory path = .error e ∧ a = .error e ∧ u = t := settle_cases h

theorem run_replace {s : StagedFile}
    (h : (FileSystem.replace s path : StateM FileTree _).run t = (a, u)) :
    (t.replace s path = .ok u ∧ a = .ok ()) ∨
    ∃ e, t.replace s path = .error e ∧ a = .error e ∧ u = t := settle_cases h

theorem run_write {bytes : List UInt8}
    (h : (FileSystem.write path bytes : StateM FileTree _).run t = (a, u)) :
    (t.write path bytes = .ok u ∧ a = .ok ()) ∨
    ∃ e, t.write path bytes = .error e ∧ a = .error e ∧ u = t := settle_cases h

theorem run_remove (h : (FileSystem.remove path : StateM FileTree _).run t = (a, u)) :
    (t.remove path = .ok u ∧ a = .ok ()) ∨
    ∃ e, t.remove path = .error e ∧ a = .error e ∧ u = t := settle_cases h

theorem run_stage {bytes : List UInt8}
    (h : (FileSystem.stage path bytes : StateM FileTree _).run t = (a, u)) :
    (∃ s, t.stage path bytes = .ok (s, u) ∧ a = .ok s) ∨
    ∃ e, t.stage path bytes = .error e ∧ a = .error e ∧ u = t := by
  cases hs : t.stage path bytes with
  | ok placed =>
    have hrun : (FileSystem.stage path bytes : StateM FileTree _).run t = (.ok placed.1, placed.2) := by
      simp only [FileSystem.stage, StateT.run, hs]
    rw [hrun] at h
    cases h
    exact .inl ⟨placed.1, rfl, rfl⟩
  | error e =>
    have hrun : (FileSystem.stage path bytes : StateM FileTree _).run t = (.error e, t) := by
      simp only [FileSystem.stage, StateT.run, hs]
    rw [hrun] at h
    cases h
    exact .inr ⟨e, rfl, rfl, rfl⟩

end FileTree

end RestRoutes
