import RestRoutes.Proofs.Except
import RestRoutes.Spec.Document

namespace RestRoutes

def DistinctIds (ops : List Operation) : Prop := (ops.map (·.id)).Nodup

theorem addOperation_distinct {done ops : List Operation} (hd : DistinctIds done)
    (h : addOperation done o = .ok ops) : DistinctIds ops := by
  cases o with
  | none =>
    cases h
    exact hd
  | some o =>
    simp only [addOperation] at h
    split at h
    · cases h
    · rename_i hnew
      cases h
      simp only [List.any_eq_true, decide_eq_true_eq, not_exists, not_and] at hnew
      simp only [DistinctIds, List.map_append, List.map_cons, List.map_nil]
      apply List.nodup_append.mpr
      refine ⟨hd, by simp, ?_⟩
      intro id hid id' hid'
      obtain ⟨p, hp, rfl⟩ := List.mem_map.mp hid
      rw [List.mem_singleton.mp hid']
      exact hnew p hp

theorem addPathItem_distinct {done ops : List Operation} (hd : DistinctIds done)
    (h : addPathItem done path item = .ok ops) : DistinctIds ops := by
  simp only [addPathItem] at h
  split at h
  · obtain ⟨common, -, h⟩ := bind_eq_ok_iff.mp h
    apply foldlM_invariant ?_ hd h
    intro done (member, v) ops hd hstep
    obtain ⟨o, -, hstep⟩ := bind_eq_ok_iff.mp hstep
    exact addOperation_distinct hd hstep
  · cases h

theorem addPaths_distinct {done ops : List Operation} (hd : DistinctIds done)
    (h : addPaths done paths = .ok ops) : DistinctIds ops := by
  apply foldlM_invariant ?_ hd h
  intro done (path, item) ops hd hstep
  simp only at hstep
  split at hstep
  · cases hstep
    exact hd
  · exact addPathItem_distinct hd hstep

theorem ApiDocument.ofExpanded_operations {d : ApiDocument} (h : ofExpanded root = .ok d) :
    ∃ paths, (root.get? "paths").bind Json.members? = some paths ∧
      addPaths [] paths = .ok d.operations := by
  unfold ofExpanded at h
  extract_lets rest at h
  have hrest : ∀ info, rest info = .ok d → ∃ paths,
      (root.get? "paths").bind Json.members? = some paths ∧ addPaths [] paths = .ok d.operations := by
    intro info h
    simp only [rest] at h
    split at h
    · rename_i hpaths
      obtain ⟨operations, hadd, h⟩ := bind_eq_ok_iff.mp h
      cases h
      exact ⟨_, hpaths, hadd⟩
    · cases h
  split at h
  · split at h
    · obtain ⟨info, -, h⟩ := bind_eq_ok_iff.mp h
      exact hrest info h
    · cases h
  · obtain ⟨info, -, h⟩ := bind_eq_ok_iff.mp h
    exact hrest info h

theorem ApiDocument.ofText_operations {d : ApiDocument} (h : ofText text = .ok d) :
    ∃ v root paths, Json.read text.toList = .ok v ∧ v.dereference = .ok root ∧
      (root.get? "paths").bind Json.members? = some paths ∧
      addPaths [] paths = .ok d.operations := by
  simp only [ofText] at h
  split at h
  · cases h
  rename_i v hread
  simp only [ofJson] at h
  split at h
  · cases h
  rename_i root hroot
  obtain ⟨paths, hpaths, hadd⟩ := ofExpanded_operations h
  exact ⟨v, root, paths, hread, hroot, hpaths, hadd⟩

theorem ApiDocument.ofText_distinct {d : ApiDocument} (h : ofText text = .ok d) :
    DistinctIds d.operations := by
  obtain ⟨-, -, paths, -, -, -, hadd⟩ := ofText_operations h
  exact addPaths_distinct (by simp [DistinctIds]) hadd

end RestRoutes
