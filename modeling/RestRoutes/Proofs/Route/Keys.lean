import RestRoutes.Proofs.Route.Table
import RestRoutes.Proofs.Text.Division

namespace RestRoutes

theorem underscore_notMem_repr (n : Nat) : '_' ∉ n.repr.toList := by
  rw [Nat.toList_repr]
  simp

theorem toList_dispatchKey (path : String) (n : Nat) :
    (dispatchKey path n).toList = (dispatchSegment path).toList ++ '_' :: n.repr.toList := by
  simp [dispatchKey]

/-- A segment may hold underscores and digits, but behind the last underscore of a key stands its number
alone. -/
theorem dispatchKey_inj {path path' : String} {i j : Nat} (h : dispatchKey path i = dispatchKey path' j) :
    dispatchSegment path = dispatchSegment path' ∧ i = j := by
  have hdigits (n : Nat) : ∀ c ∈ n.repr.toList.reverse, decide (c ≠ '_') = true := by
    intro c hc
    rw [decide_eq_true_eq]
    rintro rfl
    exact underscore_notMem_repr n (List.mem_reverse.mp hc)
  have hreverse := congrArg (fun key => key.toList.reverse) h
  simp only [toList_dispatchKey, List.reverse_append, List.reverse_cons, List.append_assoc,
    List.singleton_append] at hreverse
  obtain ⟨hnumber, hsegment⟩ :=
    Text.append_inj_of_head (hdigits i) (hdigits j) (by simp) (by simp) hreverse
  rw [List.reverse_inj, Nat.toList_repr, Nat.toList_repr] at hnumber
  rw [List.cons.injEq, List.reverse_inj, String.toList_inj] at hsegment
  have hread := congrArg (Nat.ofDigitChars 10 · 0) hnumber
  simp only [Nat.ofDigitChars_ten_toDigits] at hread
  exact ⟨hsegment.2, hread⟩

variable {p : Policy} {ops : List Operation}

namespace Route

/-- An operation is served without regard to the keys of others. -/
theorem ofOperation_ne_keyTaken (p : Policy) (number : Nat) (o : Operation) (key : String) (m : Method)
    (path : String) : ofOperation p number o ≠ .error (.keyTaken key m path) := by
  intro h
  rcases ofOperation_eq_error_iff.mp h with ⟨_, -, he⟩ | ⟨names, -, h⟩
  · cases he
  · rw [parametersOf_eq_mapM] at h
    obtain ⟨_, name, _, -, -, hname⟩ := mapM_eq_error_iff.mp h
    cases (parameterOf_eq_error_iff.mp hname).2

/-- All keys of a table are those of smaller numbers. -/
def NumberedBelow (number : Nat) (routes : List Route) : Prop :=
  ∀ r ∈ routes, ∃ path i, i < number ∧ r.key = dispatchKey path i

theorem NumberedBelow.append {number : Nat} {routes : List Route} {r : Route} {o : Operation}
    (h : NumberedBelow number routes) (hr : Serves p r o number) :
    NumberedBelow (number + 1) (routes ++ [r]) := by
  intro q hq
  rcases List.mem_append.mp hq with hq | hq
  · obtain ⟨path, i, hi, hkey⟩ := h q hq
    exact ⟨path, i, by omega, hkey⟩
  · rw [List.mem_singleton.mp hq]
    exact ⟨o.path, number, by omega, hr.key⟩

theorem NumberedBelow.key_free {number : Nat} {routes : List Route} {r : Route} {o : Operation}
    (h : NumberedBelow number routes) (hr : Serves p r o number) :
    routes.any (·.key = r.key) = false := by
  simp only [List.any_eq_false, decide_eq_true_eq]
  intro q hq hkey
  obtain ⟨path, i, hi, hold⟩ := h q hq
  rw [hold, hr.key] at hkey
  have := (dispatchKey_inj hkey).2
  omega

/-- The check for keys in use never fires: each operation is served by itself. -/
theorem tableFrom_eq_mapM {number : Nat} {done : List Route} (h : NumberedBelow number done) :
    tableFrom p number done ops =
      (done ++ ·) <$> (ops.zipIdx number).mapM fun o => ofOperation p o.2 o.1 := by
  induction ops generalizing number done with
  | nil => simp [tableFrom]
  | cons o ops ih =>
    rw [tableFrom, List.zipIdx_cons, List.mapM_cons]
    cases hr : ofOperation p number o with
    | error e => rfl
    | ok r =>
      have hserves := ofOperation_serves hr
      simp only [bind, Except.bind, h.key_free hserves, Bool.false_eq_true, if_false]
      rw [ih (h.append hserves)]
      cases (ops.zipIdx (number + 1)).mapM fun o => ofOperation p o.2 o.1 with
      | error e => rfl
      | ok rest => simp [Functor.map, Except.map, pure, Except.pure]

/-- A key is never taken. -/
theorem table_ne_keyTaken (p : Policy) (ops : List Operation) (key : String) (m : Method)
    (path : String) : table p ops ≠ .error (.keyTaken key m path) := by
  intro h
  simp only [table] at h
  split at h
  · cases h
  rw [tableFrom_eq_mapM (by simp [NumberedBelow]), map_eq_error_iff] at h
  obtain ⟨-, o, -, -, -, ho⟩ := mapM_eq_error_iff.mp h
  exact ofOperation_ne_keyTaken p o.2 o.1 key m path ho

theorem map_key {routes : List Route} {numbered : List (Operation × Nat)}
    (h : List.Forall₂ (fun r o => Serves p r o.1 o.2) routes numbered) :
    routes.map (·.key) = numbered.map fun o => dispatchKey o.1.path o.2 := by
  induction h with
  | nil => rfl
  | cons hr _ ih => rw [List.map_cons, List.map_cons, hr.key, ih]

/-- Keys of operations with different numbers differ, whatever their paths are. -/
theorem nodup_dispatchKeys (ops : List Operation) :
    (ops.zipIdx.map fun o => dispatchKey o.1.path o.2).Nodup := by
  have hnumbers : (ops.zipIdx.map Prod.snd).Nodup := by
    rw [List.zipIdx_map_snd]
    exact List.nodup_range'
  rw [List.Nodup, List.pairwise_map] at hnumbers ⊢
  exact hnumbers.imp fun hne hkey => hne (dispatchKey_inj hkey).2

theorem table_keys (p : Policy) (ops : List Operation) :
    (∀ routes, table p ops = .ok routes → (routes.map (·.key)).Nodup ∧
      routes.map (·.key) = ops.zipIdx.map fun o => dispatchSegment o.1.path ++ "_" ++ toString o.2) ∧
    ∀ key m path, table p ops ≠ .error (.keyTaken key m path) := by
  refine ⟨fun routes h => ?_, table_ne_keyTaken p ops⟩
  have hkeys := map_key (table_eq_ok h).2.2
  exact ⟨hkeys ▸ nodup_dispatchKeys ops, hkeys⟩

def lookalikes : List Operation := [
  { path := "/x/a_1", method := .get, id := "same" },
  { path := "/a", method := .get, id := "same" },
  { path := "/a", method := .get, id := "same" },
  { path := "/z/{a_1}_1/", method := .get, id := "last", parameters := [⟨"a_1", .path, ⟨"string", none⟩⟩] }]

theorem table_keys_lookalikes : ∃ routes, table ⟨["same"]⟩ lookalikes = .ok routes ∧
    (routes.map (·.key)).Nodup ∧ routes.map (·.key) = ["a_1_0", "a_1", "a_2", "a_1_1_3"] := by
  obtain ⟨routes, h⟩ : ∃ routes, table ⟨["same"]⟩ lookalikes = .ok routes := ⟨_, rfl⟩
  obtain ⟨hnodup, hkeys⟩ := (table_keys ⟨["same"]⟩ lookalikes).1 routes h
  exact ⟨routes, h, hnodup, hkeys.trans (by decide)⟩

end Route

end RestRoutes
