import Mathlib.Data.Finset.Card
import Mathlib.Data.Finset.Dedup
import Mathlib.Data.List.Forall2
import RestRoutes.Proofs.Except
import RestRoutes.Proofs.Spec.Operations
import RestRoutes.Route.Build

namespace RestRoutes

/-- The route of an operation, the operations before it being `number`. -/
structure Route.Serves (p : Policy) (r : Route) (o : Operation) (number : Nat) : Prop where
  path : r.path = o.path
  method : r.method = o.method
  operation : r.operation = o.id
  summary : r.summary = o.summary
  key : r.key = dispatchKey o.path number
  dispatchable : r.dispatchable = p.dispatches o.id

variable {p : Policy} {ops : List Operation}

namespace Route

section Operation

variable {number : Nat} {o : Operation} {r : Route} {names : List String} {e : BuildError}

/-- What a route has for one placeholder. -/
def parameterOf (o : Operation) (name : String) : Except BuildError RouteParameter :=
  match o.parameter? name with
  | some q => .ok ⟨name, q.type.slot⟩
  | none => .error (.noParameter name o.method o.path o.id)

theorem parametersOf_eq_mapM (o : Operation) (names : List String) :
    parametersOf o names = names.mapM (parameterOf o) := rfl

theorem parameterOf_eq_ok_iff {name : String} {q : RouteParameter} : parameterOf o name = .ok q ↔
    q.name = name ∧ ∃ typing, o.parameter? name = some typing ∧ q.slot = typing.type.slot := by
  rw [parameterOf]
  split
  · rename_i typing htyping
    constructor
    · intro h
      cases h
      exact ⟨rfl, typing, htyping, rfl⟩
    · rintro ⟨rfl, other, hother, hslot⟩
      rw [htyping, Option.some.injEq] at hother
      rw [hother, ← hslot]
  · rename_i hnone
    refine ⟨nofun, ?_⟩
    rintro ⟨-, typing, htyping, -⟩
    rw [hnone] at htyping
    cases htyping

theorem parameterOf_eq_error_iff {name : String} : parameterOf o name = .error e ↔
    o.parameter? name = none ∧ e = .noParameter name o.method o.path o.id := by
  rw [parameterOf]
  split
  · rename_i typing htyping
    rw [htyping]
    exact ⟨nofun, fun h => nomatch h.1⟩
  · rename_i hnone
    rw [hnone]
    exact ⟨fun h => ⟨rfl, (Except.error.inj h).symm⟩, fun h => congrArg _ h.2.symm⟩

theorem parametersOf_names {parameters : List RouteParameter} (h : parametersOf o names = .ok parameters) :
    parameters.map (·.name) = names := by
  rw [parametersOf_eq_mapM, mapM_eq_ok_iff] at h
  rw [← List.forall₂_eq_eq_eq, List.forall₂_map_left_iff]
  exact h.flip.imp fun _ _ hq => (parameterOf_eq_ok_iff.mp hq).1

theorem parameterOf_isOk_iff {name : String} :
    (∃ q, parameterOf o name = .ok q) ↔ o.parameter? name ≠ none := by
  cases htyping : o.parameter? name <;> simp [parameterOf, htyping]

theorem ofOperation_eq_ok_iff : ofOperation p number o = .ok r ↔ ∃ names parameters,
    Template.placeholders o.path = .ok names ∧ parametersOf o names = .ok parameters ∧
      r = { path := o.path, method := o.method,
            pattern := Template.substitute o.path (parameters.map (·.slot)), parameters, body := bodyOf o,
            key := dispatchKey o.path number, operation := o.id, dispatchable := p.dispatches o.id,
            summary := o.summary } := by
  rw [ofOperation]
  split
  · rename_i hnames
    simp [hnames]
  · rename_i names hnames
    rw [bind_eq_ok_iff]
    constructor
    · rintro ⟨parameters, hparameters, h⟩
      exact ⟨names, parameters, hnames, hparameters, (Except.ok.inj h).symm⟩
    · rintro ⟨names', parameters, hnames', hparameters, rfl⟩
      rw [hnames] at hnames'
      cases hnames'
      exact ⟨parameters, hparameters, rfl⟩

theorem ofOperation_eq_error_iff : ofOperation p number o = .error e ↔
    (∃ fault, Template.placeholders o.path = .error fault ∧ e = .template o.path o.id fault) ∨
      ∃ names, Template.placeholders o.path = .ok names ∧ parametersOf o names = .error e := by
  rw [ofOperation]
  split
  · rename_i fault hfault
    rw [hfault]
    constructor
    · intro h
      cases h
      exact .inl ⟨fault, rfl, rfl⟩
    · rintro (⟨_, hsame, rfl⟩ | ⟨_, hnames, -⟩)
      · cases hsame
        rfl
      · cases hnames
  · rename_i names hnames
    rw [hnames, bind_eq_error_iff]
    constructor
    · rintro (h | ⟨_, -, h⟩)
      · exact .inr ⟨names, rfl, h⟩
      · cases h
    · rintro (⟨_, hfault, -⟩ | ⟨_, hsame, h⟩)
      · cases hfault
      · cases hsame
        exact .inl h

theorem ofOperation_serves (h : ofOperation p number o = .ok r) :
    Serves p r o number := by
  obtain ⟨names, parameters, -, -, rfl⟩ := ofOperation_eq_ok_iff.mp h
  exact ⟨rfl, rfl, rfl, rfl, rfl, rfl⟩

end Operation

theorem any_key_map {f : Route → Route} (hf : ∀ r, (f r).key = r.key) (done : List Route) (key : String) :
    (done.map f).any (·.key = key) = done.any (·.key = key) := by
  rw [List.any_map]
  congr 1
  funext r
  exact congrArg (fun k => decide (k = key)) (hf r)

theorem tableFrom_cons (p : Policy) (number : Nat) (done : List Route) (o : Operation)
    (ops : List Operation) : tableFrom p number done (o :: ops) = (ofOperation p number o).bind fun r =>
      if done.any (·.key = r.key) then .error (.keyTaken r.key r.method r.path)
      else tableFrom p (number + 1) (done ++ [r]) ops := by
  rw [tableFrom]
  apply congrArg (Except.bind _)
  funext r
  split <;> rfl

theorem tableFrom_eq_ok {done routes : List Route} (hdone : (done.map (·.key)).Nodup)
    (h : tableFrom p number done ops = .ok routes) :
    (routes.map (·.key)).Nodup ∧ ∃ rest, routes = done ++ rest ∧
      List.Forall₂ (fun r o => Serves p r o.1 o.2) rest (ops.zipIdx number) := by
  induction ops generalizing number done with
  | nil =>
    cases h
    exact ⟨hdone, [], by simp, .nil⟩
  | cons o ops ih =>
    obtain ⟨r, hr, h⟩ := bind_eq_ok_iff.mp h
    split at h
    · cases h
    rename_i hnew
    simp only [List.any_eq_true, decide_eq_true_eq, not_exists, not_and] at hnew
    have hdone' : ((done ++ [r]).map (·.key)).Nodup := by
      rw [List.map_append]
      apply List.nodup_append.mpr
      refine ⟨hdone, by simp, ?_⟩
      intro key hkey key' hkey'
      obtain ⟨q, hq, rfl⟩ := List.mem_map.mp hkey
      rw [List.mem_singleton.mp hkey']
      exact hnew q hq
    obtain ⟨hkeys, rest, rfl, hrest⟩ := ih hdone' h
    refine ⟨hkeys, r :: rest, by simp, ?_⟩
    rw [List.zipIdx_cons]
    exact .cons (ofOperation_serves hr) hrest

end Route

theorem Policy.foldl_least_isSome (ids : List String) (id : String) :
    (ids.foldl (fun least id => match least with
      | none => some id
      | some other => some (if id < other then id else other)) (some id)).isSome := by
  induction ids generalizing id with
  | nil => rfl
  | cons other ids ih => exact ih _

theorem Policy.unknown?_eq_none_iff :
    p.unknown? ops = none ↔ ∀ id ∈ p.excluded, id ∈ ops.map (·.id) := by
  have hfilter : (p.excluded.filter fun id => ops.all (·.id ≠ id)) = [] ↔
      ∀ id ∈ p.excluded, id ∈ ops.map (·.id) := by
    simp [List.filter_eq_nil_iff]
  rw [← hfilter, unknown?]
  constructor
  · intro h
    cases hunknown : p.excluded.filter fun id => ops.all (·.id ≠ id) with
    | nil => rfl
    | cons other ids =>
      rw [hunknown, List.foldl_cons] at h
      exact absurd h (Option.isSome_iff_ne_none.mp (foldl_least_isSome ids other))
  · intro h
    rw [h]
    rfl

namespace Route

theorem table_eq_ok {routes : List Route} (h : table p ops = .ok routes) :
    (∀ id ∈ p.excluded, id ∈ ops.map (·.id)) ∧ (routes.map (·.key)).Nodup ∧
    List.Forall₂ (fun r o => Serves p r o.1 o.2) routes ops.zipIdx := by
  simp only [table] at h
  split at h
  · cases h
  · rename_i hknown
    obtain ⟨hkeys, rest, rfl, hrest⟩ := tableFrom_eq_ok (by simp) h
    exact ⟨Policy.unknown?_eq_none_iff.mp hknown, hkeys, hrest⟩

theorem map_operation {routes : List Route} {n : Nat}
    (h : List.Forall₂ (fun r o => Serves p r o.1 o.2) routes (ops.zipIdx n)) :
    routes.map (·.operation) = ops.map (·.id) := by
  induction ops generalizing routes n with
  | nil =>
    cases h
    rfl
  | cons o ops ih =>
    rw [List.zipIdx_cons] at h
    cases h with
    | cons hr hrest => rw [List.map_cons, List.map_cons, hr.operation, ih hrest]

theorem dispatchable_eq {routes : List Route} {numbered : List (Operation × Nat)}
    (h : List.Forall₂ (fun r o => Serves p r o.1 o.2) routes numbered) :
    ∀ r ∈ routes, r.dispatchable = p.dispatches r.operation := by
  induction h with
  | nil => simp
  | cons hr _ ih => exact List.forall_mem_cons.mpr ⟨by rw [hr.dispatchable, hr.operation], ih⟩

/-- Each name that the policy excludes is that of exactly one operation. -/
theorem length_dispatched_add_card {routes : List Route} {excluded : List String}
    (hids : DistinctIds ops) (hops : routes.map (·.operation) = ops.map (·.id))
    (hknown : ∀ id ∈ excluded, id ∈ ops.map (·.id)) :
    (routes.filter (·.operation ∉ excluded)).length + excluded.toFinset.card = ops.length := by
  have hkept : (routes.filter (·.operation ∉ excluded)).length =
      ((ops.map (·.id)).filter (· ∉ excluded)).length := by
    rw [← hops, List.filter_map, List.length_map]
    rfl
  have hdropped : excluded.toFinset = ((ops.map (·.id)).filter (· ∈ excluded)).toFinset := by
    ext id
    simp only [List.mem_toFinset, List.mem_filter, decide_eq_true_eq]
    exact ⟨fun hid => ⟨hknown id hid, hid⟩, And.right⟩
  rw [hkept, hdropped, List.toFinset_card_of_nodup (hids.filter _)]
  have hsplit := List.length_eq_length_filter_add (l := ops.map (·.id)) (· ∈ excluded)
  simp only [decide_not, List.length_map] at hsplit ⊢
  omega

end Route

end RestRoutes
