import Mathlib.Data.List.Forall2
import Mathlib.Data.List.Nodup
import Mathlib.Data.List.Pairwise
import RestRoutes.Proofs.Compile.Agreement
import RestRoutes.Proofs.Spec.Enumeration

namespace RestRoutes

structure Endpoint where
  path : String
  method : Method
  deriving DecidableEq

def Operation.endpoint (o : Operation) : Endpoint := ⟨o.path, o.method⟩

def DistinctEndpoints (ops : List Operation) : Prop := (ops.map (·.endpoint)).Nodup

/-- Of some names no two are one method's. -/
def Method.SpelledOnce (names : String → Prop) : Prop :=
  ∀ name name' m, names name → names name' → ofKey? name = some m → ofKey? name' = some m → name = name'

theorem nodup_filterMap_iff {α β : Type _} {f : α → Option β} {l : List α} (h : l.Nodup) :
    (l.filterMap f).Nodup ↔ ∀ a ∈ l, ∀ b ∈ l, ∀ m, f a = some m → f b = some m → a = b := by
  rw [List.Nodup, List.pairwise_filterMap]
  constructor
  · intro hpair a ha b hb m hfa hfb
    have hsymm : Std.Symm fun a b => ∀ m, f a = some m → ∀ m', f b = some m' → m ≠ m' :=
      ⟨fun _ _ hne m hm m' hm' => (hne m' hm' m hm).symm⟩
    by_contra hne
    exact hpair.forall ha hb hne m hfa m hfb rfl
  · intro hall
    apply h.imp_of_mem
    intro a b ha hb hne m hfa m' hfb hsame
    exact hne (hall a ha b hb m hfa (hsame ▸ hfb))

theorem Method.spelledOnce_iff {names : List String} (h : names.Nodup) :
    SpelledOnce (· ∈ names) ↔ (names.filterMap ofKey?).Nodup := by
  rw [nodup_filterMap_iff h]
  exact ⟨fun h name hname name' hname' m => h name name' m hname hname',
    fun h name name' m hname hname' => h name hname name' hname' m⟩

def OperationMember.endpoint (m : OperationMember) : Endpoint := ⟨m.path, m.method⟩

theorem map_endpoint {ms : List OperationMember} {ops : List Operation}
    (h : List.Forall₂ OperationMember.Gives ms ops) : ops.map (·.endpoint) = ms.map (·.endpoint) := by
  rw [← List.forall₂_eq_eq_eq, List.forall₂_map_left_iff, List.forall₂_map_right_iff]
  apply h.flip.imp
  intro o m hgives
  rw [Operation.endpoint, OperationMember.endpoint, hgives.path, hgives.method]

theorem nodup_itemMembers_iff {path : String} {members : Table Json} (h : members.names.Nodup) :
    ((itemMembers path (.object members)).map (·.endpoint)).Nodup ↔
      Method.SpelledOnce (· ∈ members.names) := by
  have hmethods : (itemMembers path (.object members)).map (·.endpoint) =
      (members.names.filterMap Method.ofKey?).map (Endpoint.mk path) := by
    simp only [itemMembers, Json.members?, Option.getD_some, Table.names, List.map_filterMap,
      List.filterMap_map, Function.comp_def, Option.map_map]
    rfl
  have hinjective : Function.Injective (Endpoint.mk path) := fun _ _ h => (Endpoint.mk.inj h).2
  rw [hmethods, List.nodup_map_iff hinjective, Method.spelledOnce_iff h]

theorem path_of_mem_itemMembers {path : String} {item : Json} {m : OperationMember}
    (h : m ∈ itemMembers path item) : m.path = path := by
  obtain ⟨e, -, he⟩ := List.mem_filterMap.mp h
  obtain ⟨method, -, rfl⟩ := Option.map_eq_some_iff.mp he
  rfl

/-- Path items have different paths, so each of them is looked at by itself. -/
theorem nodup_operationMembers_iff {paths : Table Json} (hpaths : Json.NamedOnce (.object paths)) :
    ((operationMembers paths).map (·.endpoint)).Nodup ↔ ∀ path members, (path, .object members) ∈ paths →
      isExtension path = false → Method.SpelledOnce (· ∈ Table.names members) := by
  obtain ⟨hnames, hnamed⟩ := Json.namedOnce_object_iff.mp hpaths
  have hpath (e : String × Json) : ∀ m ∈ (if isExtension e.1 then [] else itemMembers e.1 e.2),
      m.path = e.1 := by
    intro m hm
    split at hm
    · cases hm
    · exact path_of_mem_itemMembers hm
  rw [operationMembers, List.map_flatMap, List.nodup_flatMap, and_iff_left]
  · constructor
    · intro h path members hmem hextension
      have hitem := h _ hmem
      simp only [hextension, Bool.false_eq_true, if_false] at hitem
      exact (nodup_itemMembers_iff (Json.namedOnce_object_iff.mp (hnamed _ hmem)).1).mp hitem
    · rintro h ⟨path, item⟩ hmem
      dsimp only
      split
      · exact List.nodup_nil
      · rename_i hextension
        cases item with
        | object members =>
          apply (nodup_itemMembers_iff (Json.namedOnce_object_iff.mp (hnamed _ hmem)).1).mpr
          exact h path members hmem (by simpa using hextension)
        | _ => exact List.nodup_nil
  · apply (List.pairwise_map.mp hnames).imp
    intro e e' hne
    apply List.disjoint_left.mpr
    intro endpoint he he'
    obtain ⟨m, hm, rfl⟩ := List.mem_map.mp he
    obtain ⟨m', hm', hsame⟩ := List.mem_map.mp he'
    have hpaths := congrArg Endpoint.path hsame
    exact hne ((hpath e m hm).symm.trans (hpaths.symm.trans (hpath e' m' hm')))

theorem hasName_of_pathsOf {text : String} {v : Json} {paths members : Table Json} {path name : String}
    (hread : Json.read text.toList = .ok v) (hpaths : pathsOf? text = some paths)
    (hmem : (path, .object members) ∈ paths) (hname : name ∈ Table.names members) : v.HasName name := by
  obtain ⟨w, hw, h⟩ := Option.bind_eq_some_iff.mp hpaths
  obtain ⟨root, hroot, h⟩ := Option.bind_eq_some_iff.mp h
  obtain ⟨item, hitem, hmembers⟩ := Option.bind_eq_some_iff.mp h
  rw [hread, Except.toOption, Option.some.injEq] at hw
  subst hw
  apply Json.hasName_of_dereference (eq_ok_iff_toOption.mpr hroot)
  refine ⟨members, ?_, hname⟩
  cases root with
  | object top =>
    cases item with
    | object ms =>
      cases hmembers
      exact .member (Table.mem_of_get? hitem) (.member hmem (.self _))
    | _ => cases hmembers
  | _ => cases hitem

def Route.endpoint (r : Route) : Endpoint := ⟨r.path, r.method⟩

theorem map_route_endpoint {p : Policy} {routes : List Route} {ops : List Operation}
    (h : List.Forall₂ (fun r o => r.Serves p o.1 o.2) routes ops.zipIdx) :
    routes.map (·.endpoint) = ops.map (·.endpoint) := by
  have hnumbered : ops.map (·.endpoint) = ops.zipIdx.map fun o => o.1.endpoint := by
    conv_lhs => rw [← List.zipIdx_map_fst 0 ops, List.map_map]
    rfl
  rw [hnumbered, ← List.forall₂_eq_eq_eq, List.forall₂_map_left_iff, List.forall₂_map_right_iff]
  apply h.imp
  intro r o hr
  rw [Route.endpoint, Operation.endpoint, hr.path, hr.method]

/-- The endpoints of an accepted document, and the handlers that are registered at them. -/
theorem endpoints_distinct_iff {text : String} {d : ApiDocument} (hd : ApiDocument.ofText text = .ok d) :
    (∃ v paths, Json.read text.toList = .ok v ∧ pathsOf? text = some paths ∧
      (DistinctEndpoints d.operations ↔ ∀ path members, (path, .object members) ∈ paths →
        isExtension path = false → Method.SpelledOnce (· ∈ Table.names members)) ∧
      (Method.SpelledOnce v.HasName → DistinctEndpoints d.operations)) ∧
    ∀ (k : RouterKind) (crow : Crow.Options) (actix : Actix.Options) (blocks : List Block)
      (o : CompileOptions) (g : Generated), compile (k.router crow actix) d blocks o = .ok g →
      k.Emits crow actix o.policy d.operations g.routes g.bindings g.dispatchMap ∧
        g.routes.map (·.endpoint) = d.operations.map (·.endpoint) := by
  constructor
  · obtain ⟨v, -, -, hread, -⟩ := ApiDocument.ofText_operations hd
    obtain ⟨paths, hpaths, honce, hmakes⟩ := ApiDocument.ofText_paths hd
    have hgives := hmakes.imp fun _ _ h => OperationMember.Makes.gives h honce
    have hiff : DistinctEndpoints d.operations ↔ ∀ path members, (path, .object members) ∈ paths →
        isExtension path = false → Method.SpelledOnce (· ∈ Table.names members) := by
      rw [DistinctEndpoints, map_endpoint hgives]
      exact nodup_operationMembers_iff honce
    refine ⟨v, paths, hread, hpaths, hiff, fun hspelled => hiff.mpr ?_⟩
    intro path members hmem _ name name' m hname hname'
    exact hspelled name name' m (hasName_of_pathsOf hread hpaths hmem hname)
      (hasName_of_pathsOf hread hpaths hmem hname')
  · intro k crow actix blocks o g hg
    obtain ⟨routes, htable, hg⟩ := bind_eq_ok_iff.mp hg
    cases hg
    exact ⟨k.emits_of_table crow actix htable, map_route_endpoint (Route.table_eq_ok htable).2.2⟩

def assembledText : String :=
  "\x7b\"item\":\x7b\"get\":\x7b\"operationId\":\"x\"\x7d\x7d,\"paths\":\x7b\"/a\":\x7b" ++
    "\"$ref\":\"#/item\",\"PUT\":\x7b\"operationId\":\"y\"\x7d\x7d\x7d\x7d"

def assembledItem : Table Json :=
  [("get", .object [("operationId", .string "x")]), ("PUT", .object [("operationId", .string "y")])]

theorem endpoints_distinct_assembled : ApiDocument.ofText assembledText = .ok pairDocument ∧
    DistinctEndpoints pairDocument.operations ∧ ∃ g,
      compile (RouterKind.crow.router {} {}) pairDocument [] pairOptions = .ok g ∧
      RouterKind.crow.Emits {} {} pairOptions.policy pairDocument.operations g.routes g.bindings
        g.dispatchMap ∧
      g.routes.map (·.endpoint) = [⟨"/a", .get⟩, ⟨"/a", .put⟩] := by
  have hd : ApiDocument.ofText assembledText = .ok pairDocument := by cbv
  have hread : pathsOf? assembledText = some [("/a", .object assembledItem)] := by cbv
  obtain ⟨g, hg⟩ : ∃ g, compile (RouterKind.crow.router {} {}) pairDocument [] pairOptions = .ok g :=
    ⟨_, rfl⟩
  obtain ⟨⟨v, paths, -, hpaths, hiff, -⟩, hbindings⟩ := endpoints_distinct_iff hd
  obtain ⟨hemits, hendpoints⟩ := hbindings .crow {} {} [] pairOptions g hg
  refine ⟨hd, hiff.mpr ?_, g, hg, hemits, hendpoints⟩
  intro path members hmem _
  cases hread.symm.trans hpaths
  cases List.mem_singleton.mp hmem
  exact (Method.spelledOnce_iff (by decide)).mpr (by decide)

def respelledText : String :=
  "\x7b\"paths\":\x7b\"/a\":\x7b\"get\":\x7b\"operationId\":\"x\"\x7d," ++
    "\"GET\":\x7b\"operationId\":\"y\"\x7d\x7d\x7d\x7d"

def respelledDocument : ApiDocument where
  operations := [
    { path := "/a", method := .get, id := "x" },
    { path := "/a", method := .get, id := "y" }]

theorem endpoint_bound_twice : ApiDocument.ofText respelledText = .ok respelledDocument ∧
    ¬ DistinctEndpoints respelledDocument.operations ∧ ∃ g,
      compile (RouterKind.actix.router {} {}) respelledDocument [] {} = .ok g ∧
      g.routes.map (·.endpoint) = [⟨"/a", .get⟩, ⟨"/a", .get⟩] ∧
      g.routes.map (·.key) = ["a_0", "a_1"] ∧
      RouterKind.actix.Emits {} {} {} respelledDocument.operations g.routes g.bindings g.dispatchMap := by
  obtain ⟨routes, htable, hendpoints, hkeys⟩ : ∃ routes,
      Route.table {} respelledDocument.operations = .ok routes ∧
      routes.map (·.endpoint) = [⟨"/a", .get⟩, ⟨"/a", .get⟩] ∧ routes.map (·.key) = ["a_0", "a_1"] :=
    ⟨_, rfl, rfl, rfl⟩
  obtain ⟨g, hg, hemits⟩ : ∃ g, compile (RouterKind.actix.router {} {}) respelledDocument [] {} = .ok g ∧
      g.routes = routes ∧ RouterKind.actix.Emits {} {} {} respelledDocument.operations g.routes g.bindings
        g.dispatchMap :=
    ⟨_, bind_eq_ok_iff.mpr ⟨routes, htable, rfl⟩, rfl, RouterKind.actix.emits_of_table {} {} htable⟩
  obtain ⟨rfl, hemits⟩ := hemits
  refine ⟨by cbv, ?_, g, hg, hendpoints, hkeys, hemits⟩
  unfold DistinctEndpoints
  decide

end RestRoutes
