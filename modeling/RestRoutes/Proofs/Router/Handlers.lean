import Mathlib.Data.List.Nodup
import RestRoutes.Proofs.Compile.Agreement
import RestRoutes.Proofs.Text.Snake

namespace RestRoutes.Actix

def handlers (o : Options) (routes : List Route) : List Handler :=
  (routes.filter (·.dispatchable)).map fun r => ⟨r.key, functionOf o r.operation⟩

def dispatchClosing : String := "    handlers\n\x7d\n"

theorem dispatchMap_handlers (o : Options) (routes : List Route) : (router o).dispatchMap routes =
    dispatchOpening ++ String.join ((handlers o routes).map Handler.insertion) ++ dispatchClosing := by
  have hentries : (handlers o routes).map Handler.insertion =
      (routes.filter (·.dispatchable)).map (entry o) := by
    rw [handlers, List.map_map]
    exact List.map_congr_left fun r _ => insertion_eq o r
  rw [hentries]
  rfl

/-- No two keys lead to one function. -/
def Separate (hs : List Handler) : Prop :=
  ∀ h ∈ hs, ∀ h' ∈ hs, h.key ≠ h'.key → h.function ≠ h'.function

theorem functionOf_inj {o : Options} {a b : String} :
    functionOf o a = functionOf o b ↔ Text.snakeCase a = Text.snakeCase b :=
  String.append_right_inj _

/-- Keys tell routes apart just as the operations do. -/
theorem separate_handlers_iff {o : Options} {routes : List Route} (hkeys : (routes.map (·.key)).Nodup)
    (hids : (routes.map (·.operation)).Nodup) : Separate (handlers o routes) ↔
      Text.ApartInSnakeCase ((routes.filter (·.dispatchable)).map (·.operation)) := by
  have hne {r r' : Route} (hr : r ∈ routes.filter (·.dispatchable))
      (hr' : r' ∈ routes.filter (·.dispatchable)) : r.key ≠ r'.key ↔ r.operation ≠ r'.operation := by
    have hr := List.mem_of_mem_filter hr
    have hr' := List.mem_of_mem_filter hr'
    constructor
    · exact mt fun h => congrArg Route.key (List.inj_on_of_nodup_map hids hr hr' h)
    · exact mt fun h => congrArg Route.operation (List.inj_on_of_nodup_map hkeys hr hr' h)
  simp only [Separate, handlers, Text.ApartInSnakeCase, List.forall_mem_map]
  constructor
  · intro h r hr r' hr' hop hsame
    exact h r hr r' hr' ((hne hr hr').mpr hop) (functionOf_inj.mpr hsame)
  · intro h r hr r' hr' hkey hsame
    exact h r hr r' hr' ((hne hr hr').mp hkey) (functionOf_inj.mp hsame)

/-- The operations that the policy leaves in the dispatch map. -/
def dispatchedIds (d : ApiDocument) (p : Policy) : List String :=
  (d.operations.map (·.id)).filter (· ∉ p.excluded)

/-- The entries for the operations with these ids, in their order. -/
structure Names (o : Options) (ids : List String) (hs : List Handler) : Prop where
  keys : (hs.map (·.key)).Nodup
  functions : hs.map (·.function) = ids.map (functionOf o)
  /-- It takes two ids with one snake case for two keys to lead to one function. -/
  separate_iff : Separate hs ↔ Text.ApartInSnakeCase ids

theorem names_handlers {o : Options} {ops : List Operation} {p : Policy} {routes : List Route}
    (hids : DistinctIds ops) (h : Route.table p ops = .ok routes) :
    Names o ((ops.map (·.id)).filter (· ∉ p.excluded)) (handlers o routes) := by
  obtain ⟨-, hkeys, hserves⟩ := Route.table_eq_ok h
  have hops := Route.map_operation hserves
  have hdispatched : (routes.filter (·.dispatchable)).map (·.operation) =
      (ops.map (·.id)).filter (· ∉ p.excluded) := by
    rw [← hops, List.filter_map, List.filter_congr (Route.dispatchable_eq hserves)]
    rfl
  have hoperations : (routes.map (·.operation)).Nodup := by
    rw [hops]
    exact hids
  refine ⟨?_, ?_, ?_⟩
  · rw [handlers, List.map_map]
    exact hkeys.sublist (List.filter_sublist.map _)
  · rw [handlers, List.map_map, ← hdispatched, List.map_map]
    rfl
  · rw [← hdispatched]
    exact separate_handlers_iff hkeys hoperations

/-- The entries of the map that is compiled from a document. Ids of one style keep them separate. -/
theorem dispatchMap_names {text : String} {d : ApiDocument} {o : Options} {blocks : List Block}
    {opts : CompileOptions} {g : Generated} (hd : ApiDocument.ofText text = .ok d)
    (hg : compile (router o) d blocks opts = .ok g) :
    g.dispatchMap = dispatchOpening ++
      String.join ((handlers o g.routes).map Handler.insertion) ++ dispatchClosing ∧
    Names o (dispatchedIds d opts.policy) (handlers o g.routes) ∧
    (Text.OneStyle (dispatchedIds d opts.policy) → Separate (handlers o g.routes)) := by
  obtain ⟨routes, htable, hg⟩ := bind_eq_ok_iff.mp hg
  cases hg
  have hnames : Names o (dispatchedIds d opts.policy) (handlers o routes) :=
    names_handlers (ApiDocument.ofText_distinct hd) htable
  exact ⟨dispatchMap_handlers o routes, hnames, fun hstyle => hnames.separate_iff.mpr hstyle.apart⟩

theorem dispatchMap_names_pair : ∃ g, ApiDocument.ofText pairText = .ok pairDocument ∧
    compile (router {}) pairDocument [] {} = .ok g ∧
    g.dispatchMap = dispatchOpening ++
      String.join ((handlers {} g.routes).map Handler.insertion) ++ dispatchClosing ∧
    (handlers {} g.routes).map (·.function) = ["crate::controller::x", "crate::controller::y"] ∧
    Separate (handlers {} g.routes) := by
  have hd : ApiDocument.ofText pairText = .ok pairDocument := eq_ok_iff_toOption.mpr (by decide +kernel)
  obtain ⟨g, hg⟩ : ∃ g, compile (router {}) pairDocument [] {} = .ok g := ⟨_, rfl⟩
  obtain ⟨hmap, hnames, hstyle⟩ := dispatchMap_names hd hg
  have hsmall : Text.OneStyle (dispatchedIds pairDocument {}) := by
    have hx : Text.isUpper 'x' = false := by decide +kernel
    have hy : Text.isUpper 'y' = false := by decide +kernel
    have hids : dispatchedIds pairDocument {} = ["x", "y"] := rfl
    rw [hids]
    exact .small (by simp [hx, hy])
  exact ⟨g, hd, hg, hmap, hnames.functions.trans (by decide +kernel), hstyle hsmall⟩

def timeText : String :=
  "\x7b\"paths\":\x7b\"/a\":\x7b\"get\":\x7b\"operationId\":\"getTime\"\x7d," ++
    "\"put\":\x7b\"operationId\":\"get_time\"\x7d\x7d\x7d\x7d"

def timeDocument : ApiDocument where
  operations := [
    { path := "/a", method := .get, id := "getTime" },
    { path := "/a", method := .put, id := "get_time" }]

/-- Both keys lead to the function of the second operation. -/
theorem dispatchMap_shares_function : ∃ g, ApiDocument.ofText timeText = .ok timeDocument ∧
    compile (router {}) timeDocument [] {} = .ok g ∧
    g.dispatchMap = dispatchOpening ++
      String.join ((handlers {} g.routes).map Handler.insertion) ++ dispatchClosing ∧
    handlers {} g.routes =
      [⟨"a_0", "crate::controller::get_time"⟩, ⟨"a_1", "crate::controller::get_time"⟩] ∧
    ¬ Separate (handlers {} g.routes) := by
  have hd : ApiDocument.ofText timeText = .ok timeDocument := eq_ok_iff_toOption.mpr (by decide +kernel)
  have hfirst : Text.snakeCase "getTime" = "get_time" := by decide +kernel
  have hsecond : Text.snakeCase "get_time" = "get_time" := by decide +kernel
  obtain ⟨routes, htable, hhandlers⟩ : ∃ routes,
      Route.table {} timeDocument.operations = .ok routes ∧
      handlers {} routes =
        [⟨"a_0", functionOf {} "getTime"⟩, ⟨"a_1", functionOf {} "get_time"⟩] := ⟨_, rfl, rfl⟩
  simp only [functionOf, hfirst, hsecond, String.reduceAppend] at hhandlers
  obtain ⟨g, hg, rfl⟩ : ∃ g, compile (router {}) timeDocument [] {} = .ok g ∧ g.routes = routes :=
    ⟨_, bind_eq_ok_iff.mpr ⟨routes, htable, rfl⟩, rfl⟩
  have hmap : g.dispatchMap = (router {}).dispatchMap g.routes := by
    obtain ⟨_, -, h⟩ := bind_eq_ok_iff.mp hg
    cases h
    rfl
  refine ⟨g, hd, hg, hmap.trans (dispatchMap_handlers {} g.routes), hhandlers, ?_⟩
  rw [hhandlers]
  intro hseparate
  exact hseparate _ List.mem_cons_self _ (List.mem_cons_of_mem _ List.mem_cons_self) (by decide) rfl

end RestRoutes.Actix
