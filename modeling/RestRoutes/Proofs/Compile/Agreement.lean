import Mathlib.Data.Finset.Card
import Mathlib.Data.Finset.Dedup
import Mathlib.Data.List.Nodup
import RestRoutes.Compile
import RestRoutes.Proofs.Reference.Sections
import RestRoutes.Proofs.Router.Registration
import RestRoutes.Proofs.Route.Table

namespace RestRoutes

/-- A statement that registers a route with one of the routers. -/
inductive Binding where
  | crow (s : Crow.Registration)
  | actix (s : Actix.Registration)

namespace Binding

def text : Binding → String
  | .crow s => s.text
  | .actix s => s.text

def method : Binding → Method
  | .crow s => s.method
  | .actix s => s.method

/-- What its handler calls, and the keys that it hands over. -/
def handed : Binding → List (String × String)
  | .crow s => s.handed
  | .actix s => s.handed

end Binding

namespace RouterKind

variable (k : RouterKind) (crow : Crow.Options) (actix : Actix.Options)

def binding (r : Route) : Binding :=
  match k with
  | .crow => .crow (Crow.registered crow r)
  | .actix => .actix (Actix.registered actix r)

def dispatcher : String :=
  match k with
  | .crow => crow.dispatcher
  | .actix => actix.dispatcher

def entryText (h : Handler) : String :=
  match k with
  | .crow => Crow.Handler.insertion crow h
  | .actix => Actix.Handler.insertion h

/-- The function of an operation. -/
def functionOf (operation : String) : String :=
  match k with
  | .crow => Crow.functionOf crow operation
  | .actix => Actix.functionOf actix operation

/-- The entries for the routes that the policy does not exclude. -/
def entries (p : Policy) (routes : List Route) : List Handler :=
  (routes.filter (·.operation ∉ p.excluded)).map fun r => ⟨r.key, functionOf k crow actix r.operation⟩

theorem text_binding (r : Route) :
    (k.binding crow actix r).text = (k.router crow actix).registration r := by
  cases k with
  | crow => exact Crow.text_registered crow r
  | actix => exact Actix.text_registered actix r

theorem method_binding (r : Route) : (k.binding crow actix r).method = r.method := by
  cases k with
  | crow => rfl
  | actix => rfl

theorem handed_binding (r : Route) :
    (k.binding crow actix r).handed = [(k.dispatcher crow actix, r.key)] := by
  cases k with
  | crow => exact Crow.handed_registered crow r
  | actix => exact Actix.handed_registered actix r

theorem text_entry (r : Route) :
    entryText k crow ⟨r.key, functionOf k crow actix r.operation⟩ = (k.router crow actix).entry r := by
  cases k with
  | crow => exact Crow.insertion_eq crow r
  | actix => exact Actix.insertion_eq actix r

/-- The sources that are generated for operations with these routes: one statement for each route, which
hands over its key, and one entry for each that the policy leaves. -/
structure Emits (p : Policy) (ops : List Operation) (routes : List Route) (bindings dispatchMap : String) :
    Prop where
  serves : List.Forall₂ (fun r o => r.Serves p o.1 o.2) routes ops.zipIdx
  bindings_eq : bindings = (k.router crow actix).bindingsOpening ++
    String.join ((routes.map (k.binding crow actix)).map (·.text)) ++ (k.router crow actix).bindingsClosing
  methods : (routes.map (k.binding crow actix)).map (·.method) = routes.map (·.method)
  handed : (routes.map (k.binding crow actix)).map (·.handed) =
    routes.map fun r => [(k.dispatcher crow actix, r.key)]
  dispatchMap_eq : dispatchMap = (k.router crow actix).dispatchOpening ++
    String.join ((k.entries crow actix p routes).map (k.entryText crow)) ++
    (k.router crow actix).dispatchClosing

theorem emits_of_table {p : Policy} {ops : List Operation} {routes : List Route}
    (h : Route.table p ops = .ok routes) :
    k.Emits crow actix p ops routes ((k.router crow actix).bindings routes)
      ((k.router crow actix).dispatchMap routes) := by
  obtain ⟨-, -, hserves⟩ := Route.table_eq_ok h
  refine ⟨hserves, ?_, ?_, ?_, ?_⟩
  · rw [Router.bindings, List.map_map]
    congr 3
    exact List.map_congr_left fun r _ => (text_binding k crow actix r).symm
  · rw [List.map_map]
    exact List.map_congr_left fun r _ => method_binding k crow actix r
  · rw [List.map_map]
    exact List.map_congr_left fun r _ => handed_binding k crow actix r
  · rw [Router.dispatchMap, List.filter_congr (Route.dispatchable_eq hserves), entries, List.map_map]
    congr 3
    exact List.map_congr_left fun r _ => (text_entry k crow actix r).symm

end RouterKind

/-- The generated texts agree with the document and with each other. Sections are read out of the page as
it is written, so nothing in the document or the blocks can add one or take one away. -/
structure Agreement (k : RouterKind) (crow : Crow.Options) (actix : Actix.Options) (d : ApiDocument)
    (o : CompileOptions) (g : Generated) : Prop where
  emits : k.Emits crow actix o.policy d.operations g.routes g.bindings g.dispatchMap
  registered : g.routes.length = d.operations.length
  entered : (k.entries crow actix o.policy g.routes).length + o.policy.excluded.toFinset.card =
    d.operations.length
  sections : Page.sectionIds g.reference.toList = g.routes.map fun r => Page.escape r.key.toList
  distinct : (Page.sectionIds g.reference.toList).Nodup

theorem compile_agrees {text : String} {d : ApiDocument} {k : RouterKind} {crow : Crow.Options}
    {actix : Actix.Options} {blocks : List Block} {o : CompileOptions} {g : Generated}
    (hd : ApiDocument.ofText text = .ok d) (hg : compile (k.router crow actix) d blocks o = .ok g) :
    Agreement k crow actix d o g := by
  obtain ⟨routes, htable, hg⟩ := bind_eq_ok_iff.mp hg
  cases hg
  obtain ⟨hknown, hkeys, hserves⟩ := Route.table_eq_ok htable
  have hops := Route.map_operation hserves
  have hlength : routes.length = d.operations.length := by
    simpa using congrArg List.length hops
  have hsections :
      Page.sectionIds (Page.ofEntries (titleOf o d) (ReferenceEntry.all routes blocks)).toList =
        routes.map fun r => Page.escape r.key.toList := by
    rw [Page.sectionIds_ofEntries, ReferenceEntry.all, List.map_map]
    rfl
  refine ⟨k.emits_of_table crow actix htable, hlength, ?_, hsections, ?_⟩
  · rw [RouterKind.entries, List.length_map]
    exact Route.length_dispatched_add_card (ApiDocument.ofText_distinct hd) hops hknown
  · have hinjective : Function.Injective fun key : String => Page.escape key.toList :=
      fun _ _ h => String.toList_inj.mp (Page.escape_injective h)
    have hids := hkeys.map hinjective
    rw [List.map_map] at hids
    simp only [hsections]
    exact hids

def pairText : String :=
  "\x7b\"paths\":\x7b\"/a\":\x7b\"get\":\x7b\"operationId\":\"x\"\x7d," ++
    "\"put\":\x7b\"operationId\":\"y\"\x7d\x7d\x7d\x7d"

def pairDocument : ApiDocument where
  operations := [
    { path := "/a", method := .get, id := "x" },
    { path := "/a", method := .put, id := "y" }]

def pairOptions : CompileOptions where
  policy := ⟨["y"]⟩

theorem compile_agrees_pair : ∃ g, ApiDocument.ofText pairText = .ok pairDocument ∧
    compile (RouterKind.crow.router {} {}) pairDocument [] pairOptions = .ok g ∧
    Agreement .crow {} {} pairDocument pairOptions g := by
  have hd : ApiDocument.ofText pairText = .ok pairDocument := eq_ok_iff_toOption.mpr (by decide +kernel)
  obtain ⟨g, hg⟩ : ∃ g, compile (RouterKind.crow.router {} {}) pairDocument [] pairOptions = .ok g :=
    ⟨_, rfl⟩
  exact ⟨g, hd, hg, compile_agrees hd hg⟩

end RestRoutes
