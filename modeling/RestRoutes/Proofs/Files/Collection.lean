import Mathlib
import RestRoutes.Proofs.Files.Preorder
import RestRoutes.Proofs.Files.Run
import RestRoutes.Source

namespace RestRoutes.Source

open FileTree

variable {t u : FileTree} {extensions sources names files : List String} {source file : String}
  {offered : List (List String)}

/-- The last name has one of the extensions behind its last dot, and something before that dot. -/
def HasExtension (extensions names : List String) : Prop :=
  ∃ directories name stem extension, names = directories ++ [name] ∧
    name.toList = stem ++ '.' :: extension.toList ∧ stem ≠ [] ∧ '.' ∉ extension.toList ∧
    extension ∈ extensions

theorem extension?_eq_some_iff {name extension : String} : Path.extension? name = some extension ↔
    ∃ stem, name.toList = stem ++ '.' :: extension.toList ∧ stem ≠ [] ∧ '.' ∉ extension.toList := by
  rw [Path.extension?]
  constructor
  · intro h
    have hsplit := List.takeWhile_append_dropWhile (p := (· ≠ '.')) (l := name.toList.reverse)
    split at h
    · rename_i c rest hdrop
      cases h
      rw [hdrop] at hsplit
      have hname := congrArg List.reverse hsplit
      rw [List.reverse_reverse] at hname
      refine ⟨(c :: rest).reverse, hname.symm.trans (by simp), by simp, fun hmem => ?_⟩
      · rw [String.toList_ofList, List.mem_reverse] at hmem
        simpa using List.mem_takeWhile_imp hmem
    · cases h
  · rintro ⟨stem, hname, hstem, hdot⟩
    obtain ⟨c, rest, hrest⟩ := List.exists_cons_of_ne_nil (List.reverse_ne_nil_iff.mpr hstem)
    have hplain : ∀ c ∈ extension.toList.reverse, decide (c ≠ '.') = true := fun c hc =>
      decide_eq_true fun he => hdot (he ▸ List.mem_reverse.mp hc)
    have hreverse : name.toList.reverse = extension.toList.reverse ++ '.' :: c :: rest := by
      rw [hname, List.reverse_append, List.reverse_cons, List.append_assoc, List.singleton_append, hrest]
    rw [hreverse, List.takeWhile_append_of_pos hplain, List.dropWhile_append_of_pos hplain]
    simp

theorem hasExtension_iff : hasExtension extensions names = true ↔ HasExtension extensions names := by
  rw [hasExtension]
  constructor
  · intro h
    split at h
    · rename_i extension hbind
      obtain ⟨name, hname, hextension⟩ := Option.bind_eq_some_iff.mp hbind
      obtain ⟨directories, rfl⟩ := List.getLast?_eq_some_iff.mp hname
      obtain ⟨stem, hsplit, hstem, hdot⟩ := extension?_eq_some_iff.mp hextension
      exact ⟨directories, name, stem, extension, rfl, hsplit, hstem, hdot, of_decide_eq_true h⟩
    · cases h
  · rintro ⟨directories, name, stem, extension, rfl, hsplit, hstem, hdot, hmem⟩
    have hextension := extension?_eq_some_iff.mpr ⟨stem, hsplit, hstem, hdot⟩
    rw [List.getLast?_concat, Option.bind_some, hextension]
    exact decide_eq_true hmem

theorem HasExtension.ne_nil {names : List String} (h : HasExtension extensions names) : names ≠ [] := by
  obtain ⟨directories, name, -, -, rfl, -⟩ := h
  simp

theorem HasExtension.append {names : List String} (h : HasExtension extensions names)
    (directories : List String) : HasExtension extensions (directories ++ names) := by
  obtain ⟨before, name, stem, extension, rfl, hrest⟩ := h
  exact ⟨directories ++ before, name, stem, extension, (List.append_assoc ..).symm, hrest⟩

/-- What a source stands for, in the order of a walk. -/
inductive Offers (t : FileTree) (extensions : List String) (source : String) : List String → Prop where
  | file (h : t.kind source = some .file) : Offers t extensions source [source]
  | directory (h : t.locate true source = .ok (.found base .directory)) :
    Offers t extensions source
      (((t.preorder base).filter (hasExtension extensions)).map (Path.join source))

/-- A source stands for itself if it is a file, and else for each wanted file below it. -/
inductive StandsFor (t : FileTree) (extensions : List String) (source : String) : String → Prop where
  | itself (h : t.kind source = some .file) : StandsFor t extensions source source
  | below {names : List String} (h : t.locate true source = .ok (.found base .directory))
    (hfile : t.get? (base ++ names) = some (.file bytes)) (hextension : HasExtension extensions names) :
    StandsFor t extensions source (Path.join source names)

theorem exists_offers (extensions : List String) (h : t.kind source ≠ none) :
    ∃ files, Offers t extensions source files := by
  obtain ⟨k, hk⟩ := Option.ne_none_iff_exists'.mp h
  cases k with
  | file => exact ⟨_, .file hk⟩
  | directory =>
    obtain ⟨base, hbase⟩ := kind_eq_directory.mp hk
    exact ⟨_, .directory hbase⟩

theorem Offers.mem_iff (h : Offers t extensions source files) (ht : t.WellFormed) :
    file ∈ files ↔ StandsFor t extensions source file := by
  cases h with
  | file h =>
    rw [List.mem_singleton]
    constructor
    · rintro rfl
      exact .itself h
    · intro hfile
      cases hfile with
      | itself => rfl
      | below hbase =>
        rw [kind_eq_directory.mpr ⟨_, hbase⟩] at h
        cases h
  | @directory base hbase =>
    simp only [List.mem_map, List.mem_filter, ht.mem_preorder_iff, hasExtension_iff]
    constructor
    · rintro ⟨names, ⟨⟨-, bytes, hfile⟩, hextension⟩, rfl⟩
      exact .below hbase hfile hextension
    · intro hfile
      cases hfile with
      | itself h =>
        rw [kind_eq_directory.mpr ⟨_, hbase⟩] at h
        cases h
      | below hbase' hfile hextension =>
        cases hbase.symm.trans hbase'
        obtain ⟨directories, name, -, -, rfl, -⟩ := id hextension
        exact ⟨_, ⟨⟨by simp, _, hfile⟩, hextension⟩, rfl⟩

theorem run_expand_of_offers (ht : t.WellFormed) (h : Offers t extensions source files) :
    (expand extensions source : StateM FileTree _).run t = (.ok files, t) := by
  rw [expand]
  refine run_bind_eq_iff.mpr ⟨_, t, run_kind t source, ?_⟩
  cases h with
  | file h =>
    rw [h]
    rfl
  | directory hbase =>
    rw [kind_eq_directory.mpr ⟨_, hbase⟩]
    have hbelow := filesBelow_eq_ok_iff.mpr ⟨_, hbase, rfl⟩
    refine run_bind_eq_iff.mpr ⟨_, t, congrArg (·, t) hbelow, ?_⟩
    rw [← ht.mergeSort_filter hbase hbelow]
    rfl

theorem run_expand_of_missing (h : t.kind source = none) :
    (expand extensions source : StateM FileTree _).run t = (.error (.missing source), t) := by
  refine run_bind_eq_iff.mpr ⟨_, t, run_kind t source, ?_⟩
  rw [h]
  rfl

/-- The first source that does not exist. -/
def FirstMissing (t : FileTree) (sources : List String) (source : String) : Prop :=
  ∃ before after, sources = before ++ source :: after ∧ (∀ other ∈ before, t.kind other ≠ none) ∧
    t.kind source = none

theorem all_exist_or (t : FileTree) (sources : List String) :
    (∀ source ∈ sources, t.kind source ≠ none) ∨ ∃ source, FirstMissing t sources source := by
  obtain hall | ⟨before, source, after, hsplit, hbefore, hnot⟩ := forall_or_first (t.kind · ≠ none) sources
  · exact .inl hall
  · exact .inr ⟨source, before, after, hsplit, hbefore, not_not.mp hnot⟩

theorem exists_all_offers (extensions : List String) (h : ∀ source ∈ sources, t.kind source ≠ none) :
    ∃ offered, List.Forall₂ (Offers t extensions) sources offered := by
  induction sources with
  | nil => exact ⟨[], .nil⟩
  | cons source sources ih =>
    obtain ⟨hsource, hrest⟩ := List.forall_mem_cons.mp h
    obtain ⟨files, hfiles⟩ := exists_offers extensions hsource
    obtain ⟨offered, hoffered⟩ := ih hrest
    exact ⟨files :: offered, .cons hfiles hoffered⟩

/-- What the sources before the others offer is put in front. -/
theorem run_expandAll_append (ht : t.WellFormed) {before rest : List String}
    {r : Except SourceError (List String)} (hbefore : List.Forall₂ (Offers t extensions) before offered)
    (hrest : (expandAll extensions rest : StateM FileTree _).run t = (r, t)) :
    (expandAll extensions (before ++ rest) : StateM FileTree _).run t =
      (r.map (offered.flatten ++ ·), t) := by
  induction hbefore with
  | nil =>
    rw [List.nil_append, hrest]
    cases r <;> rfl
  | cons hfiles _ ih =>
    rw [List.cons_append, expandAll]
    refine run_bind_eq_iff.mpr ⟨_, t, run_expand_of_offers ht hfiles, ?_⟩
    refine run_bind_eq_iff.mpr ⟨_, t, ih, ?_⟩
    cases r with
    | error e => rfl
    | ok files =>
      simp only [Except.map, List.flatten_cons, List.append_assoc]
      rfl

theorem run_expandAll_of_firstMissing (ht : t.WellFormed) (h : FirstMissing t sources source) :
    (expandAll extensions sources : StateM FileTree _).run t = (.error (.missing source), t) := by
  obtain ⟨before, after, rfl, hbefore, hmissing⟩ := h
  obtain ⟨offered, hoffered⟩ := exists_all_offers extensions hbefore
  refine run_expandAll_append ht hoffered (r := .error (.missing source)) ?_
  rw [expandAll]
  exact run_bind_eq_iff.mpr ⟨_, t, run_expand_of_missing hmissing, rfl⟩

theorem run_expandAll_of_offers (ht : t.WellFormed) (h : List.Forall₂ (Offers t extensions) sources offered) :
    (expandAll extensions sources : StateM FileTree _).run t = (.ok offered.flatten, t) := by
  have hnil : (expandAll extensions [] : StateM FileTree _).run t = (.ok [], t) := by
    rw [expandAll]
    rfl
  have hrun := run_expandAll_append ht h hnil
  rwa [List.append_nil, Except.map, List.append_nil] at hrun

/-- The first of several equal paths. -/
def firsts (paths : List String) : List String :=
  paths.eraseDupsBy fun a b => Path.parts a = Path.parts b

theorem distinct_eq (seen : List Path.Parts) (paths : List String) :
    distinct seen paths = firsts (paths.filter (Path.parts · ∉ seen)) := by
  induction paths generalizing seen with
  | nil => rfl
  | cons path paths ih =>
    rw [distinct]
    by_cases hseen : Path.parts path ∈ seen
    · rw [if_pos hseen, List.filter_cons_of_neg (by simpa using hseen), ih]
    · have hfilter : paths.filter (Path.parts · ∉ Path.parts path :: seen) =
          (paths.filter (Path.parts · ∉ seen)).filter fun b =>
            decide (Path.parts b = Path.parts path) = false := by
        rw [List.filter_filter]
        exact List.filter_congr fun b _ => by simp
      rw [if_neg hseen, List.filter_cons_of_pos (by simpa using hseen), ih, hfilter, firsts, firsts,
        List.eraseDupsBy_cons]

theorem distinct_nil_eq (paths : List String) : distinct [] paths = firsts paths := by
  rw [distinct_eq, List.filter_eq_self.mpr (by simp)]

theorem distinct_sublist (seen : List Path.Parts) (paths : List String) :
    (distinct seen paths).Sublist paths := by
  induction paths generalizing seen with
  | nil => exact .slnil
  | cons path paths ih =>
    rw [distinct]
    split
    · exact (ih seen).cons path
    · exact (ih _).cons_cons path

theorem exists_distinct_append (seen : List Path.Parts) (paths added : List String) :
    ∃ more, distinct seen (paths ++ added) = distinct seen paths ++ more ∧ more.Sublist added := by
  induction paths generalizing seen with
  | nil => exact ⟨distinct seen added, rfl, distinct_sublist seen added⟩
  | cons path paths ih =>
    rw [List.cons_append, distinct, distinct]
    split
    · exact ih seen
    · obtain ⟨more, hmore, hsub⟩ := ih (Path.parts path :: seen)
      exact ⟨more, by rw [hmore, List.cons_append], hsub⟩

theorem distinct_parts (seen : List Path.Parts) (paths : List String) :
    ((distinct seen paths).map Path.parts).Nodup ∧ ∀ path ∈ distinct seen paths, Path.parts path ∉ seen := by
  induction paths generalizing seen with
  | nil => exact ⟨.nil, nofun⟩
  | cons path paths ih =>
    rw [distinct]
    split
    · exact ih seen
    · rename_i hseen
      obtain ⟨hnodup, hnew⟩ := ih (Path.parts path :: seen)
      refine ⟨List.nodup_cons.mpr ⟨fun hmem => ?_, hnodup⟩,
        List.forall_mem_cons.mpr ⟨hseen, fun other hother hold => ?_⟩⟩
      · obtain ⟨other, hother, hsame⟩ := List.mem_map.mp hmem
        exact hnew other hother (hsame ▸ List.mem_cons_self)
      · exact hnew other hother (List.mem_cons_of_mem _ hold)

theorem exists_mem_distinct (seen : List Path.Parts) {paths : List String} {path : String}
    (h : path ∈ paths) (hnew : Path.parts path ∉ seen) :
    ∃ other ∈ distinct seen paths, Path.parts other = Path.parts path := by
  induction paths generalizing seen with
  | nil => cases h
  | cons first paths ih =>
    rw [distinct]
    rcases List.mem_cons.mp h with rfl | h
    · rw [if_neg hnew]
      exact ⟨path, List.mem_cons_self, rfl⟩
    · split
      · exact ih seen h hnew
      · by_cases hsame : Path.parts first = Path.parts path
        · exact ⟨first, List.mem_cons_self, hsame⟩
        · obtain ⟨other, hother, he⟩ := ih (Path.parts first :: seen) h (by
            simpa [hnew] using Ne.symm hsame)
          exact ⟨other, List.mem_cons_of_mem _ hother, he⟩

/-- What is collected. -/
structure Collected (t : FileTree) (extensions sources files : List String) : Prop where
  /-- The offers of the sources one after the other, the first of equal paths only. -/
  listed : ∃ offered, List.Forall₂ (Offers t extensions) sources offered ∧ files = firsts offered.flatten
  distinct : (files.map Path.parts).Nodup
  complete : ∀ source ∈ sources, ∀ path, StandsFor t extensions source path →
    ∃ file ∈ files, Path.parts file = Path.parts path
  sound : ∀ file ∈ files, ∃ source ∈ sources, StandsFor t extensions source file

theorem collected_of_offers (ht : t.WellFormed) (h : List.Forall₂ (Offers t extensions) sources offered) :
    Collected t extensions sources (firsts offered.flatten) := by
  refine ⟨⟨offered, h, rfl⟩, ?_, fun source hsource path hpath => ?_, fun file hfile => ?_⟩
  · rw [← distinct_nil_eq]
    exact (distinct_parts [] _).1
  · obtain ⟨files, hfiles, hoffers⟩ := exists_related h hsource
    rw [← distinct_nil_eq]
    exact exists_mem_distinct [] (List.mem_flatten.mpr ⟨files, hfiles, (hoffers.mem_iff ht).mpr hpath⟩)
      List.not_mem_nil
  · rw [← distinct_nil_eq] at hfile
    obtain ⟨files, hfiles, hmem⟩ := List.mem_flatten.mp ((distinct_sublist [] _).subset hfile)
    obtain ⟨source, hsource, hoffers⟩ := exists_related h.flip hfiles
    exact ⟨source, hsource, (hoffers.mem_iff ht).mp hmem⟩

theorem run_collect_of_offers (ht : t.WellFormed) (h : List.Forall₂ (Offers t extensions) sources offered) :
    (collect extensions sources : StateM FileTree _).run t = (.ok (firsts offered.flatten), t) := by
  rw [← distinct_nil_eq]
  exact run_bind_eq_iff.mpr ⟨_, t, run_expandAll_of_offers ht h, rfl⟩

theorem run_collect_of_firstMissing (ht : t.WellFormed) (h : FirstMissing t sources source) :
    (collect extensions sources : StateM FileTree _).run t = (.error (.missing source), t) :=
  run_bind_eq_iff.mpr ⟨_, t, run_expandAll_of_firstMissing ht h, rfl⟩

theorem Offers.relisted (ho : Offers t extensions source files) (h : Relisted t u) (ht : t.WellFormed) :
    Offers u extensions source files := by
  cases ho with
  | file hfile => exact .file ((h.kind_eq ht source).trans hfile)
  | directory hbase =>
    rw [← h.preorder_eq ht]
    exact .directory ((h.locate_iff ht).mpr hbase)

theorem FirstMissing.relisted (hm : FirstMissing t sources source) (h : Relisted t u) (ht : t.WellFormed) :
    FirstMissing u sources source := by
  obtain ⟨before, after, rfl, hbefore, hmissing⟩ := hm
  refine ⟨before, after, rfl, fun other hother => ?_, (h.kind_eq ht source).trans hmissing⟩
  rw [h.kind_eq ht]
  exact hbefore other hother

/-- When every source exists, the files are collected as they are offered; otherwise the first one that does
not is reported. How directories are listed makes no difference to either. -/
theorem collect_exact (ht : t.WellFormed) (extensions sources : List String) :
    ((∀ source ∈ sources, t.kind source ≠ none) → ∃ files,
      (collect extensions sources : StateM FileTree _).run t = (.ok files, t) ∧
        Collected t extensions sources files) ∧
    ((∃ source ∈ sources, t.kind source = none) → ∃ source, FirstMissing t sources source ∧
      (collect extensions sources : StateM FileTree _).run t = (.error (.missing source), t)) ∧
    ∀ u r, Relisted t u → (collect extensions sources : StateM FileTree _).run t = (r, t) →
      (collect extensions sources : StateM FileTree _).run u = (r, u) := by
  refine ⟨fun hall => ?_, fun ⟨source, hsource, hnone⟩ => ?_, fun u r h hrun => ?_⟩
  · obtain ⟨offered, hoffered⟩ := exists_all_offers extensions hall
    exact ⟨_, run_collect_of_offers ht hoffered, collected_of_offers ht hoffered⟩
  · obtain hall | ⟨missing, hmissing⟩ := all_exist_or t sources
    · exact absurd hnone (hall source hsource)
    · exact ⟨missing, hmissing, run_collect_of_firstMissing ht hmissing⟩
  · have hu := h.wellFormed ht
    obtain hall | ⟨missing, hmissing⟩ := all_exist_or t sources
    · obtain ⟨offered, hoffered⟩ := exists_all_offers extensions hall
      cases hrun.symm.trans (run_collect_of_offers ht hoffered)
      exact run_collect_of_offers hu (hoffered.imp fun _ _ ho => ho.relisted h ht)
    · cases hrun.symm.trans (run_collect_of_firstMissing ht hmissing)
      exact run_collect_of_firstMissing hu (hmissing.relisted h ht)

def nestedTree : FileTree where
  entries := [(["s"], .directory), (["s", "a.cpp"], .file []), (["s", "a"], .directory),
    (["s", "a", "b.txt"], .file []), (["s", "a", "b.cpp"], .file []), (["s", "l.cpp"], .link "a.cpp")]

def relistedTree : FileTree := { nestedTree with entries := nestedTree.entries.reverse }

theorem collect_exact_nested :
    nestedTree.WellFormed ∧ Relisted nestedTree relistedTree ∧
    Collected nestedTree ["cpp"] ["s/./a.cpp", "s", "s/a"] ["s/./a.cpp", "s/a/b.cpp"] ∧
    (collect ["cpp"] ["s/./a.cpp", "s", "s/a"] : StateM FileTree _).run relistedTree =
      (.ok ["s/./a.cpp", "s/a/b.cpp"], relistedTree) ∧
    (collect ["cpp"] ["s", "q"] : StateM FileTree _).run nestedTree = (.error (.missing "q"), nestedTree) := by
  have ht : nestedTree.WellFormed := ⟨by decide, by decide, by decide, by decide⟩
  have hrelisted : Relisted nestedTree relistedTree := ⟨rfl, List.reverse_perm _⟩
  have hkind : nestedTree.kind "s" = some .directory := by cbv
  have hmissing : nestedTree.kind "q" = none := by cbv
  have hexist : ∀ source ∈ ["s/./a.cpp", "s", "s/a"], nestedTree.kind source ≠ none :=
    List.forall_mem_cons.mpr ⟨by cbv; decide, List.forall_mem_cons.mpr ⟨by rw [hkind]; decide,
      List.forall_mem_singleton.mpr (by cbv; decide)⟩⟩
  have hrun : (collect ["cpp"] ["s/./a.cpp", "s", "s/a"] : StateM FileTree _).run nestedTree =
      (.ok ["s/./a.cpp", "s/a/b.cpp"], nestedTree) := by
    cbv
  have hexact := collect_exact ht ["cpp"] ["s/./a.cpp", "s", "s/a"]
  obtain ⟨files, hfiles, hcollected⟩ := hexact.1 hexist
  cases hrun.symm.trans hfiles
  obtain ⟨source, ⟨before, after, hsplit, -, hnone⟩, herror⟩ :=
    (collect_exact ht ["cpp"] ["s", "q"]).2.1 ⟨"q", by decide, hmissing⟩
  have hsource : source = "q" := by
    have hmem : source ∈ ["s", "q"] := hsplit ▸ List.mem_append_right _ List.mem_cons_self
    rcases List.mem_pair.mp hmem with rfl | rfl
    · cases hkind.symm.trans hnone
    · rfl
  rw [hsource] at herror
  exact ⟨ht, hrelisted, hcollected, hexact.2.2 _ _ hrelisted hrun, herror⟩

end RestRoutes.Source
