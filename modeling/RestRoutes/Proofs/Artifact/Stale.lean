import Mathlib
import RestRoutes.Artifact
import RestRoutes.Proofs.Files.Run
import RestRoutes.Proofs.Files.Walk
import RestRoutes.Proofs.Text.Utf8

namespace RestRoutes.Artifact

open FileTree

variable {t u : FileTree} {as : List Artifact} {a : Artifact} {path : String} {e : FileError}

/-- Some text has these bytes. -/
def IsText (bytes : List UInt8) : Prop := ∃ s, Text.Utf8.encode s = bytes

/-- A destination that is not there, or whose bytes are not those of the artifact. -/
def drifted (t : FileTree) (a : Artifact) : Bool :=
  match t.read a.path with
  | .ok bytes => bytes ≠ a.bytes
  | .error e => e = .notFound

/-- A path that can be compared with a text: nothing is there, or a text. -/
def Comparable (t : FileTree) (path : String) : Prop :=
  t.read path = .error .notFound ∨ ∃ bytes, t.read path = .ok bytes ∧ IsText bytes

/-- Why a path cannot be compared. -/
def Incomparable (t : FileTree) (path : String) (e : FileError) : Prop :=
  t.read path = .error e ∧ e ≠ .notFound ∨
    e = .notText ∧ ∃ bytes, t.read path = .ok bytes ∧ ¬ IsText bytes

/-- The first artifact that cannot be compared, and why. -/
def FirstIncomparable (t : FileTree) (as : List Artifact) (e : FileError) : Prop :=
  ∃ before a after, as = before ++ a :: after ∧ (∀ b ∈ before, Comparable t b.path) ∧
    Incomparable t a.path e

theorem comparable_or (t : FileTree) (path : String) : Comparable t path ∨ ∃ e, Incomparable t path e := by
  cases hread : t.read path with
  | error e =>
    by_cases he : e = .notFound
    · exact .inl (.inl (he ▸ hread))
    · exact .inr ⟨e, .inl ⟨hread, he⟩⟩
  | ok bytes =>
    by_cases htext : IsText bytes
    · exact .inl (.inr ⟨bytes, hread, htext⟩)
    · exact .inr ⟨.notText, .inr ⟨rfl, bytes, hread, htext⟩⟩

theorem all_comparable_or (t : FileTree) (as : List Artifact) :
    (∀ a ∈ as, Comparable t a.path) ∨ ∃ e, FirstIncomparable t as e := by
  obtain hall | ⟨before, a, after, has, hbefore, hnot⟩ := forall_or_first (Comparable t ·.path) as
  · exact .inl hall
  · obtain ⟨e, he⟩ := (comparable_or t a.path).resolve_left hnot
    exact .inr ⟨e, before, a, after, has, hbefore, he⟩

theorem run_readText_eq_ok {s : List Char} (h : t.read path = .ok (Text.Utf8.encode s)) :
    (FileSystem.readText path : StateM FileTree _).run t = (.ok (String.ofList s), t) := by
  refine run_readText_eq_ok_iff.mpr ⟨rfl, _, h, ?_⟩
  rw [Text.Utf8.decode?_encode, String.toList_ofList]

theorem run_readText_eq_notText {bytes : List UInt8} (h : t.read path = .ok bytes) (htext : ¬ IsText bytes) :
    (FileSystem.readText path : StateM FileTree _).run t = (.error .notText, t) := by
  have hdecode : Text.Utf8.decode? bytes = none :=
    Option.eq_none_iff_forall_ne_some.mpr fun s hs => htext ⟨s, (Text.Utf8.decode?_eq_some_iff.mp hs).symm⟩
  refine run_bind_eq_iff.mpr ⟨_, t, run_read t path, ?_⟩
  simp only [h, hdecode]
  rfl

theorem run_stale_cons_same (h : t.read a.path = .ok a.bytes) :
    (stale (a :: as) : StateM FileTree _).run t = (stale as : StateM FileTree _).run t := by
  rw [stale]
  refine run_bind_eq_iff.mpr ⟨_, t, run_readText_eq_ok h, ?_⟩
  simp only [String.ofList_toList, if_true]
  rfl

theorem run_stale_cons_drifted {r : Except FileError (List String)} (ha : Comparable t a.path)
    (hd : drifted t a = true) (h : (stale as : StateM FileTree _).run t = (r, t)) :
    (stale (a :: as) : StateM FileTree _).run t = (r.map (a.path :: ·), t) := by
  have hmore : (stale.more a.path as : StateM FileTree _).run t = (r.map (a.path :: ·), t) := by
    rw [stale.more]
    refine run_bind_eq_iff.mpr ⟨r, t, h, ?_⟩
    cases r <;> rfl
  rw [stale]
  rcases ha with hread | ⟨bytes, hread, s, rfl⟩
  · exact run_bind_eq_iff.mpr ⟨_, t, run_readText_eq_error hread, hmore⟩
  · have hne : String.ofList s ≠ a.contents := by
      intro hs
      rw [drifted, hread, Artifact.bytes, ← hs, String.toList_ofList] at hd
      simp at hd
    refine run_bind_eq_iff.mpr ⟨_, t, run_readText_eq_ok hread, ?_⟩
    simpa only [hne, if_false] using hmore

theorem run_stale_cons_incomparable (h : Incomparable t a.path e) :
    (stale (a :: as) : StateM FileTree _).run t = (.error e, t) := by
  rw [stale]
  rcases h with ⟨hread, he⟩ | ⟨rfl, bytes, hread, htext⟩
  · refine run_bind_eq_iff.mpr ⟨_, t, run_readText_eq_error hread, ?_⟩
    cases e with
    | notFound => exact absurd rfl he
    | _ => rfl
  · exact run_bind_eq_iff.mpr ⟨_, t, run_readText_eq_notText hread htext, rfl⟩

/-- What is there and has not drifted is the same. -/
theorem read_eq_ok_bytes_iff : t.read a.path = .ok a.bytes ↔ Comparable t a.path ∧ drifted t a = false := by
  constructor
  · intro hread
    exact ⟨.inr ⟨_, hread, a.contents.toList, rfl⟩, by simp [drifted, hread]⟩
  · rintro ⟨hread | ⟨bytes, hread, -⟩, hd⟩
    · simp [drifted, hread] at hd
    · rw [drifted, hread] at hd
      rw [hread, not_not.mp (of_decide_eq_false hd)]

theorem drifted_of_readText {s : String}
    (h : (FileSystem.readText a.path : StateM FileTree _).run t = (.ok s, u)) :
    Comparable t a.path ∧ (drifted t a = true ↔ s ≠ a.contents) := by
  obtain ⟨-, bytes, hread, hdecode⟩ := run_readText_eq_ok_iff.mp h
  obtain rfl := Text.Utf8.decode?_eq_some_iff.mp hdecode
  have hsame : Text.Utf8.encode s.toList = a.bytes ↔ s = a.contents := by
    rw [Artifact.bytes, ← Text.Utf8.decode?_eq_some_iff, Text.Utf8.decode?_encode, Option.some.injEq,
      String.toList_inj]
  refine ⟨.inr ⟨_, hread, s.toList, rfl⟩, ?_⟩
  rw [drifted, hread, decide_eq_true_eq, Ne, Ne, hsame]

/-- What comes before the rest of a list puts its own in front. -/
theorem run_stale_append {before : List Artifact} {r : Except FileError (List String)}
    (hbefore : ∀ a ∈ before, Comparable t a.path) (h : (stale as : StateM FileTree _).run t = (r, t)) :
    (stale (before ++ as) : StateM FileTree _).run t =
      (r.map (((before.filter (drifted t)).map (·.path)) ++ ·), t) := by
  induction before with
  | nil =>
    rw [List.nil_append, h]
    cases r <;> rfl
  | cons a before ih =>
    obtain ⟨ha, hbefore⟩ := List.forall_mem_cons.mp hbefore
    rw [List.cons_append]
    cases hd : drifted t a with
    | true =>
      rw [run_stale_cons_drifted ha hd (ih hbefore), List.filter_cons_of_pos hd]
      cases r <;> rfl
    | false =>
      rw [run_stale_cons_same (read_eq_ok_bytes_iff.mpr ⟨ha, hd⟩), ih hbefore,
        List.filter_cons_of_neg (by rw [hd]; decide)]

theorem run_stale_of_comparable (h : ∀ a ∈ as, Comparable t a.path) :
    (stale as : StateM FileTree _).run t = (.ok ((as.filter (drifted t)).map (·.path)), t) := by
  have hnil : (stale [] : StateM FileTree _).run t = (.ok [], t) := by
    rw [stale]
    rfl
  have hrun := run_stale_append h hnil
  rwa [List.append_nil, Except.map, List.append_nil] at hrun

theorem run_stale_of_firstIncomparable (h : FirstIncomparable t as e) :
    (stale as : StateM FileTree _).run t = (.error e, t) := by
  obtain ⟨before, a, after, rfl, hbefore, ha⟩ := h
  exact run_stale_append hbefore (run_stale_cons_incomparable ha)

theorem run_stale_eq_ok_iff {paths : List String} : (stale as : StateM FileTree _).run t = (.ok paths, u) ↔
    u = t ∧ (∀ a ∈ as, Comparable t a.path) ∧ paths = (as.filter (drifted t)).map (·.path) := by
  constructor
  · intro h
    rcases all_comparable_or t as with hall | ⟨e, he⟩
    · rw [run_stale_of_comparable hall] at h
      cases h
      exact ⟨rfl, hall, rfl⟩
    · rw [run_stale_of_firstIncomparable he] at h
      cases h
  · rintro ⟨rfl, hall, rfl⟩
    exact run_stale_of_comparable hall

/-- Nothing is out of date when every destination holds the bytes of its artifact. -/
theorem run_stale_eq_nil_iff : (stale as : StateM FileTree _).run t = (.ok [], u) ↔
    u = t ∧ ∀ a ∈ as, t.read a.path = .ok a.bytes := by
  have hnil : [] = (as.filter (drifted t)).map (·.path) ↔ ∀ a ∈ as, drifted t a = false := by
    rw [eq_comm, List.map_eq_nil_iff, List.filter_eq_nil_iff]
    simp only [Bool.not_eq_true]
  rw [run_stale_eq_ok_iff, hnil, ← forall₂_and]
  simp only [read_eq_ok_bytes_iff]

/-- A destination is a regular file, of any bytes, or does not exist. -/
def FileOrAbsent (t : FileTree) (path : String) : Prop :=
  t.kind path = some .file ∨ t.read path = .error .notFound

theorem FileOrAbsent.comparable_iff (h : FileOrAbsent t path) :
    Comparable t path ↔ ∀ bytes, t.read path = .ok bytes → IsText bytes := by
  constructor
  · rintro (hread | ⟨bytes, hread, htext⟩) bytes' hread'
    · cases hread.symm.trans hread'
    · cases hread.symm.trans hread'
      exact htext
  · intro htext
    rcases h with hfile | hread
    · obtain ⟨l, bytes, hlocate⟩ := kind_eq_file.mp hfile
      have hread := read_eq_ok_iff.mpr ⟨l, hlocate⟩
      exact .inr ⟨bytes, hread, htext bytes hread⟩
    · exact .inl hread

theorem FileOrAbsent.eq_notText (h : FileOrAbsent t path) (he : Incomparable t path e) : e = .notText := by
  rcases he with ⟨hread, he⟩ | ⟨rfl, -⟩
  · rcases h with hfile | hread'
    · obtain ⟨l, bytes, hlocate⟩ := kind_eq_file.mp hfile
      cases hread.symm.trans (read_eq_ok_iff.mpr ⟨l, hlocate⟩)
    · cases hread.symm.trans hread'
      exact absurd rfl he
  · rfl

/-- Where each destination is a file or is not there, the check names exactly those that have drifted, in
their order, as long as every file holds a text. One file that holds none, wherever it stands in the list and
whatever else has drifted, and there is no list. -/
theorem stale_names_drifted_iff (h : ∀ a ∈ as, FileOrAbsent t a.path) :
    ((stale as : StateM FileTree _).run t = (.ok ((as.filter (drifted t)).map (·.path)), t) ↔
      ∀ a ∈ as, ∀ bytes, t.read a.path = .ok bytes → IsText bytes) ∧
    ((∃ a ∈ as, ∃ bytes, t.read a.path = .ok bytes ∧ ¬ IsText bytes) →
      (stale as : StateM FileTree _).run t = (.error .notText, t)) := by
  have hcomparable : (∀ a ∈ as, Comparable t a.path) ↔
      ∀ a ∈ as, ∀ bytes, t.read a.path = .ok bytes → IsText bytes :=
    forall₂_congr fun a ha => (h a ha).comparable_iff
  constructor
  · rw [run_stale_eq_ok_iff, ← hcomparable]
    exact ⟨fun hrun => hrun.2.1, fun hall => ⟨rfl, hall, rfl⟩⟩
  · rintro ⟨a, ha, bytes, hread, htext⟩
    obtain hall | ⟨e, he⟩ := all_comparable_or t as
    · exact absurd (hcomparable.mp hall a ha bytes hread) htext
    · rw [run_stale_of_firstIncomparable he]
      obtain ⟨before, b, after, rfl, -, hb⟩ := he
      rw [(h b (by simp)).eq_notText hb]

def shelfOfTwo : FileTree := ⟨[(["same"], .file [97]), (["changed"], .file [98])], []⟩

def threeArtifacts : List Artifact := [⟨"same", "a"⟩, ⟨"changed", "c"⟩, ⟨"missing", "d"⟩]

theorem stale_names_drifted_three : (∀ a ∈ threeArtifacts, FileOrAbsent shelfOfTwo a.path) ∧
    (stale threeArtifacts : StateM FileTree _).run shelfOfTwo = (.ok ["changed", "missing"], shelfOfTwo) := by
  have hsame : shelfOfTwo.read "same" = .ok [97] := by cbv
  have hchanged : shelfOfTwo.read "changed" = .ok [98] := by cbv
  have hmissing : shelfOfTwo.read "missing" = .error .notFound := by cbv
  have hdestinations : ∀ a ∈ threeArtifacts, FileOrAbsent shelfOfTwo a.path :=
    List.forall_mem_cons.mpr ⟨.inl (by cbv), List.forall_mem_cons.mpr ⟨.inl (by cbv),
      List.forall_mem_singleton.mpr (.inr hmissing)⟩⟩
  have hdrifted : (threeArtifacts.filter (drifted shelfOfTwo)).map (·.path) = ["changed", "missing"] := by cbv
  refine ⟨hdestinations, hdrifted ▸ (stale_names_drifted_iff hdestinations).1.mpr ?_⟩
  refine List.forall_mem_cons.mpr ⟨?_, List.forall_mem_cons.mpr ⟨?_, List.forall_mem_singleton.mpr ?_⟩⟩
  · rw [hsame]
    rintro bytes ⟨⟩
    exact ⟨['a'], rfl⟩
  · rw [hchanged]
    rintro bytes ⟨⟩
    exact ⟨['b'], rfl⟩
  · rw [hmissing]
    rintro bytes ⟨⟩

def binaryFile : FileTree := ⟨[(["x"], .file [0xff])], []⟩

def twoArtifacts : List Artifact := [⟨"x", "a"⟩, ⟨"y", "b"⟩]

theorem not_isText_ff : ¬ IsText [0xff] := by
  rintro ⟨s, hs⟩
  have hdecode : Text.Utf8.decode? [0xff] = none := by decide
  cases hdecode.symm.trans (Text.Utf8.decode?_eq_some_iff.mpr hs.symm)

/-- Both files have drifted, one by its bytes and one because it is missing, and neither is named. -/
theorem stale_refuses_binary_file : ¬ ∀ (t : FileTree) (as : List Artifact),
    (∀ a ∈ as, FileOrAbsent t a.path) →
    (stale as : StateM FileTree _).run t = (.ok ((as.filter (drifted t)).map (·.path)), t) := by
  intro h
  have hread : binaryFile.read "x" = .ok [0xff] := by cbv
  have hrun := h binaryFile twoArtifacts
    (List.forall_mem_cons.mpr ⟨.inl (by cbv), List.forall_mem_singleton.mpr (.inr (by cbv))⟩)
  have herror : (stale twoArtifacts : StateM FileTree _).run binaryFile = (.error .notText, binaryFile) :=
    run_stale_cons_incomparable (.inr ⟨rfl, [0xff], hread, not_isText_ff⟩)
  cases hrun.symm.trans herror

end RestRoutes.Artifact
