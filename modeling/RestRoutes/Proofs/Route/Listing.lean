import Mathlib.Algebra.GroupWithZero.Nat
import Mathlib.Data.List.Forall2
import Mathlib.Order.MinMax
import RestRoutes.Proofs.Text.Blank
import RestRoutes.Proofs.Text.Utf8
import RestRoutes.Route.Listing

namespace RestRoutes.Listing

variable {rows : List Row} {r : Row} {ws : List Nat} {w : Nat}

/-- As many bytes as the longest cell of a column has. -/
structure Widest (rows : List Row) (column w : Nat) : Prop where
  bound : ∀ r ∈ rows, ∀ cell ∈ r[column]?, Text.Utf8.size cell.toList ≤ w
  attained : ∃ r ∈ rows, ∃ cell ∈ r[column]?, Text.Utf8.size cell.toList = w

def WidestEach (rows : List Row) (ws : List Nat) : Prop := ∀ j, ∀ w ∈ ws[j]?, Widest rows j w

theorem Widest.concat {j : Nat} {cell : String} (h : Widest rows j w) (hcell : r[j]? = some cell) :
    Widest (rows ++ [r]) j (max w (Text.Utf8.size cell.toList)) := by
  constructor
  · intro other hother c hc
    rcases List.mem_append.mp hother with hrows | hlast
    · exact (h.bound other hrows c hc).trans (le_max_left _ _)
    · obtain rfl := List.mem_singleton.mp hlast
      cases hcell.symm.trans hc
      exact le_max_right _ _
  · rcases max_choice w (Text.Utf8.size cell.toList) with hmax | hmax
    · obtain ⟨other, hother, hattained⟩ := h.attained
      rw [hmax]
      exact ⟨other, List.mem_append_left _ hother, hattained⟩
    · exact ⟨r, List.mem_append_right _ List.mem_cons_self, cell, hcell, hmax.symm⟩

/-- One more row makes its columns as wide as its cells are. -/
theorem WidestEach.concat (h : WidestEach rows ws) :
    WidestEach (rows ++ [r]) (ws.zipWith (fun w cell => max w (Text.Utf8.size cell.toList)) r) := by
  intro j w hw
  obtain ⟨w, cell, hold, hcell, rfl⟩ := List.getElem?_zipWith_eq_some.mp hw
  exact (h j w hold).concat hcell

/-- The columns are wide enough for the cells of a row. -/
def Fits (r : Row) (ws : List Nat) : Prop := List.Forall₂ (fun cell w => cell.toList.length ≤ w) r ws

/-- The cells of a row side by side, none of them trimmed. -/
def filled (ws : List Nat) (r : Row) : List Char :=
  [' ', ' '].intercalate (r.zipWith (fun cell w => pad w cell.toList) ws)

/-- The cells of a row, behind each but the last one the blanks up to the next column. -/
def aligned : List Nat → Row → List Char
  | w :: ws, cell :: next :: r => pad w cell.toList ++ [' ', ' '] ++ aligned ws (next :: r)
  | _, [cell] => cell.toList
  | _, _ => []

/-- The two end in the last cell, and nothing but the blanks behind it sets them apart. -/
theorem exists_last (hfits : Fits r ws) (hr : r ≠ []) :
    ∃ last ∈ r.getLast?, ∃ w ∈ ws.getLast?, (∃ before, aligned ws r = before ++ last.toList) ∧
      filled ws r = aligned ws r ++ List.replicate (w - last.length) ' ' := by
  induction hfits with
  | nil => exact absurd rfl hr
  | @cons cell w r ws hcell hrest ih =>
    cases hrest with
    | nil => exact ⟨cell, rfl, w, rfl, ⟨[], rfl⟩, by simp [filled, aligned, pad, String.length_toList]⟩
    | @cons next w' r ws hnext hrest =>
      obtain ⟨last, hlast, final, hfinal, ⟨before, hbefore⟩, hfilled⟩ := ih nofun
      refine ⟨last, by rwa [List.getLast?_cons_cons], final, by rwa [List.getLast?_cons_cons],
        ⟨pad w cell.toList ++ [' ', ' '] ++ before, by rw [aligned, hbefore]; simp only [List.append_assoc]⟩, ?_⟩
      rw [aligned, List.append_assoc, ← hfilled]
      simp [filled]

/-- Where a column begins: behind the ones before it and two blanks behind each of them. -/
def offset (ws : List Nat) (column : Nat) : Nat := ((ws.take column).map (· + 2)).sum

end RestRoutes.Listing
