import HiddenEquation.Screen.Pane

/-!
# The cells of a pane

What stands in a line and a column of a pane, through all the ways of putting panes together: rows
that are cut or filled, rows in the middle, panes beside and above each other, panes in a border.

* `Row.getElem?_fit`, `Row.getElem?_center`, `getElem?_meter` : the cells of a row.
* `Pane.cell?_ofRows` : the cells of a pane of rows.
* `Pane.cell?_beside_left`, `Pane.cell?_above_top`, `Pane.cell?_framed` : the cells of a part.
-/

namespace HiddenEquation.Screen

/-! ## Texts -/

/-- The cell of a character that takes one column. -/
def Cell.narrow (background : Option Color) (c : Char) : Cell := ⟨some c, background⟩

/-- A text without wide characters has a cell to each character. -/
theorem cellsOn_eq_map (b : Option Color) {s : List Char} (h : ∀ c ∈ s, isWide c = false) :
    cellsOn b s = s.map (Cell.narrow b) := by
  induction s with
  | nil => rfl
  | cons c s ih =>
    rw [List.forall_mem_cons] at h
    rw [cellsOn, List.flatMap_cons, ← cellsOn, ih h.2, cellsOfChar, h.1, List.map_cons]
    rfl

theorem getD_map_narrow (s : List Char) (i : Nat) :
    (s.map (Cell.narrow none)).getD i .blank = Cell.narrow none (s.getD i ' ') := by
  rw [List.getD_eq_getElem?_getD, List.getD_eq_getElem?_getD, List.getElem?_map]
  cases s[i]? <;> rfl

/-- Below the pictographs one character is wide. -/
theorem isWide_eq_false {c : Char} (hlt : c.toNat < 0x1F000) (hne : c ≠ '✨') :
    isWide c = false := by
  have hrange : ¬(0x1F000 ≤ c.toNat ∧ c.toNat < 0x20000) := by omega
  rw [isWide, beq_eq_false_iff_ne.2 hne, decide_eq_false hrange, Bool.or_false]

/-! ## Rows -/

section

variable {w column : Nat}

theorem Row.getElem?_fit (hcolumn : column < w) (cs : List Cell) :
    (Row.fit w cs)[column]? = some (cs.getD column .blank) := by
  rw [Vector.getElem?_eq_getElem hcolumn, Row.fit, Vector.getElem_ofFn]

/-- What stands in the middle has half of what is free in front of it. -/
theorem Row.getElem?_center (hcolumn : column < w) (cs : List Cell) :
    (Row.center w cs)[column]? =
      some (if column < w / 2 - min w cs.length / 2 then .blank
        else cs.getD (column - (w / 2 - min w cs.length / 2)) .blank) := by
  unfold Row.center
  dsimp only
  rw [Row.getElem?_fit hcolumn, List.length_take, List.getD_eq_getElem?_getD]
  generalize hmargin : w / 2 - min w cs.length / 2 = margin
  congr 1
  split
  · rename_i hblank
    rw [List.getElem?_append_left (by rwa [List.length_replicate]),
      List.getElem?_replicate_of_lt hblank]
    rfl
  · rename_i hshown
    -- a row that has to be cut begins at the edge
    have htake : (cs.take w)[column - margin]? = cs[column - margin]? :=
      List.getElem?_take_of_lt (by omega)
    rw [List.getElem?_append_right (by rw [List.length_replicate]; omega), List.length_replicate,
      htake, List.getD_eq_getElem?_getD]

/-- The cell of a meter: its label in the middle with a free column after it, and around it the
columns that are filled from the left. -/
def meterCell (w : Nat) (label : String) (filled column : Nat) : Cell :=
  let start := (w - label.length) / 2
  if start ≤ column ∧ column ≤ start + label.length then
    .narrow none (label.toList.getD (column - start) ' ')
  else if column < filled then .narrow none '█'
  else .blank

theorem getElem?_meter (hcolumn : column < w) {percent : Nat} (hpercent : percent ≤ 100)
    {label : String} (hlabel : ∀ c ∈ label.toList, isWide c = false) :
    (meter w percent hpercent label)[column]? =
      some (meterCell w label (meterFilled w percent) column) := by
  have hshown : cells label = label.toList.map (Cell.narrow none) := cellsOn_eq_map none hlabel
  rw [Vector.getElem?_eq_getElem hcolumn, meter, Vector.getElem_ofFn, hshown, List.length_map,
    String.length_toList, getD_map_narrow]
  congr 1
  unfold meterCell
  dsimp only
  generalize (w - label.length) / 2 = start
  by_cases hlabelled : start ≤ column ∧ column ≤ start + label.length
  · rw [if_neg (Nat.not_lt.2 hlabelled.1), if_pos hlabelled.2, if_pos hlabelled]
  · rw [if_neg hlabelled]
    by_cases hbefore : column < start
    · exact if_pos hbefore
    · have hafter : ¬column ≤ start + label.length := by omega
      exact (if_neg hbefore).trans (if_neg hafter)

end

/-! ## Panes -/

namespace Pane

variable {w w₁ w₂ h h₁ h₂ line column : Nat}

/-- The cell in a line and a column, both counted from zero. -/
def cell? (p : Pane w h) (line column : Nat) : Option Cell :=
  p.rows[line]?.bind fun row => row[column]?

theorem cell?_ofRows (hline : line < h) (rows : List (Row w)) (column : Nat) :
    (ofRows h rows).cell? line column = (rows.getD line (.fit w []))[column]? := by
  rw [cell?, Vector.getElem?_eq_getElem hline, Option.bind_some, ofRows, Vector.getElem_ofFn]

theorem cell?_above_top (hline : line < h₁) (a : Pane w h₁) (b : Pane w h₂) (column : Nat) :
    (a.above b).cell? line column = a.cell? line column := by
  rw [cell?, above, Vector.getElem?_append, if_pos hline, cell?]

theorem cell?_above_bottom (a : Pane w h₁) (b : Pane w h₂) (line column : Nat) :
    (a.above b).cell? (h₁ + line) column = b.cell? line column := by
  rw [cell?, above, Vector.getElem?_append, if_neg (by omega), Nat.add_sub_cancel_left, cell?]

theorem cell?_beside (a : Pane w₁ h) (b : Pane w₂ h) (line column : Nat) :
    (a.beside b).cell? line column =
      if column < w₁ then a.cell? line column else b.cell? line (column - w₁) := by
  by_cases hline : line < h
  · simp only [cell?, beside, Vector.getElem?_eq_getElem hline, Option.bind_some,
      Vector.getElem_zipWith, Vector.getElem?_append]
  · have hnone {w' : Nat} (p : Pane w' h) (column : Nat) : p.cell? line column = none := by
      rw [cell?, Vector.getElem?_eq_none (Nat.le_of_not_lt hline), Option.bind_none]
    rw [hnone, hnone, hnone, ite_self]

theorem cell?_beside_left (hcolumn : column < w₁) (a : Pane w₁ h) (b : Pane w₂ h) (line : Nat) :
    (a.beside b).cell? line column = a.cell? line column := by
  rw [cell?_beside, if_pos hcolumn]

theorem cell?_beside_right (a : Pane w₁ h) (b : Pane w₂ h) (line column : Nat) :
    (a.beside b).cell? line (w₁ + column) = b.cell? line column := by
  rw [cell?_beside, if_neg (by omega), Nat.add_sub_cancel_left]

/-- A border moves what it surrounds by one line and one column. -/
theorem cell?_framed (hline : line < h) (hcolumn : column < w) (p : Pane w h) (b : Border)
    (title : String) : (p.framed b title).cell? (1 + line) (1 + column) = p.cell? line column := by
  rw [framed, cell?_above_top (by omega), cell?_above_bottom, cell?_beside_left (by omega),
    cell?_beside_right]

end Pane

end HiddenEquation.Screen
