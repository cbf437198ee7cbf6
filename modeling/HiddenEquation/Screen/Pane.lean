import HiddenEquation.Styled

/-!
# Panes of a screen

A pane is a rectangle of cells whose width and height are part of its type.  Lines of text
are fitted into a row of the width at hand, rows are stacked into a pane, panes are put
beside or above each other, and a border is drawn around a pane, so a layout whose sizes do
not add up does not type-check.

* `Pane.beside`, `Pane.above` : panes side by side and one above the other.
* `Pane.framed` : a pane with a border and a title around it.
-/

namespace HiddenEquation.Screen

/-- One column of one row.  A character of double width stands in its first column and
leaves the second without a glyph of its own. -/
structure Cell where
  glyph : Option Char
  background : Option Color
deriving DecidableEq, Repr

/-- A cell that shows nothing. -/
def Cell.blank : Cell := ⟨some ' ', none⟩

/-- Whether a character takes two columns.  Among the characters that are ever shown these
are the pictographs. -/
def isWide (c : Char) : Bool := c == '✨' || decide (0x1F000 ≤ c.toNat ∧ c.toNat < 0x20000)

/-- The cells of one character. -/
def cellsOfChar (background : Option Color) (c : Char) : List Cell :=
  if isWide c then [⟨some c, background⟩, ⟨none, background⟩] else [⟨some c, background⟩]

/-- The cells of a text on a background. -/
def cellsOn (background : Option Color) (s : List Char) : List Cell :=
  s.flatMap (cellsOfChar background)

/-- The cells of a text. -/
def cells (s : String) : List Cell := cellsOn none s.toList

theorem length_cellsOfChar (b : Option Color) (c : Char) :
    (cellsOfChar b c).length = if isWide c then 2 else 1 := by
  unfold cellsOfChar
  split <;> rfl

/-- A text without wide characters takes a column to each character. -/
theorem length_cellsOn (b : Option Color) {s : List Char} (h : ∀ c ∈ s, isWide c = false) :
    (cellsOn b s).length = s.length := by
  induction s with
  | nil => rfl
  | cons c s ih =>
    rw [List.forall_mem_cons] at h
    rw [cellsOn, List.flatMap_cons, List.length_append, length_cellsOfChar, h.1, ← cellsOn, ih h.2,
      List.length_cons]
    exact Nat.add_comm 1 _

/-! ## Rows -/

/-- A row of `w` columns. -/
abbrev Row (w : Nat) := Vector Cell w

namespace Row

/-- Some cells in a row: cut, or filled with blanks. -/
def fit (w : Nat) (cs : List Cell) : Row w := Vector.ofFn fun i => cs.getD i .blank

/-- Some cells in the middle of a row.  Half of the row less half of the cells, each rounded
down, is left free before them. -/
def center (w : Nat) (cs : List Cell) : Row w :=
  let shown := cs.take w
  fit w (List.replicate (w / 2 - shown.length / 2) .blank ++ shown)

/-- The text of a row without the blanks at its end. -/
def text {w : Nat} (r : Row w) : String :=
  let glyphs := r.toList.filterMap Cell.glyph
  String.ofList (glyphs.reverse.dropWhile (· == ' ')).reverse

end Row

/-! ## Panes -/

/-- A rectangle of cells. -/
structure Pane (w h : Nat) where
  rows : Vector (Row w) h

namespace Pane

variable {w w₁ w₂ h h₁ h₂ : Nat}

/-- The pane of some rows: cut, or filled with blank ones. -/
def ofRows (h : Nat) (rows : List (Row w)) : Pane w h :=
  ⟨Vector.ofFn fun i => rows.getD i (.fit w [])⟩

/-- Two panes side by side. -/
def beside (a : Pane w₁ h) (b : Pane w₂ h) : Pane (w₁ + w₂) h :=
  ⟨Vector.zipWith (fun r s => r ++ s) a.rows b.rows⟩

/-- A pane above another. -/
def above (a : Pane w h₁) (b : Pane w h₂) : Pane w (h₁ + h₂) := ⟨a.rows ++ b.rows⟩

end Pane

/-- The characters of a border. -/
structure Border where
  topLeft : Char
  topRight : Char
  bottomLeft : Char
  bottomRight : Char
  horizontal : Char
  vertical : Char

namespace Border

/-- A border of single lines. -/
def single : Border := ⟨'┌', '┐', '└', '┘', '─', '│'⟩

/-- A border of single lines with rounded corners. -/
def rounded : Border := ⟨'╭', '╮', '╰', '╯', '─', '│'⟩

/-- A border of double lines. -/
def double : Border := ⟨'╔', '╗', '╚', '╝', '═', '║'⟩

/-- The top line, with a title after its corner. -/
def top (b : Border) (w : Nat) (title : String) : Row (1 + w + 1) :=
  Row.fit 1 (cellsOn none [b.topLeft])
    ++ Row.fit w (cells title ++ cellsOn none (List.replicate w b.horizontal))
    ++ Row.fit 1 (cellsOn none [b.topRight])

/-- The bottom line. -/
def bottom (b : Border) (w : Nat) : Row (1 + w + 1) :=
  Row.fit 1 (cellsOn none [b.bottomLeft])
    ++ Row.fit w (cellsOn none (List.replicate w b.horizontal))
    ++ Row.fit 1 (cellsOn none [b.bottomRight])

/-- One of the two sides. -/
def side (b : Border) (h : Nat) : Pane 1 h :=
  .ofRows h (List.replicate h (.fit 1 (cellsOn none [b.vertical])))

end Border

/-- A pane with a border and a title around it. -/
def Pane.framed {w h : Nat} (p : Pane w h) (b : Border) (title : String) :
    Pane (1 + w + 1) (1 + h + 1) :=
  (Pane.mk #v[b.top w title]).above (((b.side h).beside p).beside (b.side h))
    |>.above (Pane.mk #v[b.bottom w])

/-- The glyph of a cell in the ink of its background. -/
def Cell.span? (c : Cell) : Option Span :=
  c.glyph.map fun g => ⟨⟨false, c.background, none⟩, String.singleton g⟩

/-- A pane as lines of styled text. -/
def Pane.styled {w h : Nat} (p : Pane w h) : Styled :=
  p.rows.toList.flatMap fun row => row.toList.filterMap Cell.span? ++ Styled.plain "\n"

/-! ## Meters -/

/-- The number of filled columns of a meter that is `width` wide: the share of hundred,
rounded to the nearest column, a half upwards. -/
def meterFilled (width percent : Nat) : Nat := (2 * width * percent + 100) / 200

/-- A meter with a label in its middle.  The label covers what is under it, and the column
after it stays free.  No meter shows more than hundred percent. -/
def meter (width percent : Nat) (_hpercent : percent ≤ 100) (label : String) : Row width :=
  let filled := meterFilled width percent
  let shown := cells label
  let start := (width - shown.length) / 2
  Vector.ofFn fun i =>
    if i.val < start then (if i.val < filled then ⟨some '█', none⟩ else .blank)
    else if i.val ≤ start + shown.length then shown.getD (i.val - start) .blank
    else if i.val < filled then ⟨some '█', none⟩
    else .blank

end HiddenEquation.Screen
