import HiddenEquation.Play.Game
import HiddenEquation.Screen.Pane

/-!
# The full screen

The game as a screen of 160 columns and 40 rows: a header, the board of guesses, three
panels beside it, the input line and a line of figures.

* `share_le` : a part of a whole never exceeds the scale.
* `share_mono` : a greater part never comes to less.
* `share_eq_scale_iff` : only the whole fills the scale.
-/

namespace HiddenEquation.Play

open Screen (Cell Row Pane Border cells cellsOn meter)

/-! ## Shares -/

/-- What a part of a whole comes to on a scale, rounded down.  An empty whole has no shares. -/
def share (scale part whole : Nat) (_hwhole : 0 < whole) : Nat := part * scale / whole

section

variable {scale part whole : Nat} {hwhole : 0 < whole}

theorem share_le (h : part ≤ whole) : share scale part whole hwhole ≤ scale := by
  unfold share
  apply Nat.div_le_of_le_mul
  exact Nat.mul_le_mul_right _ h

theorem share_mono {more : Nat} (h : part ≤ more) :
    share scale part whole hwhole ≤ share scale more whole hwhole :=
  Nat.div_le_div_right (Nat.mul_le_mul_right _ h)

/-- Rounding down leaves the scale full only if nothing was missing. -/
theorem share_eq_scale_iff (hscale : 0 < scale) (h : part ≤ whole) :
    share scale part whole hwhole = scale ↔ part = whole := by
  constructor
  · intro hfull
    have hquotient : part * scale / whole = scale := hfull
    have hmul : scale * whole ≤ scale * part := by
      calc scale * whole = part * scale / whole * whole := by rw [hquotient]
        _ ≤ part * scale := Nat.div_mul_le_self _ _
        _ = scale * part := Nat.mul_comm _ _
    exact Nat.le_antisymm h (Nat.le_of_mul_le_mul_left hmul hscale)
  · intro hpart
    rw [hpart, share, Nat.mul_div_cancel_left _ hwhole]

end

/-! ## The board -/

/-- One place of the board: a character on a background. -/
structure Tile where
  background : Color
  glyph : Char
deriving DecidableEq, Repr

/-- The columns of a tile and of the gap after it. -/
def Tile.columns (t : Tile) : List Cell :=
  cellsOn (some t.background) [' ', t.glyph, ' '] ++ cells " "

/-- The background of a mark. -/
def tileBackground : Mark → Color
  | .correct => .green
  | .present => .yellow
  | .absent => .brightBlack

/-- A guess as a row of tiles. -/
def answeredRow (a : Attempt) : List Tile :=
  (a.guess.chars.zip a.verdict.feedback.marks).map fun t => ⟨tileBackground t.2, t.1⟩

/-- What stands for a character that is still to be typed. -/
def placeholder : Char := '·'

/-- A row that is not filled yet, with what is typed so far. -/
def openRow (length : Nat) (typed : List Char) : List Tile :=
  (List.range length).map fun i => ⟨.black, typed.getD i placeholder⟩

/-- The rows of the board: the attempts and, while the round goes on, the row that is being
typed and the empty rows after it. -/
def boardRows (g : Game) : List (List Tile) :=
  let answered := g.round.attempts.map answeredRow
  if g.round.status = .playing then
    answered ++ openRow g.length g.input
      :: List.replicate (g.round.maxAttempts - (g.round.attempts.length + 1)) (openRow g.length [])
  else answered

/-- The board, with a blank line after each row. -/
def board (g : Game) : Pane 94 29 :=
  .ofRows 29 ((boardRows g).flatMap fun row =>
    [.center 94 (row.flatMap Tile.columns), .fit 94 []])

/-! ## The panels -/

/-- The target. -/
def header (g : Game) : Pane 158 1 :=
  .ofRows 1
    [.center 158
      (cells s!"🧮 MATHLER | Find the equation that equals {g.round.challenge.target.toInt}")]

/-- The attempts that the meter measures by, at least one. -/
def meterWhole (g : Game) : Nat := max 1 g.round.maxAttempts

theorem meterWhole_pos (g : Game) : 0 < meterWhole g := Nat.le_max_left 1 _

/-- The attempts used, in percent and never more than hundred. -/
def usedPercent (g : Game) : Nat :=
  min 100 (share 100 g.round.attempts.length (meterWhole g) (meterWhole_pos g))

theorem usedPercent_le (g : Game) : usedPercent g ≤ 100 := Nat.min_le_left _ _

/-- The meter of attempts. -/
def attemptsMeter (g : Game) : Pane 62 1 :=
  .ofRows 1
    [meter 62 (usedPercent g) (usedPercent_le g)
      s!"{g.round.attempts.length}/{meterWhole g} used"]

/-- The length of the longest bar of the distribution. -/
def longestBar : Nat := 16

/-- The bar for a number of attempts: its share of the peak. -/
def bar (t : Tally) (attempts : Nat) : List Cell :=
  cellsOn none
    (List.replicate (share longestBar (t.wonIn attempts) t.peak t.peak_pos) '█')

/-- The line of the distribution for a number of attempts. -/
def distributionLine (t : Tally) (attempts : Nat) : List Cell :=
  cells s!"{attempts}: " ++ bar t attempts ++ cells s!" {t.wonIn attempts}"

/-- The distribution of the rounds won by the number of attempts. -/
def distribution (g : Game) : Pane 62 14 :=
  .ofRows 14
    ((List.range Tally.highest).map fun i => .fit 62 (distributionLine g.tally (i + 1)))

/-- The messages, the newest first. -/
def messageLines (g : Game) : Pane 62 10 :=
  .ofRows 10 (g.messages.shown.reverse.map fun m => .fit 62 (cells m.text))

/-- The title of the input line. -/
def inputTitle (g : Game) : String :=
  match g.mode, g.round.status with
  | .guessing, _ => " Enter Equation (digits, + - * /, x for ×) | Enter to submit "
  | .over, .won => " 🎉 CONGRATULATIONS! 🎉 | Press 'n' for new game or 'q' to quit "
  | .over, _ => " Out of attempts | Press 'n' for new game or 'q' to quit "

/-- The input line, empty when nothing can be typed. -/
def inputLine (g : Game) : Pane 158 1 :=
  .ofRows 1 [.fit 158 (if g.mode = .guessing then cellsOn none g.input else [])]

/-- The four figures below everything else. -/
def figures (g : Game) : List String :=
  let c := g.round.challenge
  let rate := Decimal.fixed 0 g.tally.winRate
  [s!"Target: {c.target.toInt} | Difficulty: {c.difficulty.toNat}",
   s!"Games: {g.tally.games} | Win Rate: {rate}%",
   s!"Attempts left: {g.round.remaining}",
   "q: Quit | n: New Game | Enter: Submit"]

/-- One of the figures in its quarter of the screen. -/
def figure (g : Game) (i : Nat) : Pane 40 3 :=
  .ofRows 3 [.center 40 (cells ((figures g).getD i ""))]

/-- The line of figures, with two blank lines below it. -/
def statusLine (g : Game) : Pane 160 3 :=
  (((figure g 0).beside (figure g 1)).beside (figure g 2)).beside (figure g 3)

/-! ## The whole -/

/-- The panels beside the board. -/
def sidePanels (g : Game) : Pane 64 31 :=
  (((attemptsMeter g).framed .rounded " Attempts ").above
    ((distribution g).framed .single " Guess Distribution ")).above
    ((messageLines g).framed .single " Messages ")

/-- The whole screen. -/
def frame (g : Game) : Pane 160 40 :=
  ((((header g).framed .rounded "").above
    (((board g).framed .rounded " Board ").beside (sidePanels g))).above
    ((inputLine g).framed .double (inputTitle g))).above (statusLine g)

end HiddenEquation.Play
