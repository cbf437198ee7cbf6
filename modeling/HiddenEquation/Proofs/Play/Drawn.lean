import HiddenEquation.Proofs.Decimal.Plain
import HiddenEquation.Proofs.Play.Frame
import HiddenEquation.Proofs.Screen.Pane

/-!
# What is drawn of a game

The screen cell by cell: where the board, the meter of attempts and the bars stand on it, and which
cells they fill.  No character of an equation is wide, so a tile always takes four columns and a bar
as many as it has blocks.

* `cell?_board` : the cells of the board, by its rows.
* `cell?_frame_board`, `cell?_frame_meter`, `cell?_frame_distribution` : the places on the screen.
* `Game.Consistent.isWide_boardRows` : no tile is too wide in a game that can come about.
* `Game.drawn_steps` : meter, bars and board after any steps.
-/

namespace HiddenEquation.Play

open Screen (Cell Row Pane isWide cells cellsOn meterFilled meterCell)

/-! ## Characters of one column -/

theorem isWide_of_isAllowed {c : Char} (h : Expr.isAllowed c = true) : isWide c = false := by
  have hne : c ≠ '✨' := by
    rintro rfl
    exact absurd h (by decide)
  refine Screen.isWide_eq_false ?_ hne
  rcases (Expr.isAllowed_iff c).1 h with hblank | hdigit | hop
  · obtain ⟨r, hr, -, hhi⟩ := (Text.isBlank_iff c).1 hblank
    have hlast : ∀ r ∈ Text.blankRanges, r.2 < 0x1F000 := by decide
    exact Nat.lt_of_le_of_lt hhi (hlast r hr)
  · simp only [Char.isDigit, Bool.and_eq_true, decide_eq_true_eq] at hdigit
    exact Nat.lt_of_le_of_lt hdigit.2 (by decide)
  · simp only [List.mem_cons, List.not_mem_nil, or_false] at hop
    rcases hop with rfl | rfl | rfl | rfl <;> decide

theorem isWide_of_all {s : List Char} (h : s.all (fun c => !isWide c) = true) :
    ∀ c ∈ s, isWide c = false := by simpa using h

theorem isWide_of_mem_toString {n : ℕ} {c : Char} (h : c ∈ (toString n).toList) :
    isWide c = false := by
  rw [Decimal.toList_toString] at h
  exact isWide_of_isAllowed ((Expr.isAllowed_iff c).2
    (Or.inr (Or.inl (Nat.isDigit_of_mem_toDigits (by decide) (by decide) h))))

/-! ## Tiles -/

/-- The cell of a row of tiles: a tile takes three columns on its background, with its character in
the middle one, and the column after it stays free. -/
def tileCell (row : List Tile) (column : ℕ) : Cell :=
  match row[column / 4]? with
  | some t =>
    if column % 4 = 3 then .blank
    else .narrow (some t.background) (if column % 4 = 1 then t.glyph else ' ')
  | none => .blank

theorem columns_eq {t : Tile} (h : isWide t.glyph = false) :
    t.columns = [.narrow (some t.background) ' ', .narrow (some t.background) t.glyph,
      .narrow (some t.background) ' ', .blank] := by
  have hnarrow : ∀ c ∈ [' ', t.glyph, ' '], isWide c = false := by
    simp only [List.mem_cons, List.not_mem_nil, or_false]
    rintro c (rfl | rfl | rfl)
    · rfl
    · exact h
    · rfl
  rw [Tile.columns, Screen.cellsOn_eq_map _ hnarrow]
  rfl

section

variable {row : List Tile}

theorem length_flatMap_columns (h : ∀ t ∈ row, isWide t.glyph = false) :
    (row.flatMap Tile.columns).length = 4 * row.length := by
  induction row with
  | nil => rfl
  | cons t row ih =>
    rw [List.forall_mem_cons] at h
    rw [List.flatMap_cons, List.length_append, ih h.2, columns_eq h.1, List.length_cons]
    simp only [List.length_cons, List.length_nil]
    omega

theorem getD_flatMap_columns (h : ∀ t ∈ row, isWide t.glyph = false) (column : ℕ) :
    (row.flatMap Tile.columns).getD column .blank = tileCell row column := by
  induction row generalizing column with
  | nil => rfl
  | cons t row ih =>
    rw [List.forall_mem_cons] at h
    rw [List.flatMap_cons, columns_eq h.1]
    match column with
    | 0 => rfl
    | 1 => rfl
    | 2 => rfl
    | 3 => rfl
    | column + 4 =>
      have hplace : (column + 4) / 4 = column / 4 + 1 := by omega
      have hrest : (column + 4) % 4 = column % 4 := by omega
      rw [tileCell, hplace, hrest]
      exact ih h.2 column

end

/-! ## The board -/

/-- The cell of a board: its rows stand on every second line, each in the middle of 94 columns. -/
def boardCell (rows : List (List Tile)) (line column : ℕ) : Cell :=
  match if line % 2 = 0 then rows[line / 2]? else none with
  | some row =>
    let margin := 47 - min 94 (4 * row.length) / 2
    if column < margin then .blank else tileCell row (column - margin)
  | none => .blank

/-- Rows with a free line after each of them. -/
theorem getD_flatMap_spaced {α β : Type} (f : α → β) (z : β) (rows : List α) (line : ℕ) :
    (rows.flatMap fun r => [f r, z]).getD line z =
      ((if line % 2 = 0 then rows[line / 2]? else none).map f).getD z := by
  induction rows generalizing line with
  | nil => simp
  | cons r rows ih =>
    match line with
    | 0 => rfl
    | 1 => rfl
    | line + 2 =>
      have hplace : (line + 2) / 2 = line / 2 + 1 := by omega
      have hrest : (line + 2) % 2 = line % 2 := by omega
      rw [hplace, hrest]
      exact ih line

variable {g : Game} {line column : ℕ}

/-- **The cells of the board**, by its rows. -/
theorem cell?_board (h : ∀ row ∈ boardRows g, ∀ t ∈ row, isWide t.glyph = false)
    (hline : line < 29) (hcolumn : column < 94) :
    (board g).cell? line column = some (boardCell (boardRows g) line column) := by
  have hrows := getD_flatMap_spaced
    (fun row : List Tile => Row.center 94 (row.flatMap Tile.columns)) (.fit 94 [])
    (boardRows g) line
  rw [board, Pane.cell?_ofRows hline, hrows, boardCell]
  cases hrow : if line % 2 = 0 then (boardRows g)[line / 2]? else none with
  | none => exact Row.getElem?_fit hcolumn []
  | some row =>
    have hmem : row ∈ boardRows g := by
      split at hrow
      · exact List.mem_of_getElem? hrow
      · cases hrow
    rw [Option.map_some, Option.getD_some, Row.getElem?_center hcolumn,
      length_flatMap_columns (h row hmem), getD_flatMap_columns (h row hmem)]

/-! ## The meter and the bars -/

theorem cell?_attemptsMeter (g : Game) (hcolumn : column < 62) :
    (attemptsMeter g).cell? 0 column =
      some (meterCell 62 s!"{g.round.attempts.length}/{meterWhole g} used"
        (meterFilled 62 (usedPercent g)) column) := by
  rw [attemptsMeter, Pane.cell?_ofRows (by decide)]
  refine Screen.getElem?_meter hcolumn (usedPercent_le g) ?_
  simp only [String.toList_append, List.forall_mem_append]
  exact ⟨⟨⟨fun _ => isWide_of_mem_toString, isWide_of_all (by decide)⟩,
    fun _ => isWide_of_mem_toString⟩, isWide_of_all (by decide)⟩

/-- A meter is filled to its end at hundred percent and not before. -/
theorem meterFilled_eq_iff {percent : ℕ} : meterFilled 62 percent = 62 ↔ percent = 100 := by
  unfold meterFilled
  omega

/-- What stands on the line of the distribution for a number of attempts. -/
def distributionText (t : Tally) (attempts : ℕ) : List Char :=
  s!"{attempts}: ".toList ++ List.replicate (bar t attempts).length '█'
    ++ s!" {t.wonIn attempts}".toList

theorem distributionLine_eq (t : Tally) (attempts : ℕ) :
    distributionLine t attempts = (distributionText t attempts).map (Cell.narrow none) := by
  have hfront : ∀ c ∈ s!"{attempts}: ".toList, isWide c = false := by
    simp only [String.toList_append, List.forall_mem_append]
    exact ⟨fun _ => isWide_of_mem_toString, isWide_of_all (by decide)⟩
  have hcount : ∀ c ∈ s!" {t.wonIn attempts}".toList, isWide c = false := by
    simp only [String.toList_append, List.forall_mem_append]
    exact ⟨isWide_of_all (by decide), fun _ => isWide_of_mem_toString⟩
  have hblocks (n : ℕ) : ∀ c ∈ List.replicate n '█', isWide c = false := by
    intro c hc
    rw [List.eq_of_mem_replicate hc]
    decide
  rw [distributionText, length_bar, List.map_append, List.map_append,
    ← Screen.cellsOn_eq_map none hfront, ← Screen.cellsOn_eq_map none hcount,
    ← Screen.cellsOn_eq_map none (hblocks _)]
  rfl

theorem cell?_distribution (g : Game) (hline : line < Tally.highest) (hcolumn : column < 62) :
    (distribution g).cell? line column =
      some (.narrow none ((distributionText g.tally (line + 1)).getD column ' ')) := by
  have hrow : ((List.range Tally.highest).map fun i =>
      Row.fit 62 (distributionLine g.tally (i + 1))).getD line (.fit 62 []) =
      .fit 62 (distributionLine g.tally (line + 1)) := by
    rw [List.getD_eq_getElem?_getD, List.getElem?_map, List.getElem?_range hline]
    rfl
  rw [distribution, Pane.cell?_ofRows (Nat.lt_trans hline (by decide)), hrow,
    Row.getElem?_fit hcolumn, distributionLine_eq, Screen.getD_map_narrow]

/-! ## Places on the screen -/

theorem cell?_frame_board (g : Game) (hline : line < 29) (hcolumn : column < 94) :
    (frame g).cell? (4 + line) (1 + column) = (board g).cell? line column := by
  have hplace : 4 + line = (1 + 1 + 1) + (1 + line) := by omega
  rw [hplace]
  refine (Pane.cell?_above_top (by omega) _ _ _).trans ?_
  refine (Pane.cell?_above_top (by omega) _ _ _).trans ?_
  refine (Pane.cell?_above_bottom _ _ _ _).trans ?_
  refine (Pane.cell?_beside_left (by omega) _ _ _).trans ?_
  exact Pane.cell?_framed hline hcolumn _ _ _

theorem cell?_frame_sidePanels (g : Game) (hline : line < 31) (column : ℕ) :
    (frame g).cell? (3 + line) (96 + column) = (sidePanels g).cell? line column := by
  refine (Pane.cell?_above_top (by omega) _ _ _).trans ?_
  refine (Pane.cell?_above_top (by omega) _ _ _).trans ?_
  refine (Pane.cell?_above_bottom _ _ _ _).trans ?_
  exact Pane.cell?_beside_right _ _ _ _

theorem cell?_frame_meter (g : Game) (hcolumn : column < 62) :
    (frame g).cell? 4 (97 + column) = (attemptsMeter g).cell? 0 column := by
  have hplace : 97 + column = 96 + (1 + column) := by omega
  rw [hplace]
  refine (cell?_frame_sidePanels g (show 1 < 31 by decide) _).trans ?_
  refine (Pane.cell?_above_top (by omega) _ _ _).trans ?_
  refine (Pane.cell?_above_top (by omega) _ _ _).trans ?_
  exact Pane.cell?_framed Nat.one_pos hcolumn _ _ _

theorem cell?_frame_distribution (g : Game) (hline : line < 14) (hcolumn : column < 62) :
    (frame g).cell? (7 + line) (97 + column) = (distribution g).cell? line column := by
  have hplace : 97 + column = 96 + (1 + column) := by omega
  have hbelow : 7 + line = 3 + ((1 + 1 + 1) + (1 + line)) := by omega
  rw [hplace, hbelow]
  refine (cell?_frame_sidePanels g (by omega) _).trans ?_
  refine (Pane.cell?_above_top (by omega) _ _ _).trans ?_
  refine (Pane.cell?_above_bottom _ _ _ _).trans ?_
  exact Pane.cell?_framed hline hcolumn _ _ _

/-- Where the share of rounds won is computed by a division, its divisor is not zero. -/
theorem Tally.winRate_cases (t : Tally) : t.games = 0 ∧ t.winRate = 0 ∨
    (Float.ofNat t.games == 0) = false ∧
      t.winRate = Float.ofNat t.won / Float.ofNat t.games * 100 := by
  unfold winRate
  by_cases hgames : t.games = 0
  · exact Or.inl ⟨hgames, if_pos hgames⟩
  · refine Or.inr ⟨?_, if_neg hgames⟩
    rw [← Bool.not_eq_true]
    exact mt Decimal.ofNat_beq_zero_iff.1 hgames

namespace Game

variable {d : Dealer}

/-! ## Tiles of a game -/

theorem isWide_openRow {length : ℕ} {typed : List Char} (h : ∀ c ∈ typed, isWide c = false) :
    ∀ t ∈ openRow length typed, isWide t.glyph = false := by
  intro t ht
  obtain ⟨i, -, rfl⟩ := List.mem_map.1 ht
  show isWide (typed.getD i placeholder) = false
  rw [List.getD_eq_getElem?_getD]
  cases hc : typed[i]? with
  | none => decide
  | some c => exact h c (List.mem_of_getElem? hc)

theorem isWide_answeredRow {a : Attempt} (h : ∀ c ∈ a.guess.chars, isWide c = false) :
    ∀ t ∈ answeredRow a, isWide t.glyph = false := by
  intro t ht
  obtain ⟨x, hx, rfl⟩ := List.mem_map.1 ht
  exact h x.1 (List.of_mem_zip hx).1

namespace Consistent

/-- An attempt has a value, so no character of it is wide. -/
theorem isWide_guess (h : Consistent d g) {a : Attempt} (ha : a ∈ g.round.attempts) :
    ∀ c ∈ a.guess.chars, isWide c = false := by
  obtain ⟨p, -, hv⟩ := Book.check_eq_ok_iff.1 (h.answered a ha)
  obtain ⟨-, hgraded⟩ := isGraded_of_valid hv (h.proper.valid a ha)
  obtain ⟨v, hvalue, -⟩ := hgraded.evaluate
  exact fun c hc => isWide_of_isAllowed (Expr.isAllowed_of_evaluate a.guess.plain hvalue c hc)

theorem isWide_input (h : Consistent d g) : ∀ c ∈ g.input, isWide c = false :=
  fun c hc => isWide_of_isAllowed ((Expr.isAllowed_iff c).2 (Or.inr (h.alphabet c hc)))

/-- No tile of the board is too wide. -/
theorem isWide_boardRows (h : Consistent d g) :
    ∀ row ∈ boardRows g, ∀ t ∈ row, isWide t.glyph = false := by
  have hanswered : ∀ row ∈ g.round.attempts.map answeredRow, ∀ t ∈ row, isWide t.glyph = false := by
    intro row hrow
    obtain ⟨a, ha, rfl⟩ := List.mem_map.1 hrow
    exact isWide_answeredRow (h.isWide_guess ha)
  intro row hrow
  unfold boardRows at hrow
  dsimp only at hrow
  split at hrow
  · rcases List.mem_append.1 hrow with hrow | hrow
    · exact hanswered row hrow
    · rcases List.mem_cons.1 hrow with rfl | hrow
      · exact isWide_openRow h.isWide_input
      · rw [List.eq_of_mem_replicate hrow]
        exact isWide_openRow fun c hc => absurd hc List.not_mem_nil
  · exact hanswered row hrow

end Consistent

/-! ## The figures of a run -/

theorem games_step_le (g : Game) (d : Dealer) (s : Step) :
    (g.step d s).tally.games ≤ g.tally.games + 1 := by
  cases s with
  | type c =>
    rw [step, tally_type]
    exact Nat.le_succ _
  | erase => exact Nat.le_succ _
  | newGame c => exact Nat.le_succ _
  | submit =>
    rcases submit_round_tally_cases g d.book with ⟨-, htally⟩ | ⟨-, htally⟩
    · rw [step, htally]
      exact Nat.le_succ _
    · rw [step, htally]
      exact Tally.games_count_le _ _

/-- A round takes at least one step, so the counts cannot run ahead of the steps. -/
theorem games_steps_le (g : Game) (d : Dealer) (ss : List Step) :
    (g.steps d ss).tally.games ≤ g.tally.games + ss.length := by
  induction ss generalizing g with
  | nil => exact Nat.le_refl _
  | cons s ss ih =>
    have hstep := games_step_le g d s
    have hrest := ih (g.step d s)
    rw [steps_cons, List.length_cons]
    omega

/-! ## The screen after a run -/

/-- The screen of a game that has come about in so many steps: which figures it is computed from,
and which cells show them. -/
structure IsDrawn (g : Game) (steps : ℕ) : Prop where
  /-- The meter shows the attempts used in percent, and never more than hundred. -/
  percent_le : usedPercent g ≤ 100
  percent_eq : usedPercent g = g.round.attempts.length * 100 / g.round.maxAttempts
  percent_full : usedPercent g = 100 ↔ g.round.attempts.length = g.round.maxAttempts
  meter : ∀ column < 62, (frame g).cell? 4 (97 + column) =
    some (meterCell 62 s!"{g.round.attempts.length}/{g.round.maxAttempts} used"
      (meterFilled 62 (usedPercent g)) column)
  meter_full : meterFilled 62 (usedPercent g) = 62 ↔
    g.round.attempts.length = g.round.maxAttempts
  /-- A bar has at most sixteen cells, just as many if its count is the greatest and not zero, and
  never fewer than the bar of a lesser count. -/
  bar_le : ∀ k, 1 ≤ k → k ≤ 6 → (bar g.tally k).length ≤ 16
  bar_longest : ∀ k, 1 ≤ k → k ≤ 6 → ((bar g.tally k).length = 16 ↔
    0 < g.tally.wonIn k ∧ ∀ j, 1 ≤ j → j ≤ 6 → g.tally.wonIn j ≤ g.tally.wonIn k)
  bar_mono : ∀ k, 1 ≤ k → k ≤ 6 → ∀ j, 1 ≤ j → j ≤ 6 → g.tally.wonIn j ≤ g.tally.wonIn k →
    (bar g.tally j).length ≤ (bar g.tally k).length
  bars : ∀ k, 1 ≤ k → k ≤ 6 → ∀ column < 62, (frame g).cell? (6 + k) (97 + column) =
    some (.narrow none ((distributionText g.tally k).getD column ' '))
  /-- Nothing is divided by zero: neither by the attempts that the meter measures by, nor by the
  peak, nor by the number of games. -/
  meterWhole_pos : 0 < meterWhole g
  meterWhole_eq : meterWhole g = g.round.maxAttempts
  peak_pos : 0 < g.tally.peak
  games_eq_zero : (Float.ofNat g.tally.games == 0) = true ↔ g.tally.games = 0
  winRate : g.tally.games = 0 ∧ g.tally.winRate = 0 ∨
    (Float.ofNat g.tally.games == 0) = false ∧
      g.tally.winRate = Float.ofNat g.tally.won / Float.ofNat g.tally.games * 100
  /-- No count is greater than the number of steps, so sixteen times a count fits a word of 64 bits
  in any run of fewer than 2^60 steps. -/
  wonIn_le : ∀ k, g.tally.wonIn k ≤ steps
  /-- The board shows its rows.  While the round goes on there are as many as the round offers
  attempts, each as long as an equation: the guesses on their marks, what is typed with room for the
  rest, and rows that are still empty. -/
  board : ∀ line < 29, ∀ column < 94, (frame g).cell? (4 + line) (1 + column) =
    some (boardCell (boardRows g) line column)
  lengths : g.round.status = .playing →
    (boardRows g).map List.length = List.replicate g.round.maxAttempts g.length
  glyphs : g.round.status = .playing → (boardRows g).map (List.map Tile.glyph) =
    g.round.attempts.map (fun a => a.guess.chars) ++
      (g.input ++ List.replicate (g.length - g.input.length) placeholder) ::
        List.replicate (g.round.remaining - 1) (List.replicate g.length placeholder)
  backgrounds : g.round.status = .playing → (boardRows g).map (List.map Tile.background) =
    g.round.attempts.map (fun a => a.verdict.feedback.marks.map tileBackground) ++
      List.replicate g.round.remaining (List.replicate g.length .black)

/-- **What is drawn after any steps**, in whatever mode they are taken; a run of keys is such a
run.  The figures are safe to compute, and the screen shows the meter, the bars and the board that
belong to them. -/
theorem drawn_steps (d : Dealer) (first : Chooser) (ss : List Step) :
    ((start d first).steps d ss).IsDrawn ss.length := by
  generalize hg : (start d first).steps d ss = g
  have h : Consistent d g := hg ▸ (Consistent.start d first).steps ss
  have hbalanced : g.tally.Balanced :=
    hg ▸ balanced_steps (Consistent.start d first) Tally.balanced_none ss
  have hgames : g.tally.games ≤ ss.length := by
    have hrun := games_steps_le (start d first) d ss
    rwa [show (start d first).tally.games = 0 from rfl, Nat.zero_add, hg] at hrun
  exact
    { percent_le := usedPercent_le g
      percent_eq := h.usedPercent_eq
      percent_full := h.usedPercent_eq_hundred_iff
      meter := fun column hcolumn => by
        rw [cell?_frame_meter g hcolumn, cell?_attemptsMeter g hcolumn, h.meterWhole_eq]
      meter_full := meterFilled_eq_iff.trans h.usedPercent_eq_hundred_iff
      bar_le := fun k _ _ => length_bar_le g.tally k
      -- nothing is won without an attempt, so the count that has no bar does not set the peak
      bar_longest := fun k _ _ => length_bar_eq_longestBar_iff.trans
        (and_congr_right fun _ => hbalanced.forall_wonIn_le_iff)
      bar_mono := fun k _ _ j _ _ hle => length_bar_mono hle
      bars := fun k hk hk' column hcolumn => by
        obtain ⟨line, rfl⟩ := Nat.exists_eq_add_of_le' hk
        have hline : line < Tally.highest := hk'
        have hplace : 6 + (line + 1) = 7 + line := by omega
        rw [hplace, cell?_frame_distribution g (Nat.lt_trans hline (by decide)) hcolumn,
          cell?_distribution g hline hcolumn]
      meterWhole_pos := meterWhole_pos g
      meterWhole_eq := h.meterWhole_eq
      peak_pos := g.tally.peak_pos
      games_eq_zero := Decimal.ofNat_beq_zero_iff
      winRate := g.tally.winRate_cases
      wonIn_le := fun k => (hbalanced.wonIn_le_games k).trans hgames
      board := fun line hline column hcolumn => by
        rw [cell?_frame_board g hline hcolumn, cell?_board h.isWide_boardRows hline hcolumn]
      lengths := h.lengths_boardRows
      glyphs := h.glyphs_boardRows
      backgrounds := h.backgrounds_boardRows }

end Game

end HiddenEquation.Play
