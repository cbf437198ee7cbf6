import HiddenEquation.Play.Frame
import HiddenEquation.Proofs.Play.Rounds
import Mathlib.Algebra.Order.BigOperators.Group.List
import Mathlib.Algebra.Order.Group.Nat

/-!
# The figures of the frame

The frame computes with figures that are kept elsewhere: the attempts of the round, the input line
and the tally.  Its meter, its bars and its rows come out right because of what `Game.Consistent`
and `Tally.Balanced` say of these figures, so they do in every game that can come about.

* `Tally.peak_le_iff` : the peak is the least number above all counts, and at least one.
* `length_bar_eq_longestBar_iff` : the longest bars are those of the greatest counts.
* `Game.Consistent.usedPercent_eq_hundred_iff` : the meter is full when all attempts are used.
* `Game.Consistent.glyphs_boardRows`, `Game.Consistent.backgrounds_boardRows` : what the rows of the
  board show while the round goes on.
-/

namespace HiddenEquation.Play

/-! ## The peak of a tally -/

theorem foldl_max_le_iff {l : List Nat} {b n : Nat} :
    l.foldl max b ≤ n ↔ b ≤ n ∧ ∀ x ∈ l, x ≤ n := by
  induction l generalizing b with
  | nil => simp
  | cons x l ih => rw [List.foldl_cons, ih, Nat.max_le, List.forall_mem_cons, and_assoc]

namespace Tally

variable {t : Tally} {n : Nat}

theorem wonIn_eq_getElem (t : Tally) {k : Nat} (hk : k < highest + 1) :
    t.wonIn k = t.distribution[k] := by
  rw [wonIn, Vector.getElem?_eq_getElem hk, Option.getD_some]

theorem wonIn_of_highest_lt (t : Tally) {k : Nat} (hk : highest < k) : t.wonIn k = 0 := by
  rw [wonIn, Vector.getElem?_eq_none hk, Option.getD_none]

theorem forall_wonIn_le_iff :
    (∀ k, t.wonIn k ≤ n) ↔ ∀ x ∈ t.distribution.toList, x ≤ n := by
  constructor
  · intro h x hx
    obtain ⟨k, hk, rfl⟩ := List.getElem_of_mem hx
    rw [Vector.length_toList] at hk
    rw [Vector.getElem_toList, ← wonIn_eq_getElem t hk]
    exact h k
  · intro h k
    by_cases hk : k < highest + 1
    · rw [wonIn_eq_getElem t hk]
      exact h _ (Vector.mem_toList_iff.2 (Vector.getElem_mem hk))
    · rw [wonIn_of_highest_lt t (by omega)]
      exact Nat.zero_le n

/-- The peak is the least number that is above all counts and at least one. -/
theorem peak_le_iff : t.peak ≤ n ↔ 0 < n ∧ ∀ k, t.wonIn k ≤ n := by
  rw [peak, ← Vector.foldl_toList, Nat.max_le, foldl_max_le_iff, forall_wonIn_le_iff]
  exact and_congr_right fun _ => and_iff_right (Nat.zero_le n)

theorem wonIn_le_peak (t : Tally) (k : Nat) : t.wonIn k ≤ t.peak :=
  (peak_le_iff.1 (Nat.le_refl t.peak)).2 k

/-- A count is the peak if it is the greatest one, unless nothing was won at all. -/
theorem wonIn_eq_peak_iff {k : Nat} :
    t.wonIn k = t.peak ↔ 0 < t.wonIn k ∧ ∀ j, t.wonIn j ≤ t.wonIn k := by
  rw [← peak_le_iff]
  exact ⟨fun h => Nat.le_of_eq h.symm, fun h => Nat.le_antisymm (t.wonIn_le_peak k) h⟩

namespace Balanced

/-- No count but those that are drawn matters. -/
theorem forall_wonIn_le_iff (h : Balanced t) :
    (∀ k, t.wonIn k ≤ n) ↔ ∀ k, 1 ≤ k → k ≤ highest → t.wonIn k ≤ n := by
  constructor
  · intro hall k _ _
    exact hall k
  · intro hdrawn k
    by_cases hpos : k = 0
    · rw [hpos, wonIn_eq_getElem t (Nat.succ_pos _), h.none_won_at_once]
      exact Nat.zero_le n
    · by_cases hk : k ≤ highest
      · exact hdrawn k (Nat.one_le_iff_ne_zero.2 hpos) hk
      · rw [wonIn_of_highest_lt t (by omega)]
        exact Nat.zero_le n

theorem wonIn_le_games (h : Balanced t) (k : Nat) : t.wonIn k ≤ t.games := by
  refine Tally.forall_wonIn_le_iff.2 (fun x hx => ?_) k
  calc x ≤ t.distribution.toList.sum := List.le_sum_of_mem hx
    _ = t.won := by rw [Vector.sum_toList, h.sum_distribution]
    _ ≤ t.games := h.won_le_games

end Balanced

theorem games_count_le (t : Tally) (r : Round) : (t.count r).games ≤ t.games + 1 := by
  unfold Tally.count
  cases r.status with
  | playing => exact Nat.le_succ _
  | won => exact Nat.le_refl _
  | lost => exact Nat.le_refl _

end Tally

/-! ## The bars of the distribution -/

section

variable {t : Tally} {j k : Nat}

theorem length_bar (t : Tally) (k : Nat) :
    (bar t k).length = share longestBar (t.wonIn k) t.peak t.peak_pos := by
  rw [bar, Screen.length_cellsOn, List.length_replicate]
  -- the full block takes one column
  intro c hc
  rw [List.eq_of_mem_replicate hc]
  decide

theorem length_bar_le (t : Tally) (k : Nat) : (bar t k).length ≤ longestBar := by
  rw [length_bar]
  exact share_le (t.wonIn_le_peak k)

/-- The longest bars are those of the greatest counts. -/
theorem length_bar_eq_longestBar_iff :
    (bar t k).length = longestBar ↔ 0 < t.wonIn k ∧ ∀ j, t.wonIn j ≤ t.wonIn k := by
  rw [length_bar, share_eq_scale_iff (by decide) (t.wonIn_le_peak k), Tally.wonIn_eq_peak_iff]

theorem length_bar_mono (h : t.wonIn j ≤ t.wonIn k) : (bar t j).length ≤ (bar t k).length := by
  rw [length_bar, length_bar]
  exact share_mono h

example : (List.range 7).map (fun k => (bar ⟨10, 9, #v[0, 1, 3, 5, 0, 0, 0]⟩ k).length) =
    [0, 3, 9, 16, 0, 0, 0] := by decide

end

/-! ## Rows of tiles -/

theorem glyphs_openRow {length : Nat} {typed : List Char} (h : typed.length ≤ length) :
    (openRow length typed).map Tile.glyph =
      typed ++ List.replicate (length - typed.length) placeholder := by
  apply List.ext_getElem
  · rw [List.length_map, openRow, List.length_map, List.length_range, List.length_append,
      List.length_replicate, Nat.add_sub_cancel' h]
  · intro i _ _
    by_cases hi : i < typed.length
    · simp [openRow, hi]
    · simp [openRow, hi, Nat.le_of_not_lt hi]

theorem backgrounds_openRow (length : Nat) (typed : List Char) :
    (openRow length typed).map Tile.background = List.replicate length .black := by
  rw [openRow, List.map_map, List.eq_replicate_iff]
  constructor
  · rw [List.length_map, List.length_range]
  · intro c hc
    obtain ⟨i, -, rfl⟩ := List.mem_map.1 hc
    rfl

/-- A row shows the whole guess if there is a mark to each character. -/
theorem glyphs_answeredRow {a : Attempt}
    (h : a.verdict.feedback.marks.length = a.guess.length) :
    (answeredRow a).map Tile.glyph = a.guess.chars := by
  rw [answeredRow, List.map_map]
  exact List.map_fst_zip (Nat.le_of_eq h.symm)

/-- A row shows all the marks if there is a character to each of them. -/
theorem backgrounds_answeredRow {a : Attempt}
    (h : a.verdict.feedback.marks.length = a.guess.length) :
    (answeredRow a).map Tile.background = a.verdict.feedback.marks.map tileBackground := by
  have hmarks : (a.guess.chars.zip a.verdict.feedback.marks).map Prod.snd =
      a.verdict.feedback.marks := List.map_snd_zip (Nat.le_of_eq h)
  conv_rhs => rw [← hmarks]
  rw [answeredRow, List.map_map, List.map_map]
  rfl

namespace Game

variable {g : Game} {d : Dealer}

namespace Consistent

/-! ## The meter of attempts -/

/-- A round offers attempts, so the meter measures by just as many. -/
theorem meterWhole_eq (h : Consistent d g) : meterWhole g = g.round.maxAttempts := by
  rw [meterWhole, h.offered]
  rfl

theorem attempts_le_meterWhole (h : Consistent d g) :
    g.round.attempts.length ≤ meterWhole g := by
  rw [h.meterWhole_eq]
  exact h.proper.within

/-- The meter never has to be cut at hundred. -/
theorem usedPercent_eq_share (h : Consistent d g) :
    usedPercent g = share 100 g.round.attempts.length (meterWhole g) (meterWhole_pos g) :=
  Nat.min_eq_right (share_le h.attempts_le_meterWhole)

theorem usedPercent_eq (h : Consistent d g) :
    usedPercent g = g.round.attempts.length * 100 / g.round.maxAttempts := by
  rw [h.usedPercent_eq_share, share, h.meterWhole_eq]

/-- The meter is full when all attempts are used. -/
theorem usedPercent_eq_hundred_iff (h : Consistent d g) :
    usedPercent g = 100 ↔ g.round.attempts.length = g.round.maxAttempts := by
  rw [h.usedPercent_eq_share, share_eq_scale_iff (by decide) h.attempts_le_meterWhole,
    h.meterWhole_eq]

/-! ## The board -/

/-- An attempt has a mark to each character, since it was graded. -/
theorem length_marks (h : Consistent d g) {a : Attempt} (ha : a ∈ g.round.attempts) :
    a.verdict.feedback.marks.length = a.guess.length := by
  obtain ⟨p, -, hv⟩ := Book.check_eq_ok_iff.1 (h.answered a ha)
  obtain ⟨hlen, hgraded⟩ := isGraded_of_valid hv (h.proper.valid a ha)
  exact hgraded.length_marks hlen

/-- While the round goes on the board shows the attempts, then what is typed with room for the
rest, then the attempts that are left after this one. -/
theorem glyphs_boardRows (h : Consistent d g) (hplay : g.round.status = .playing) :
    (boardRows g).map (List.map Tile.glyph) =
      g.round.attempts.map (fun a => a.guess.chars) ++
        (g.input ++ List.replicate (g.length - g.input.length) placeholder) ::
          List.replicate (g.round.remaining - 1) (List.replicate g.length placeholder) := by
  have hanswered : g.round.attempts.map (List.map Tile.glyph ∘ answeredRow) =
      g.round.attempts.map fun a => a.guess.chars :=
    List.map_congr_left fun a ha => glyphs_answeredRow (h.length_marks ha)
  have hempty : (openRow g.length []).map Tile.glyph = List.replicate g.length placeholder :=
    glyphs_openRow (Nat.zero_le _)
  rw [boardRows, if_pos hplay, List.map_append, List.map_map, hanswered, List.map_cons,
    glyphs_openRow h.fits, List.map_replicate, hempty, Round.remaining, Nat.sub_sub]

/-- While the round goes on the backgrounds of the board are the marks of the attempts, and black
for what is left. -/
theorem backgrounds_boardRows (h : Consistent d g) (hplay : g.round.status = .playing) :
    (boardRows g).map (List.map Tile.background) =
      g.round.attempts.map (fun a => a.verdict.feedback.marks.map tileBackground) ++
        List.replicate g.round.remaining (List.replicate g.length .black) := by
  have hanswered : g.round.attempts.map (List.map Tile.background ∘ answeredRow) =
      g.round.attempts.map fun a => a.verdict.feedback.marks.map tileBackground :=
    List.map_congr_left fun a ha => backgrounds_answeredRow (h.length_marks ha)
  have hleft : g.round.remaining =
      g.round.maxAttempts - (g.round.attempts.length + 1) + 1 := by
    have := (Round.status_eq_playing_iff.1 hplay).2
    rw [Round.remaining]
    omega
  rw [boardRows, if_pos hplay, List.map_append, List.map_map, hanswered, List.map_cons,
    List.map_replicate, backgrounds_openRow, backgrounds_openRow, hleft, List.replicate_succ]

/-- While the round goes on the board has a row to each attempt that the round offers, each as
long as an equation. -/
theorem lengths_boardRows (h : Consistent d g) (hplay : g.round.status = .playing) :
    (boardRows g).map List.length = List.replicate g.round.maxAttempts g.length := by
  have hlengths : (boardRows g).map List.length =
      ((boardRows g).map (List.map Tile.glyph)).map List.length := by
    rw [List.map_map]
    exact List.map_congr_left fun row _ => (List.length_map _).symm
  have hleft : g.round.attempts.length < g.round.maxAttempts :=
    (Round.status_eq_playing_iff.1 hplay).2
  rw [hlengths, h.glyphs_boardRows hplay, List.eq_replicate_iff]
  constructor
  · simp only [List.length_map, List.length_append, List.length_cons, List.length_replicate,
      Round.remaining]
    omega
  · intro n hn
    obtain ⟨row, hrow, rfl⟩ := List.mem_map.1 hn
    rcases List.mem_append.1 hrow with hrow | hrow
    · obtain ⟨a, ha, rfl⟩ := List.mem_map.1 hrow
      exact h.length_guess ha
    · rcases List.mem_cons.1 hrow with rfl | hrow
      · rw [List.length_append, List.length_replicate, Nat.add_sub_cancel' h.fits]
      · rw [List.eq_of_mem_replicate hrow, List.length_replicate]

end Consistent

end Game

end HiddenEquation.Play
