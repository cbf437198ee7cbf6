import HiddenEquation.Proofs.Play.Consistent
import Mathlib.Algebra.BigOperators.Group.List.Basic
import Mathlib.Algebra.GroupWithZero.Nat

/-!
# The tally counts every round once

A run of steps plays one round after another.  `Game.rounds` lists them as they stand when they
are left, and `Tally.Counts` says that a tally is their count: each round that came to an end is
counted once, a round that was given up is not, and nothing that is done after the end of a round
counts again.

* `Game.counts_steps` : the tally after a run is the count of its rounds.
* `Tally.Balanced` : the figures of a tally agree with each other.
* `Game.tally_steps` : what the figures of the tally say of a run.
-/

namespace HiddenEquation.Play

/-- Replacing an element of a list by the next number adds one to the sum. -/
theorem sum_set_succ (l : List Nat) {n : Nat} (h : n < l.length) :
    (l.set n (l[n] + 1)).sum = l.sum + 1 := by
  have hset := List.sum_set l n (l[n] + 1)
  have hsame := List.sum_set l n l[n]
  rw [List.set_getElem_self] at hsame
  rw [if_pos h] at hset hsame
  omega

namespace Tally

variable {t : Tally} {r : Round} {rs : List Round}

/-! ## A tally as the count of some rounds -/

/-- A tally counts the rounds that are over, those that are won, and those won with each number
of attempts. -/
structure Counts (t : Tally) (rs : List Round) : Prop where
  games : t.games = rs.countP fun r => r.status ≠ .playing
  won : t.won = rs.countP fun r => r.status = .won
  distribution : ∀ k, (hk : k < highest + 1) →
    t.distribution[k] = rs.countP fun r => r.status = .won ∧ r.attempts.length = k

theorem counts_none : Counts none [] :=
  ⟨rfl, rfl, fun _ hk => getElem_distribution_none hk⟩

theorem count_of_playing (h : r.status = .playing) : t.count r = t := by
  rw [count, h]

/-- A round in play does not count. -/
theorem counts_append_playing_iff (h : r.status = .playing) :
    Counts t (rs ++ [r]) ↔ Counts t rs := by
  constructor
  · rintro ⟨hgames, hwon, hdistribution⟩
    exact ⟨by simpa [h] using hgames, by simpa [h] using hwon, by simpa [h] using hdistribution⟩
  · rintro ⟨hgames, hwon, hdistribution⟩
    exact ⟨by simpa [h] using hgames, by simpa [h] using hwon, by simpa [h] using hdistribution⟩

/-- Counting a round makes the tally count it too. -/
theorem Counts.append (h : Counts t rs) (r : Round) : Counts (t.count r) (rs ++ [r]) := by
  cases hr : r.status with
  | playing =>
    rw [count_of_playing hr]
    exact (counts_append_playing_iff hr).2 h
  | won =>
    have hcount : t.count r = t.addWin r.attempts.length := by rw [count, hr]
    rw [hcount]
    refine ⟨by simp [h.games, hr], by simp [h.won, hr], fun k hk => ?_⟩
    rw [getElem_distribution_addWin, h.distribution k hk, List.countP_append]
    simp [hr]
  | lost =>
    have hcount : t.count r = t.addLoss := by rw [count, hr]
    rw [hcount]
    exact ⟨by simp [h.games, hr], by simp [h.won, hr],
      fun k hk => by simp [h.distribution k hk, hr]⟩

/-! ## Figures that agree -/

/-- The figures of a tally agree with each other: nothing is won without an attempt, each round
won is counted in one place, and a round won is a round finished. -/
structure Balanced (t : Tally) : Prop where
  none_won_at_once : t.distribution[0] = 0
  sum_distribution : t.distribution.sum = t.won
  won_le_games : t.won ≤ t.games

theorem balanced_none : Balanced none := ⟨by decide, by decide, Nat.le_refl _⟩

theorem sum_distribution_addWin (t : Tally) {n : Nat} (hn : n ≤ highest) :
    (t.addWin n).distribution.sum = t.distribution.sum + 1 := by
  have hlt : n < t.distribution.toList.length := by
    rw [Vector.length_toList]
    exact Nat.lt_succ_of_le hn
  rw [addWin]
  dsimp only
  rw [dif_pos hn, ← Vector.sum_toList, ← Vector.sum_toList, Vector.toList_set,
    ← sum_set_succ t.distribution.toList hlt, Vector.getElem_toList]

theorem Balanced.addWin (h : Balanced t) {n : Nat} (hpos : 0 < n) (hn : n ≤ highest) :
    Balanced (t.addWin n) := by
  refine ⟨?_, ?_, ?_⟩
  · rw [getElem_distribution_addWin, h.none_won_at_once, if_neg (by omega)]
  · rw [sum_distribution_addWin t hn, h.sum_distribution, won_addWin]
  · rw [won_addWin, games_addWin]
    exact Nat.succ_le_succ h.won_le_games

theorem Balanced.addLoss (h : Balanced t) : Balanced t.addLoss :=
  ⟨h.none_won_at_once, h.sum_distribution, Nat.le_succ_of_le h.won_le_games⟩

/-- A round is won with at least one attempt, so counting it keeps the figures in agreement. -/
theorem Balanced.count (h : Balanced t) (hle : r.attempts.length ≤ highest) :
    Balanced (t.count r) := by
  unfold Tally.count
  split
  · exact h
  · rename_i hwon
    obtain ⟨a, ha, -⟩ := Round.status_eq_won_iff.1 hwon
    exact h.addWin (List.length_pos_of_mem ha) hle
  · exact h.addLoss

end Tally

namespace Game

variable {g : Game} {d : Dealer} {past : List Round}

/-! ## The rounds of a run -/

/-- The rounds of a run of steps, each as it stands when a new game or the end of the run leaves
it. -/
def rounds (g : Game) (d : Dealer) : List Step → List Round
  | [] => [g.round]
  | .newGame c :: ss => g.round :: (g.newGame d c).rounds d ss
  | s :: ss => (g.step d s).rounds d ss

theorem counts_submit (h : g.tally.Counts (past ++ [g.round])) (b : Book) :
    (g.submit b).tally.Counts (past ++ [(g.submit b).round]) := by
  rcases submit_round_tally_cases g b with ⟨hround, htally⟩ | ⟨hplay, htally⟩
  · rwa [hround, htally]
  · rw [htally]
    exact ((Tally.counts_append_playing_iff hplay).1 h).append _

theorem counts_newGame (h : g.tally.Counts past) (c : Chooser) :
    (g.newGame d c).tally.Counts (past ++ [(g.newGame d c).round]) :=
  (Tally.counts_append_playing_iff (Round.status_start _)).2 h

/-- The tally after a run is the count of its rounds, those before included. -/
theorem counts_steps (h : g.tally.Counts (past ++ [g.round])) (ss : List Step) :
    (g.steps d ss).tally.Counts (past ++ g.rounds d ss) := by
  induction ss generalizing g past with
  | nil => exact h
  | cons s ss ih =>
    rw [steps_cons]
    cases s with
    | type c => exact ih (by simpa [step] using h)
    | erase => exact ih h
    | submit => exact ih (counts_submit h d.book)
    | newGame c =>
      rw [rounds, List.append_cons]
      exact ih (counts_newGame h c)

/-! ## The figures after a run -/

theorem balanced_step (h : Consistent d g) (hb : g.tally.Balanced) (s : Step) :
    (g.step d s).tally.Balanced := by
  cases s with
  | type c => rwa [step, tally_type]
  | erase => exact hb
  | newGame c => exact hb
  | submit =>
    rcases submit_round_tally_cases g d.book with ⟨-, htally⟩ | ⟨-, htally⟩
    · rwa [step, htally]
    · rw [step, htally]
      exact hb.count h.submit.length_attempts_le

theorem balanced_steps (h : Consistent d g) (hb : g.tally.Balanced) (ss : List Step) :
    (g.steps d ss).tally.Balanced :=
  (steps_induction (P := fun g => Consistent d g ∧ g.tally.Balanced)
    (fun _ s hg => ⟨hg.1.step s, balanced_step hg.1 hg.2 s⟩) ⟨h, hb⟩ ss).2

/-- Only the submission that ends a round changes the tally. -/
theorem tally_step_of_over (s : Step) (h : s = .submit → g.round.status ≠ .playing) :
    (g.step d s).tally = g.tally := by
  cases s with
  | type c => exact tally_type c
  | erase => rfl
  | newGame c => rfl
  | submit => exact (submit_of_not_playing (h rfl)).2

/-- A round that is over stays as it is until a new game. -/
theorem round_step_of_over (s : Step) (h : g.round.status ≠ .playing)
    (hs : ∀ c, s ≠ .newGame c) : (g.step d s).round = g.round := by
  cases s with
  | type c => exact round_type c
  | erase => rfl
  | newGame c => exact absurd rfl (hs c)
  | submit => exact (submit_of_not_playing h).1

/-- **The figures of the tally** after any steps, in whatever mode they are taken.  They count
the rounds of the run that are over, those that are won, and those won with each number of
attempts; they agree with each other; a round that is over stays as it is until a new game; and
neither giving a round up nor submitting after its end changes them. -/
theorem tally_steps (d : Dealer) (first : Chooser) (ss : List Step) :
    let g := (start d first).steps d ss
    let rs := (start d first).rounds d ss
    g.tally.games = (rs.countP fun r => r.status = .won ∨ r.status = .lost) ∧
    g.tally.won = (rs.countP fun r => r.status = .won) ∧
    (∀ k, 1 ≤ k → k ≤ 6 → g.tally.distribution[k]? =
      some (rs.countP fun r => r.status = .won ∧ r.attempts.length = k)) ∧
    g.tally.distribution[0] = 0 ∧
    g.tally.distribution.sum = g.tally.won ∧
    g.tally.won ≤ g.tally.games ∧
    (∀ s, g.round.status ≠ .playing → (∀ c, s ≠ .newGame c) → (g.step d s).round = g.round) ∧
    (∀ s, (s = .submit → g.round.status ≠ .playing) → (g.step d s).tally = g.tally) := by
  intro g rs
  have hstart : (start d first).tally.Counts ([] ++ [(start d first).round]) :=
    (Tally.counts_append_playing_iff (Round.status_start _)).2 Tally.counts_none
  have hcounts : g.tally.Counts rs := counts_steps hstart ss
  have hbalanced : g.tally.Balanced :=
    balanced_steps (Consistent.start d first) Tally.balanced_none ss
  refine ⟨?_, hcounts.won, ?_, hbalanced.none_won_at_once, hbalanced.sum_distribution,
    hbalanced.won_le_games, fun s => round_step_of_over s, fun s => tally_step_of_over s⟩
  · rw [hcounts.games]
    refine List.countP_congr fun r _ => ?_
    cases r.status <;> simp
  · intro k _ hk
    have hlt : k < Tally.highest + 1 := Nat.lt_succ_of_le hk
    rw [Vector.getElem?_eq_getElem hlt, hcounts.distribution k hlt]

end Game

end HiddenEquation.Play
