import HiddenEquation.Decimal.Style

/-!
# The tally of finished rounds

How many rounds were finished, how many of them were won, and how many with each number of
attempts.  The three figures are kept side by side; that they agree with each other and with
the rounds that were played is a matter of the game that keeps them.
-/

namespace HiddenEquation.Play

namespace Tally

/-- The highest number of attempts of which the rounds are counted. -/
def highest : Nat := 6

end Tally

/-- The rounds that came to an end. -/
structure Tally where
  /-- The rounds finished, won or lost. -/
  games : Nat
  /-- The rounds won. -/
  won : Nat
  /-- The rounds won with 0, 1, 2, … attempts. -/
  distribution : Vector Nat (Tally.highest + 1)
deriving DecidableEq, Repr

namespace Tally

/-- No round is finished yet. -/
def none : Tally := ⟨0, 0, .replicate _ 0⟩

/-- One more round won, with so many attempts.  A number of attempts beyond the highest has no
place in the distribution. -/
def addWin (t : Tally) (attempts : Nat) : Tally where
  games := t.games + 1
  won := t.won + 1
  distribution :=
    if h : attempts ≤ highest then
      t.distribution.set attempts (t.distribution[attempts] + 1)
    else t.distribution

/-- One more round lost. -/
def addLoss (t : Tally) : Tally := { t with games := t.games + 1 }

/-- The number of rounds won with exactly so many attempts. -/
def wonIn (t : Tally) (attempts : Nat) : Nat := t.distribution[attempts]?.getD 0

/-- The share of rounds won, in percent. -/
def winRate (t : Tally) : Float :=
  if t.games = 0 then 0 else Float.ofNat t.won / Float.ofNat t.games * 100

/-- The most rounds won with any one number of attempts, at least one. -/
def peak (t : Tally) : Nat := max 1 (t.distribution.foldl max 0)

theorem peak_pos (t : Tally) : 0 < t.peak := Nat.le_max_left 1 _

@[simp] theorem games_addWin (t : Tally) (n : Nat) : (t.addWin n).games = t.games + 1 := rfl

@[simp] theorem won_addWin (t : Tally) (n : Nat) : (t.addWin n).won = t.won + 1 := rfl

@[simp] theorem games_addLoss (t : Tally) : t.addLoss.games = t.games + 1 := rfl

@[simp] theorem won_addLoss (t : Tally) : t.addLoss.won = t.won := rfl

@[simp] theorem distribution_addLoss (t : Tally) : t.addLoss.distribution = t.distribution := rfl

@[simp] theorem getElem_distribution_none {k : Nat} (hk : k < highest + 1) :
    none.distribution[k] = 0 := Vector.getElem_replicate hk

/-- Winning with `n` attempts adds one at the place `n`, if there is one. -/
theorem getElem_distribution_addWin (t : Tally) (n : Nat) {k : Nat} (hk : k < highest + 1) :
    (t.addWin n).distribution[k] = t.distribution[k] + if n = k then 1 else 0 := by
  unfold addWin
  dsimp only
  split
  · rw [Vector.getElem_set]
    split
    · rename_i hnk
      subst hnk
      rfl
    · rfl
  · rename_i hn
    have hne : n ≠ k := by omega
    rw [if_neg hne]
    exact (Nat.add_zero _).symm

end Tally

end HiddenEquation.Play
