import HiddenEquation.Proofs.Feedback.Matching
import Mathlib.Data.List.FinRange
import Mathlib.Data.List.Perm.Lattice
import Mathlib.Data.List.Zip

/-!
# Totals of feedback

How many slots of a guess are correct and how many are present.  Which slots are present depends
on the order in which occurrences are handed out, but how many does not: the characters of the
slots that are correct or present are, whatever their order, those that guess and answer have in
common.  So the totals only depend on which pairs of characters meet in a slot.

* `Feedback.claimed_perm` : the marked characters are those that both texts have in common.
* `Feedback.count_ofChars_of_perm` : the totals do not change with the order of the slots.
* `Feedback.not_all_but_one_correct` : a single slot cannot be the only one out of place.
* `Feedback.totals_of_either_side` : all this for two texts that are compared.
-/

namespace HiddenEquation

namespace Feedback

variable {guess answer : List Char} {marks : List Mark}

/-! ## Correct slots -/

/-- In how many slots guess and answer hold the same character. -/
def inPlace (guess answer : List Char) : Nat := (guess.zip answer).countP fun p => p.1 == p.2

theorem inPlace_comm (guess answer : List Char) : inPlace guess answer = inPlace answer guess := by
  rw [inPlace, inPlace, ← List.zip_swap guess answer, List.countP_map]
  refine List.countP_congr fun p _ => ?_
  rw [Function.comp_apply, Prod.fst_swap, Prod.snd_swap, BEq.comm]

theorem IsMatching.count_correct_eq (hm : IsMatching guess answer marks)
    (h : guess.length = answer.length) : marks.count .correct = inPlace guess answer := by
  have hmap := (map_eq_zipWith_iff h hm.length).2 hm.correct
  calc marks.count .correct = (marks.map (· == .correct)).countP id := by
        rw [List.countP_map]
        rfl
    _ = inPlace guess answer := by
        rw [hmap, ← List.map_uncurry_zip_eq_zipWith, List.countP_map]
        rfl

/-! ## Marked slots -/

/-- The characters of the slots that are correct or present. -/
def claimed (guess : List Char) (marks : List Mark) : List Char :=
  ((guess.zip marks).filter fun p => p.2 != .absent).map Prod.fst

theorem count_claimed (guess : List Char) (marks : List Mark) (c : Char) :
    (claimed guess marks).count c =
      (guess.zip marks).count (c, .correct) + (guess.zip marks).count (c, .present) := by
  rw [claimed]
  induction guess.zip marks with
  | nil => rfl
  | cons p slots ih =>
    obtain ⟨d, m⟩ := p
    cases m <;> by_cases hd : d = c <;> simp [ih, hd] <;> omega

theorem length_claimed (hm : marks.length = guess.length) :
    (claimed guess marks).length = marks.count .correct + marks.count .present := by
  rw [claimed, List.length_map]
  induction guess generalizing marks with
  | nil =>
    obtain rfl : marks = [] := List.eq_nil_of_length_eq_zero hm
    rfl
  | cons g gs ih =>
    obtain ⟨m, ms, rfl⟩ := List.exists_cons_of_length_eq_add_one hm
    have hih := ih (Nat.succ.inj hm)
    cases m <;> simp [hih] <;> omega

/-- **The marked characters are those that guess and answer have in common.** -/
theorem IsMatching.claimed_perm (hm : IsMatching guess answer marks) :
    (Feedback.claimed guess marks).Perm (guess.bagInter answer) := by
  rw [List.perm_iff_count]
  intro c
  rw [count_claimed, hm.claimed c, List.count_bagInter]

/-! ## Totals -/

theorem count_correct_ofChars (h : guess.length = answer.length) :
    (ofChars guess answer).count .correct = inPlace guess answer :=
  ((isMatching_iff h).2 rfl).count_correct_eq h

theorem count_marked_ofChars (h : guess.length = answer.length) :
    (ofChars guess answer).count .correct + (ofChars guess answer).count .present =
      (guess.bagInter answer).length := by
  have hm : IsMatching guess answer (ofChars guess answer).marks := (isMatching_iff h).2 rfl
  rw [← hm.claimed_perm.length_eq, length_claimed hm.length]
  rfl

/-- The totals are the same whichever of two texts is the guess. -/
theorem count_ofChars_comm (h : guess.length = answer.length) :
    (ofChars guess answer).count .correct = (ofChars answer guess).count .correct ∧
      (ofChars guess answer).count .present = (ofChars answer guess).count .present := by
  have hcorrect : (ofChars guess answer).count .correct =
      (ofChars answer guess).count .correct := by
    rw [count_correct_ofChars h, count_correct_ofChars h.symm, inPlace_comm]
  have hmarked := (List.Perm.bagInter_symm guess answer).length_eq
  rw [← count_marked_ofChars h, ← count_marked_ofChars h.symm, hcorrect] at hmarked
  exact ⟨hcorrect, Nat.add_left_cancel hmarked⟩

/-- The totals do not change with the order of the slots. -/
theorem count_ofChars_of_perm {guess' answer' : List Char} (h : guess.length = answer.length)
    (h' : guess'.length = answer'.length) (hperm : (guess.zip answer).Perm (guess'.zip answer')) :
    (ofChars guess answer).count .correct = (ofChars guess' answer').count .correct ∧
      (ofChars guess answer).count .present = (ofChars guess' answer').count .present := by
  have hguess : guess.Perm guess' := by
    have hfst := hperm.map Prod.fst
    rwa [List.map_fst_zip h.le, List.map_fst_zip h'.le] at hfst
  have hanswer : answer.Perm answer' := by
    have hsnd := hperm.map Prod.snd
    rwa [List.map_snd_zip h.ge, List.map_snd_zip h'.ge] at hsnd
  have hcorrect : (ofChars guess answer).count .correct =
      (ofChars guess' answer').count .correct := by
    rw [count_correct_ofChars h, count_correct_ofChars h', inPlace, inPlace, hperm.countP_eq]
  have hmarked := (hguess.bagInter hanswer).length_eq
  rw [← count_marked_ofChars h, ← count_marked_ofChars h', hcorrect] at hmarked
  exact ⟨hcorrect, Nat.add_left_cancel hmarked⟩

theorem zip_ofFn {n : Nat} (a b : Fin n → Char) :
    (List.ofFn a).zip (List.ofFn b) = List.ofFn fun i => (a i, b i) :=
  List.ext_getElem (by simp) fun i _ _ => by simp

/-- The totals do not change when one permutation is applied to the slots of both texts. -/
theorem count_ofChars_comp {n : Nat} (a b : Fin n → Char) (σ : Equiv.Perm (Fin n)) :
    (ofChars (List.ofFn (a ∘ σ)) (List.ofFn (b ∘ σ))).count .correct =
        (ofChars (List.ofFn a) (List.ofFn b)).count .correct ∧
      (ofChars (List.ofFn (a ∘ σ)) (List.ofFn (b ∘ σ))).count .present =
        (ofChars (List.ofFn a) (List.ofFn b)).count .present := by
  refine count_ofChars_of_perm (by simp) (by simp) ?_
  rw [zip_ofFn, zip_ofFn]
  exact σ.ofFn_comp_perm fun i => (a i, b i)

/-! ## One slot out of place -/

/-- If every occurrence is marked, guess and answer hold the same characters. -/
theorem perm_of_length_bagInter (h : guess.length = answer.length)
    (hall : (guess.bagInter answer).length = guess.length) : guess.Perm answer := by
  have hleft : guess.bagInter answer = guess := List.bagInter_sublist_left.eq_of_length hall
  have hsymm := List.Perm.bagInter_symm guess answer
  have hright : answer.bagInter guess = answer :=
    List.bagInter_sublist_left.eq_of_length (by rw [← hsymm.length_eq, hall, h])
  rwa [hleft, hright] at hsymm

/-- The slots in place bring the same characters to both sides, whatever the others do. -/
theorem exists_perm_append (slots : List (Char × Char)) :
    ∃ (cs : List Char) (others : List (Char × Char)),
      (cs ++ others.map Prod.fst).Perm (slots.map Prod.fst) ∧
      (cs ++ others.map Prod.snd).Perm (slots.map Prod.snd) ∧
      (slots.countP fun p => p.1 == p.2) + others.length = slots.length ∧
      ∀ p ∈ others, p.1 ≠ p.2 := by
  induction slots with
  | nil => exact ⟨[], [], .nil, .nil, rfl, by simp⟩
  | cons slot slots ih =>
    obtain ⟨g, a⟩ := slot
    obtain ⟨cs, others, hfst, hsnd, hlen, hne⟩ := ih
    by_cases hga : g = a
    · subst hga
      refine ⟨g :: cs, others, hfst.cons g, hsnd.cons g, ?_, hne⟩
      rw [List.countP_cons_of_pos (by simp), List.length_cons]
      omega
    · refine ⟨cs, (g, a) :: others, List.perm_middle.trans (hfst.cons g),
        List.perm_middle.trans (hsnd.cons a), ?_, List.forall_mem_cons.2 ⟨hga, hne⟩⟩
      rw [List.countP_cons_of_neg (by simpa using hga), List.length_cons, List.length_cons]
      omega

/-- If two texts hold the same characters then no slot is the only one in which they differ: the
other slots use up the same characters on both sides. -/
theorem inPlace_add_one_ne (h : guess.length = answer.length) (hperm : guess.Perm answer) :
    inPlace guess answer + 1 ≠ guess.length := by
  intro hone
  obtain ⟨cs, others, hguess, hanswer, hlen, hne⟩ := exists_perm_append (guess.zip answer)
  rw [List.map_fst_zip h.le] at hguess
  rw [List.map_snd_zip h.ge] at hanswer
  have hothers : others.length = 1 := by
    rw [List.length_zip, ← h, Nat.min_self] at hlen
    exact Nat.add_left_cancel (hlen.trans hone.symm)
  obtain ⟨⟨x, y⟩, rfl⟩ := List.length_eq_one_iff.1 hothers
  have hlast := (List.perm_append_left_iff cs).1 ((hguess.trans hperm).trans hanswer.symm)
  exact hne (x, y) List.mem_cons_self (List.singleton_perm_singleton.1 hlast)

/-- A single slot is never the only one out of place and present. -/
theorem not_all_but_one_correct (h : guess.length = answer.length) :
    ¬((ofChars guess answer).count .correct + 1 = guess.length ∧
      (ofChars guess answer).count .present = 1) := by
  rintro ⟨hcorrect, hpresent⟩
  have hmarked := count_marked_ofChars h
  rw [hpresent, hcorrect] at hmarked
  rw [count_correct_ofChars h] at hcorrect
  exact inPlace_add_one_ne h (perm_of_length_bagInter h hmarked.symm) hcorrect

/-! ## Two texts -/

/-- How many slots are correct and how many are present when one text is the guess and another is
the solution.  There is no answer if the two cannot be compared. -/
def totals? (guess answer : List Char) : Option (Nat × Nat) := do
  let solution ← Solution.ofChars? answer
  let feedback ← (compare (Guess.ofChars guess) solution).toOption
  return (feedback.count .correct, feedback.count .present)

theorem totals?_eq (h : guess.length = answer.length) (hne : answer ≠ []) :
    totals? guess answer =
      some ((ofChars (guess.map plainSign) (answer.map plainSign)).count .correct,
        (ofChars (guess.map plainSign) (answer.map plainSign)).count .present) := by
  obtain ⟨solution, hsolution⟩ := Option.ne_none_iff_exists'.1
    (fun hnone => hne (Solution.ofChars?_eq_none_iff.1 hnone))
  have hchars := Solution.chars_ofChars? hsolution
  have hcompare : compare (Guess.ofChars guess) solution =
      .ok (ofChars (guess.map plainSign) (answer.map plainSign)) := by
    rw [compare, if_pos, hchars, Guess.chars_ofChars]
    rw [Guess.length_ofChars, Solution.length, hchars, List.length_map, h]
  rw [totals?, hsolution]
  simp only [Option.bind_eq_bind, Option.bind_some, hcompare]
  rfl

theorem totals?_ofFn {n : Nat} (a b : Fin (n + 1) → Char) :
    totals? (List.ofFn a) (List.ofFn b) =
      some ((ofChars (List.ofFn (plainSign ∘ a)) (List.ofFn (plainSign ∘ b))).count .correct,
        (ofChars (List.ofFn (plainSign ∘ a)) (List.ofFn (plainSign ∘ b))).count .present) := by
  rw [totals?_eq (by simp) (by simp), List.map_ofFn, List.map_ofFn]

/-- **Totals do not depend on the side nor on the order.**  Any two texts of one length that are not
empty can be compared.  Whichever of them is the guess, and whatever one permutation does to the
slots of both, equally many slots are correct and equally many present; and if all slots but one are
correct then the last one is not present. -/
theorem totals_of_either_side {n : Nat} (a b : Fin (n + 1) → Char) :
    ∃ c p, totals? (List.ofFn a) (List.ofFn b) = some (c, p) ∧
      totals? (List.ofFn b) (List.ofFn a) = some (c, p) ∧
      (∀ σ : Equiv.Perm (Fin (n + 1)),
        totals? (List.ofFn (a ∘ σ)) (List.ofFn (b ∘ σ)) = some (c, p)) ∧
      ¬(c = n ∧ p = 1) := by
  have hlen : ∀ f g : Fin (n + 1) → Char, (List.ofFn f).length = (List.ofFn g).length :=
    fun f g => by rw [List.length_ofFn, List.length_ofFn]
  refine ⟨_, _, totals?_ofFn a b, ?_, fun σ => ?_, ?_⟩
  · obtain ⟨hcorrect, hpresent⟩ := count_ofChars_comm (hlen (plainSign ∘ a) (plainSign ∘ b))
    rw [totals?_ofFn, hcorrect, hpresent]
  · obtain ⟨hcorrect, hpresent⟩ := count_ofChars_comp (plainSign ∘ a) (plainSign ∘ b) σ
    rw [Function.comp_assoc, Function.comp_assoc] at hcorrect hpresent
    rw [totals?_ofFn, hcorrect, hpresent]
  · have hone := not_all_but_one_correct (hlen (plainSign ∘ a) (plainSign ∘ b))
    rwa [List.length_ofFn, Nat.succ_inj] at hone

end Feedback

end HiddenEquation
