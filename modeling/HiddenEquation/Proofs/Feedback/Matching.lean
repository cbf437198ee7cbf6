import HiddenEquation.Feedback
import Mathlib.Data.List.Basic

/-!
# Feedback as a matching

What the marks of a guess say, without the order in which occurrences are handed out.
`Feedback.IsMatching` lists the conditions: slots in place are correct, each character is
marked as often as guess and answer both hold it, and of the slots that hold one character
the first ones are marked.  `Feedback.Continues` is the same for what is left of a
comparison, relative to the occurrences that are left, and goes through slot by slot.

* `Feedback.continues_iff` : the marks of the rest of a guess are those handed out.
* `Feedback.isMatching_iff` : the marks of a guess are the only matching.
* `Feedback.compare_isMatching` : what a comparison returns, for all lengths.
-/

namespace HiddenEquation

namespace Feedback

/-- The marks of a guess against an answer of the same length. -/
structure IsMatching (guess answer : List Char) (marks : List Mark) : Prop where
  /-- There is one mark to a slot. -/
  length : marks.length = guess.length
  /-- A slot is correct exactly if guess and answer agree in it. -/
  correct : ∀ i < guess.length, marks[i]? = some .correct ↔ guess[i]? = answer[i]?
  /-- As many slots with a character are marked as guess and answer both hold it. -/
  claimed : ∀ c, (guess.zip marks).count (c, .correct) + (guess.zip marks).count (c, .present) =
    min (guess.count c) (answer.count c)
  /-- Of the slots that are not in place and hold one character the first ones are marked. -/
  order : ∀ i j : Nat, marks[i]? = some .present → marks[j]? = some .absent →
    guess[i]? = guess[j]? → i < j

/-- The marks of the rest of a guess, when `pool` holds the occurrences that are left. -/
structure Continues (pool guess answer : List Char) (marks : List Mark) : Prop where
  correct : marks.map (· == .correct) = guess.zipWith (· == ·) answer
  present : ∀ c, (guess.zip answer).count (c, c) + (guess.zip marks).count (c, .present) =
    min (guess.count c) ((guess.zip answer).count (c, c) + pool.count c)
  order : (guess.zip marks).Pairwise fun x y => x.1 = y.1 → x.2 = .absent → y.2 ≠ .present

/-! ## One slot -/

/-- A character is in place at most as often as the guess holds it. -/
theorem count_zip_self_le (c : Char) (guess answer : List Char) :
    (guess.zip answer).count (c, c) ≤ guess.count c := by
  induction guess generalizing answer with
  | nil => simp
  | cons g gs ih =>
    cases answer with
    | nil => simp
    | cons a as =>
      have hih := ih as
      rw [List.zip_cons_cons, List.count_cons, List.count_cons]
      by_cases hg : g = c
      · subst hg
        by_cases ha : a = g
        · subst ha; simpa using hih
        · simp only [beq_iff_eq, Prod.mk.injEq, ha, and_false, if_false, beq_self_eq_true, if_true]
          omega
      · simpa [hg] using hih

theorem continues_nil (pool : List Char) : Continues pool [] [] [] :=
  ⟨rfl, fun c => by simp, List.Pairwise.nil⟩

/-- A slot in place takes nothing from the pool. -/
theorem continues_cons_same {pool gs as : List Char} {c : Char} {m : Mark} {ms : List Mark} :
    Continues pool (c :: gs) (c :: as) (m :: ms) ↔ m = .correct ∧ Continues pool gs as ms := by
  constructor
  · rintro ⟨hcorrect, hpresent, horder⟩
    simp only [List.map_cons, List.zipWith_cons_cons, List.cons.injEq, beq_self_eq_true,
      beq_iff_eq] at hcorrect
    obtain ⟨rfl, hcorrect⟩ := hcorrect
    refine ⟨rfl, hcorrect, fun d => ?_, (List.pairwise_cons.1 horder).2⟩
    have hd := hpresent d
    by_cases hcd : c = d
    · subst hcd
      simp at hd
      omega
    · simpa [List.count_cons, hcd] using hd
  · rintro ⟨rfl, hcorrect, hpresent, horder⟩
    refine ⟨by simp [hcorrect], fun d => ?_, List.pairwise_cons.2 ⟨?_, horder⟩⟩
    · have hd := hpresent d
      by_cases hcd : c = d
      · subst hcd
        simp
        omega
      · simpa [List.count_cons, hcd] using hd
    · intro x _ _ habsent
      cases habsent

theorem count_zip_cons_of_ne {g a : Char} (h : g ≠ a) (gs as : List Char) (c : Char) :
    ((g :: gs).zip (a :: as)).count (c, c) = (gs.zip as).count (c, c) := by
  rw [List.zip_cons_cons, List.count_cons_of_ne]
  rintro heq
  obtain ⟨rfl, rfl⟩ := Prod.mk.inj heq
  exact h rfl

/-- What the conditions on all slots say of a first slot that is not in place. -/
theorem continues_cons_ne {pool gs as : List Char} {g a : Char} {m : Mark} {ms : List Mark}
    (hga : g ≠ a) : Continues pool (g :: gs) (a :: as) (m :: ms) ↔
      m ≠ .correct ∧ (m = .absent → (g, .present) ∉ gs.zip ms) ∧
      ms.map (· == .correct) = gs.zipWith (· == ·) as ∧
      (∀ c, (gs.zip as).count (c, c) + ((g, m) :: gs.zip ms).count (c, .present) =
        min ((g :: gs).count c) ((gs.zip as).count (c, c) + pool.count c)) ∧
      (gs.zip ms).Pairwise fun x y => x.1 = y.1 → x.2 = .absent → y.2 ≠ .present := by
  constructor
  · rintro ⟨hcorrect, hpresent, horder⟩
    simp only [List.map_cons, List.zipWith_cons_cons, List.cons.injEq] at hcorrect
    obtain ⟨hm, hcorrect⟩ := hcorrect
    obtain ⟨hhead, htail⟩ := List.pairwise_cons.1 horder
    refine ⟨?_, fun habsent hmem => hhead _ hmem rfl habsent rfl, hcorrect, fun c => ?_, htail⟩
    · rintro rfl
      simp [hga] at hm
    · have hc := hpresent c
      rwa [count_zip_cons_of_ne hga, List.zip_cons_cons] at hc
  · rintro ⟨hm, habsent, hcorrect, hpresent, horder⟩
    refine ⟨by simp [hcorrect, hga, hm], fun c => ?_, List.pairwise_cons.2 ⟨?_, horder⟩⟩
    · rw [count_zip_cons_of_ne hga, List.zip_cons_cons]
      exact hpresent c
    · rintro ⟨d, m'⟩ hmem rfl hm' rfl
      exact habsent hm' hmem

/-- A slot that is not in place takes an occurrence from the pool if there is one.  Were it
absent, the next slot with the character could not be present either. -/
theorem continues_cons_mem {pool gs as : List Char} {g a : Char} {m : Mark} {ms : List Mark}
    (hga : g ≠ a) (hmem : g ∈ pool) : Continues pool (g :: gs) (a :: as) (m :: ms) ↔
      m = .present ∧ Continues (pool.erase g) gs as ms := by
  have hpos : 0 < pool.count g := List.count_pos_iff.2 hmem
  have hle := count_zip_self_le g gs as
  -- The slot and the occurrence that it takes are both of one character.
  have hcount : ∀ c, (gs.zip as).count (c, c) + ((g, .present) :: gs.zip ms).count (c, .present) =
        min ((g :: gs).count c) ((gs.zip as).count (c, c) + pool.count c) ↔
      (gs.zip as).count (c, c) + (gs.zip ms).count (c, .present) =
        min (gs.count c) ((gs.zip as).count (c, c) + (pool.erase g).count c) := by
    intro c
    by_cases hgc : g = c
    · subst hgc
      rw [List.count_cons_self, List.count_cons_self, List.count_erase_self]
      omega
    · rw [List.count_cons_of_ne (by simp [hgc]), List.count_cons_of_ne hgc,
        List.count_erase_of_ne (Ne.symm hgc)]
  rw [continues_cons_ne hga]
  constructor
  · rintro ⟨hm, habsent, hcorrect, hpresent, horder⟩
    cases m with
    | correct => exact absurd rfl hm
    | absent =>
      have hnone := List.count_eq_zero.2 (habsent rfl)
      have hg := hpresent g
      rw [List.count_cons_of_ne (by simp), List.count_cons_self, hnone] at hg
      omega
    | present => exact ⟨rfl, hcorrect, fun c => (hcount c).1 (hpresent c), horder⟩
  · rintro ⟨rfl, hcorrect, hpresent, horder⟩
    exact ⟨by decide, by simp, hcorrect, fun c => (hcount c).2 (hpresent c), horder⟩

/-- A slot that is not in place is absent if no occurrence is left, and so are all later
slots with its character. -/
theorem continues_cons_not_mem {pool gs as : List Char} {g a : Char} {m : Mark}
    {ms : List Mark} (hga : g ≠ a) (hmem : g ∉ pool) :
    Continues pool (g :: gs) (a :: as) (m :: ms) ↔ m = .absent ∧ Continues pool gs as ms := by
  have hzero : pool.count g = 0 := List.count_eq_zero.2 hmem
  have hle := count_zip_self_le g gs as
  -- All slots in place are counted already, so one slot more does not raise the minimum.
  have hcount : ∀ c, (gs.zip as).count (c, c) + ((g, .absent) :: gs.zip ms).count (c, .present) =
        min ((g :: gs).count c) ((gs.zip as).count (c, c) + pool.count c) ↔
      (gs.zip as).count (c, c) + (gs.zip ms).count (c, .present) =
        min (gs.count c) ((gs.zip as).count (c, c) + pool.count c) := by
    intro c
    rw [List.count_cons_of_ne (by simp)]
    by_cases hgc : g = c
    · subst hgc
      rw [List.count_cons_self]
      omega
    · rw [List.count_cons_of_ne hgc]
  rw [continues_cons_ne hga]
  constructor
  · rintro ⟨hm, -, hcorrect, hpresent, horder⟩
    cases m with
    | correct => exact absurd rfl hm
    | present =>
      have hg := hpresent g
      rw [List.count_cons_self, List.count_cons_self] at hg
      omega
    | absent => exact ⟨rfl, hcorrect, fun c => (hcount c).1 (hpresent c), horder⟩
  · rintro ⟨rfl, hcorrect, hpresent, horder⟩
    refine ⟨by decide, fun _ hpresent' => ?_, hcorrect, fun c => (hcount c).2 (hpresent c), horder⟩
    have hpos : 0 < (gs.zip ms).count (g, .present) := List.count_pos_iff.2 hpresent'
    have hg := hpresent g
    omega

/-! ## The whole guess -/

/-- The marks of the rest of a guess are those that are handed out. -/
theorem continues_iff {pool guess answer : List Char} {marks : List Mark}
    (h : guess.length = answer.length) (hm : marks.length = guess.length) :
    Continues pool guess answer marks ↔ marks = marksFrom pool guess answer := by
  induction guess generalizing pool answer marks with
  | nil =>
    obtain rfl : answer = [] := List.eq_nil_of_length_eq_zero h.symm
    obtain rfl : marks = [] := List.eq_nil_of_length_eq_zero hm
    exact iff_of_true (continues_nil pool) rfl
  | cons g gs ih =>
    obtain ⟨a, as, rfl⟩ := List.exists_cons_of_length_eq_add_one h.symm
    obtain ⟨m, ms, rfl⟩ := List.exists_cons_of_length_eq_add_one hm
    have hlen : gs.length = as.length := Nat.succ.inj h
    have hlenm : ms.length = gs.length := Nat.succ.inj hm
    by_cases hga : g = a
    · subst hga
      rw [continues_cons_same, ih hlen hlenm, marksFrom, if_pos rfl, List.cons.injEq]
    · by_cases hmem : g ∈ pool
      · rw [continues_cons_mem hga hmem, ih hlen hlenm, marksFrom, if_neg hga, if_pos hmem,
          List.cons.injEq]
      · rw [continues_cons_not_mem hga hmem, ih hlen hlenm, marksFrom, if_neg hga, if_neg hmem,
          List.cons.injEq]

/-- The occurrences in the answer are those in place and those that are left. -/
theorem count_unclaimed {guess answer : List Char} (h : guess.length = answer.length) (c : Char) :
    (guess.zip answer).count (c, c) + (unclaimed guess answer).count c = answer.count c := by
  induction guess generalizing answer with
  | nil =>
    obtain rfl : answer = [] := List.eq_nil_of_length_eq_zero h.symm
    rfl
  | cons g gs ih =>
    obtain ⟨a, as, rfl⟩ := List.exists_cons_of_length_eq_add_one h.symm
    have hih := ih (Nat.succ.inj h)
    rw [unclaimed]
    by_cases hga : g = a
    · subst hga
      rw [if_pos rfl, List.zip_cons_cons]
      by_cases hgc : g = c
      · subst hgc
        rw [List.count_cons_self, List.count_cons_self]
        omega
      · rw [List.count_cons_of_ne (by simp [hgc]), List.count_cons_of_ne hgc]
        exact hih
    · rw [if_neg hga, count_zip_cons_of_ne hga, List.count_cons, List.count_cons]
      omega

/-! ## The conditions slot by slot -/

theorem map_eq_zipWith_iff {guess answer : List Char} {marks : List Mark}
    (h : guess.length = answer.length) (hm : marks.length = guess.length) :
    marks.map (· == .correct) = guess.zipWith (· == ·) answer ↔
      ∀ i < guess.length, marks[i]? = some .correct ↔ guess[i]? = answer[i]? := by
  constructor
  · intro heq i hi
    have hi' : (marks.map (· == .correct))[i]? = (guess.zipWith (· == ·) answer)[i]? := by
      rw [heq]
    have him : i < marks.length := by omega
    have hia : i < answer.length := by omega
    rw [List.getElem?_map, List.getElem?_zipWith, List.getElem?_eq_getElem him,
      List.getElem?_eq_getElem hi, List.getElem?_eq_getElem hia] at hi'
    simp only [Option.map_some, Option.some.injEq] at hi'
    rw [List.getElem?_eq_getElem him, List.getElem?_eq_getElem hi, List.getElem?_eq_getElem hia,
      Option.some.injEq, Option.some.injEq, ← beq_iff_eq, hi', beq_iff_eq]
  · intro hcorrect
    refine List.ext_getElem (by simp [hm, h]) fun i hi₁ hi₂ => ?_
    have him : i < marks.length := by simpa using hi₁
    have hig : i < guess.length := by omega
    have hia : i < answer.length := by omega
    have hi := hcorrect i hig
    rw [List.getElem?_eq_getElem him, List.getElem?_eq_getElem hig, List.getElem?_eq_getElem hia,
      Option.some.injEq, Option.some.injEq] at hi
    rw [List.getElem_map, List.getElem_zipWith, Bool.eq_iff_iff, beq_iff_eq, beq_iff_eq]
    exact hi

/-- The correct slots with a character are those in which guess and answer both hold it. -/
theorem count_correct {guess answer : List Char} {marks : List Mark}
    (h : guess.length = answer.length) (hm : marks.length = guess.length)
    (hcorrect : marks.map (· == .correct) = guess.zipWith (· == ·) answer) (c : Char) :
    (guess.zip marks).count (c, .correct) = (guess.zip answer).count (c, c) := by
  induction guess generalizing answer marks with
  | nil => simp
  | cons g gs ih =>
    obtain ⟨a, as, rfl⟩ := List.exists_cons_of_length_eq_add_one h.symm
    obtain ⟨m, ms, rfl⟩ := List.exists_cons_of_length_eq_add_one hm
    simp only [List.map_cons, List.zipWith_cons_cons, List.cons.injEq] at hcorrect
    obtain ⟨hhead, htail⟩ := hcorrect
    have hih := ih (Nat.succ.inj h) (Nat.succ.inj hm) htail
    have hiff : (g, m) = (c, Mark.correct) ↔ (g, a) = (c, c) := by
      rw [Bool.eq_iff_iff, beq_iff_eq, beq_iff_eq] at hhead
      rw [Prod.mk.injEq, Prod.mk.injEq, hhead]
      constructor
      · rintro ⟨rfl, rfl⟩; exact ⟨rfl, rfl⟩
      · rintro ⟨rfl, rfl⟩; exact ⟨rfl, rfl⟩
    rw [List.zip_cons_cons, List.zip_cons_cons, List.count_cons, List.count_cons, hih]
    simp only [beq_iff_eq, hiff]

theorem pairwise_iff_order {guess : List Char} {marks : List Mark}
    (hm : marks.length = guess.length) :
    ((guess.zip marks).Pairwise fun x y => x.1 = y.1 → x.2 = .absent → y.2 ≠ .present) ↔
      ∀ i j : Nat, marks[i]? = some .present → marks[j]? = some .absent →
        guess[i]? = guess[j]? → i < j := by
  rw [List.pairwise_iff_getElem]
  constructor
  · intro hpair i j hi hj hc
    obtain ⟨him, hi⟩ := List.getElem?_eq_some_iff.1 hi
    obtain ⟨hjm, hj⟩ := List.getElem?_eq_some_iff.1 hj
    by_contra hij
    rcases Nat.lt_or_eq_of_le (Nat.le_of_not_lt hij) with hlt | rfl
    · have hig : i < guess.length := by omega
      have hjg : j < guess.length := by omega
      rw [List.getElem?_eq_getElem hig, List.getElem?_eq_getElem hjg, Option.some.injEq] at hc
      have := hpair j i (by simp; omega) (by simp; omega) hlt
      rw [List.getElem_zip, List.getElem_zip] at this
      exact this hc.symm hj hi
    · rw [hi] at hj
      cases hj
  · intro horder i j hi hj hij
    rw [List.getElem_zip, List.getElem_zip]
    rw [List.length_zip] at hi hj
    intro hc habsent hpresent
    dsimp only at hc habsent hpresent
    have him : i < marks.length := by omega
    have hjm : j < marks.length := by omega
    have hji := horder j i (by rw [List.getElem?_eq_getElem hjm, hpresent])
      (by rw [List.getElem?_eq_getElem him, habsent])
      (by rw [List.getElem?_eq_getElem (by omega), List.getElem?_eq_getElem (by omega), hc])
    omega

theorem isMatching_iff_continues {guess answer : List Char} {marks : List Mark}
    (h : guess.length = answer.length) : IsMatching guess answer marks ↔
      marks.length = guess.length ∧ Continues (unclaimed guess answer) guess answer marks := by
  constructor
  · rintro ⟨hm, hcorrect, hclaimed, horder⟩
    have hmap := (map_eq_zipWith_iff h hm).2 hcorrect
    refine ⟨hm, hmap, fun c => ?_, (pairwise_iff_order hm).2 horder⟩
    rw [count_unclaimed h, ← count_correct h hm hmap]
    exact hclaimed c
  · rintro ⟨hm, hmap, hpresent, horder⟩
    refine ⟨hm, (map_eq_zipWith_iff h hm).1 hmap, fun c => ?_, (pairwise_iff_order hm).1 horder⟩
    rw [count_correct h hm hmap, hpresent c, count_unclaimed h]

/-- The marks of a guess are the only matching of it. -/
theorem isMatching_iff {guess answer : List Char} {marks : List Mark}
    (h : guess.length = answer.length) :
    IsMatching guess answer marks ↔ marks = (ofChars guess answer).marks := by
  rw [isMatching_iff_continues h]
  constructor
  · rintro ⟨hm, hcontinues⟩
    exact (continues_iff h hm).1 hcontinues
  · rintro rfl
    have hm : (ofChars guess answer).marks.length = guess.length := length_ofChars h
    exact ⟨hm, (continues_iff h hm).2 rfl⟩

/-- All slots are correct exactly if guess and answer are equal. -/
theorem IsMatching.forall_correct_iff {guess answer : List Char} {marks : List Mark}
    (h : guess.length = answer.length) (hm : IsMatching guess answer marks) :
    (∀ m ∈ marks, m = .correct) ↔ guess = answer := by
  constructor
  · intro hall
    refine List.ext_getElem? fun i => ?_
    by_cases hi : i < guess.length
    · have him : i < marks.length := by rw [hm.length]; exact hi
      refine (hm.correct i hi).1 ?_
      rw [List.getElem?_eq_getElem him, hall _ (List.getElem_mem him)]
    · rw [List.getElem?_eq_none (by omega), List.getElem?_eq_none (by omega)]
  · rintro rfl m hmem
    obtain ⟨i, hi, rfl⟩ := List.getElem_of_mem hmem
    have hcorrect := (hm.correct i (by rw [← hm.length]; exact hi)).2 rfl
    rw [List.getElem?_eq_getElem hi] at hcorrect
    exact Option.some.inj hcorrect

/-- **Comparison is the matching.**  Where the lengths agree a comparison returns the only
matching of guess and solution; where they differ it returns both lengths. -/
theorem compare_isMatching (g : Guess) (s : Solution) :
    (g.length = s.length → ∃ f, compare g s = .ok f ∧ IsMatching g.chars s.chars f.marks ∧
      ∀ marks, IsMatching g.chars s.chars marks → marks = f.marks) ∧
    (g.length ≠ s.length → compare g s = .error ⟨s.length, g.length⟩) := by
  constructor
  · intro h
    have hlen : g.chars.length = s.chars.length := h
    refine ⟨ofChars g.chars s.chars, if_pos h, (isMatching_iff hlen).2 rfl, ?_⟩
    intro marks hmarks
    exact (isMatching_iff hlen).1 hmarks
  · intro h
    exact if_neg h

end Feedback

end HiddenEquation
