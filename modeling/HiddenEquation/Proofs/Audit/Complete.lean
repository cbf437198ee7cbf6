import HiddenEquation.CommandLine.Outcome
import HiddenEquation.Proofs.Audit.Winnable
import Mathlib.Algebra.GroupWithZero.Nat
import Mathlib.Data.Int.Order.Basic
import Mathlib.Data.List.Nodup
import Mathlib.Data.List.Perm.Basic
import Mathlib.Order.Lattice
import Mathlib.Tactic.SplitIfs

/-!
# What a report holds

Puzzles may be audited in any order.  The failures are sorted by target in the end, and as no two
puzzles of a book have one target, there is only one way to sort them; the difficulties are counted
puzzle by puzzle, and it makes no difference which of two puzzles is counted first.
`AuditReport.Accounts` says what the one report that comes out tells of the book.

* `Audit.report_eq_of_perm` : the order of work does not matter.
* `Audit.mem_failures_iff`, `Audit.pairwise_failures` : which failures are listed, and how.
* `Audit.lookup_countUp`, `Audit.lookup_byDifficulty` : what counting one puzzle changes, and what
  the counts are in the end.
* `Book.accounts_audit` : what the report on a book tells of it.
-/

namespace HiddenEquation

namespace Audit

/-! ## Sorting by a key -/

section

variable {α κ : Type} [LinearOrder κ] (key : α → κ) {l l' : List α}

theorem pairwise_sort (l : List α) :
    (l.mergeSort fun a b => decide (key a ≤ key b)).Pairwise fun a b => key a ≤ key b := by
  have htrans (a b c : α) (hab : decide (key a ≤ key b) = true)
      (hbc : decide (key b ≤ key c) = true) : decide (key a ≤ key c) = true :=
    decide_eq_true ((of_decide_eq_true hab).trans (of_decide_eq_true hbc))
  have htotal (a b : α) : (decide (key a ≤ key b) || decide (key b ≤ key a)) = true := by
    simpa using le_total (key a) (key b)
  refine (List.pairwise_mergeSort htrans htotal l).imp ?_
  intro a b hab
  exact of_decide_eq_true hab

/-- Where no two elements have one key, there is only one way to sort them. -/
theorem sort_eq_of_perm (h : l.Perm l') (hkey : ∀ a ∈ l', ∀ b ∈ l', key a = key b → a = b) :
    (l.mergeSort fun a b => decide (key a ≤ key b)) =
      l'.mergeSort fun a b => decide (key a ≤ key b) := by
  have hperm := (List.mergeSort_perm l fun a b => decide (key a ≤ key b)).trans
    (h.trans (List.mergeSort_perm l' fun a b => decide (key a ≤ key b)).symm)
  refine hperm.eq_of_pairwise ?_ (pairwise_sort key l) (pairwise_sort key l')
  intro a b ha hb hab hba
  have ha' : a ∈ l' := (List.mergeSort_perm l' _).mem_iff.1 (hperm.mem_iff.1 ha)
  have hb' : b ∈ l' := (List.mergeSort_perm l' _).mem_iff.1 hb
  exact hkey a ha' b hb' (le_antisymm hab hba)

end

variable {ps qs : List Puzzle} {p : Puzzle}

/-! ## Failures -/

theorem failure?_eq_some_iff {x : AuditFailure} :
    failure? p = some x ↔ ∃ f, p.audit = .error f ∧ x = ⟨p.target, p.solution.text, f.message⟩ := by
  rw [failure?]
  cases p.audit with
  | ok u => simp
  | error f => simp [eq_comm]

theorem perm_failures (ps : List Puzzle) : (report ps).failures.Perm (ps.filterMap failure?) :=
  List.mergeSort_perm _ _

/-- A failure is listed exactly if it is that of a puzzle that fails. -/
theorem mem_failures_iff {x : AuditFailure} : x ∈ (report ps).failures ↔
    ∃ p ∈ ps, ∃ f, p.audit = .error f ∧ x = ⟨p.target, p.solution.text, f.message⟩ := by
  rw [(perm_failures ps).mem_iff, List.mem_filterMap]
  simp only [failure?_eq_some_iff]

/-- The targets of the failures are among those of the puzzles, in their order. -/
theorem sublist_targets (ps : List Puzzle) :
    ((ps.filterMap failure?).map (·.target)).Sublist (ps.map (·.target)) := by
  induction ps with
  | nil => exact List.Sublist.slnil
  | cons p ps ih =>
    rw [List.filterMap_cons, List.map_cons]
    cases hp : failure? p with
    | none => exact ih.cons p.target
    | some x =>
      obtain ⟨f, -, rfl⟩ := failure?_eq_some_iff.1 hp
      exact ih.cons_cons p.target

/-- No two failures have one target. -/
theorem nodup_targets (h : (ps.map (·.target)).Nodup) :
    ((report ps).failures.map (·.target)).Nodup :=
  ((perm_failures ps).map _).nodup_iff.2 (h.sublist (sublist_targets ps))

theorem pairwise_failures_le (ps : List Puzzle) :
    (report ps).failures.Pairwise fun x y => x.target.toInt ≤ y.target.toInt :=
  pairwise_sort (·.target.toInt) (ps.filterMap failure?)

/-- The failures are in strictly ascending order of their targets. -/
theorem pairwise_failures (h : (ps.map (·.target)).Nodup) :
    (report ps).failures.Pairwise fun x y => x.target < y.target := by
  have hne : (report ps).failures.Pairwise fun x y => x.target ≠ y.target :=
    List.pairwise_map.1 (nodup_targets h)
  refine (hne.and (pairwise_failures_le ps)).imp ?_
  rintro x y ⟨hxy, hle⟩
  rw [Int64.lt_iff_toInt_lt]
  exact lt_of_le_of_ne hle fun heq => hxy (Int64.toInt_inj.1 heq)

/-- There are at most as many failures as puzzles. -/
theorem length_failures_le (ps : List Puzzle) : (report ps).failures.length ≤ ps.length := by
  rw [(perm_failures ps).length_eq]
  exact List.length_filterMap_le failure? ps

/-! ## Difficulties

The counts are kept in ascending order of the difficulties, as `Pairwise` says; counting one more
puzzle keeps that order and changes one count. -/

section

variable {counts : List (UInt8 × Nat)} {entry : UInt8 × Nat} {d : UInt8}

/-- Counting a puzzle adds no difficulty but its own. -/
theorem fst_of_mem_countUp (h : entry ∈ countUp d counts) :
    entry.1 = d ∨ ∃ old ∈ counts, old.1 = entry.1 := by
  induction counts with
  | nil => exact .inl (congrArg Prod.fst (List.mem_singleton.1 h))
  | cons head counts ih =>
    obtain ⟨e, n⟩ := head
    rw [countUp] at h
    split_ifs at h with hlt heq
    · rcases List.mem_cons.1 h with rfl | h
      · exact .inl rfl
      · exact .inr ⟨entry, h, rfl⟩
    · rcases List.mem_cons.1 h with rfl | h
      · exact .inl heq.symm
      · exact .inr ⟨entry, List.mem_cons_of_mem _ h, rfl⟩
    · rcases List.mem_cons.1 h with rfl | h
      · exact .inr ⟨(e, n), List.mem_cons_self, rfl⟩
      · exact (ih h).imp_right fun ⟨old, hold, hfst⟩ => ⟨old, List.mem_cons_of_mem _ hold, hfst⟩

/-- Counting a puzzle keeps the ascending order. -/
theorem pairwise_countUp (h : counts.Pairwise fun x y => x.1 < y.1) (d : UInt8) :
    (countUp d counts).Pairwise fun x y => x.1 < y.1 := by
  induction counts with
  | nil => exact List.pairwise_singleton _ _
  | cons head counts ih =>
    obtain ⟨e, n⟩ := head
    obtain ⟨hhead, hrest⟩ := List.pairwise_cons.1 h
    rw [countUp]
    split_ifs with hlt heq
    · refine List.pairwise_cons.2 ⟨fun y hy => ?_, h⟩
      rcases List.mem_cons.1 hy with rfl | hy
      · exact hlt
      · exact UInt8.lt_trans hlt (hhead y hy)
    · exact List.pairwise_cons.2 ⟨hhead, hrest⟩
    · refine List.pairwise_cons.2 ⟨fun y hy => ?_, ih hrest⟩
      rcases fst_of_mem_countUp hy with hd | ⟨old, hold, hfst⟩
      · exact hd ▸ UInt8.lt_of_le_of_ne (UInt8.not_lt.1 hlt) (Ne.symm heq)
      · exact hfst ▸ hhead old hold

/-- A difficulty below all that are there is not among them. -/
theorem lookup_eq_none_of_lt (h : ∀ x ∈ counts, d < x.1) : counts.lookup d = none := by
  rw [List.lookup_eq_none_iff]
  intro x hx
  exact bne_iff_ne.2 (UInt8.ne_of_lt (h x hx))

/-- **One step.**  The count of the difficulty goes up by one, from nothing if it was not there, and
the other counts stay. -/
theorem lookup_countUp (h : counts.Pairwise fun x y => x.1 < y.1) (d e : UInt8) :
    (countUp d counts).lookup e =
      if e = d then some ((counts.lookup d).getD 0 + 1) else counts.lookup e := by
  induction counts with
  | nil =>
    rw [countUp, List.lookup_cons]
    grind
  | cons head counts ih =>
    obtain ⟨c, n⟩ := head
    obtain ⟨hhead, hrest⟩ := List.pairwise_cons.1 h
    by_cases hlt : d < c
    · -- It comes first, and what is behind cannot have been its count.
      have hnew : ((c, n) :: counts).lookup d = none := by
        refine lookup_eq_none_of_lt fun x hx => ?_
        rcases List.mem_cons.1 hx with rfl | hx
        · exact hlt
        · exact UInt8.lt_trans hlt (hhead x hx)
      rw [countUp, if_pos hlt, List.lookup_cons, hnew]
      grind
    · by_cases heq : d = c
      · rw [countUp, if_neg hlt, if_pos heq]
        simp only [List.lookup_cons]
        grind
      · rw [countUp, if_neg hlt, if_neg heq]
        simp only [List.lookup_cons, ih hrest]
        grind

/-- Counting a puzzle adds one to the sum of the counts. -/
theorem sum_countUp (d : UInt8) (counts : List (UInt8 × Nat)) :
    ((countUp d counts).map Prod.snd).sum = (counts.map Prod.snd).sum + 1 := by
  induction counts with
  | nil => rfl
  | cons head counts ih =>
    rw [countUp]
    split_ifs <;> simp only [List.map_cons, List.sum_cons, ih] <;> omega

/-- Which of two puzzles is counted first makes no difference. -/
theorem countUp_comm (d e : UInt8) (counts : List (UInt8 × Nat)) :
    countUp d (countUp e counts) = countUp e (countUp d counts) := by
  induction counts with
  | nil => grind [countUp, UInt8.lt_iff_toNat_lt, UInt8.toNat_inj]
  | cons head counts ih =>
    -- The two are compared with the head, and the rest matters only if both come after it.
    obtain ⟨c, n⟩ := head
    grind [countUp, UInt8.lt_iff_toNat_lt, UInt8.toNat_inj]

end

theorem byDifficulty_concat (ps : List Puzzle) (p : Puzzle) :
    byDifficulty (ps ++ [p]) = countUp p.difficulty (byDifficulty ps) :=
  List.foldl_concat _ _ _ _

/-- The difficulties are listed in strictly ascending order. -/
theorem pairwise_byDifficulty (ps : List Puzzle) :
    (byDifficulty ps).Pairwise fun x y => x.1 < y.1 := by
  induction ps using List.reverseRecOn with
  | nil => exact List.Pairwise.nil
  | append_singleton ps p ih =>
    rw [byDifficulty_concat]
    exact pairwise_countUp ih p.difficulty

/-- No difficulty is listed twice. -/
theorem nodup_byDifficulty (ps : List Puzzle) : ((byDifficulty ps).map Prod.fst).Nodup :=
  List.pairwise_map.2 ((pairwise_byDifficulty ps).imp UInt8.ne_of_lt)

/-- **The whole count.**  The puzzles of a difficulty are counted, and a difficulty without puzzles
is not listed. -/
theorem lookup_byDifficulty (ps : List Puzzle) (d : UInt8) :
    (byDifficulty ps).lookup d =
      if ∃ p ∈ ps, p.difficulty = d then some (ps.countP (·.difficulty = d)) else none := by
  induction ps using List.reverseRecOn with
  | nil => simp [byDifficulty]
  | append_singleton ps p ih =>
    rw [byDifficulty_concat, lookup_countUp (pairwise_byDifficulty ps)]
    by_cases hd : d = p.difficulty
    · subst hd
      have hcount : ((byDifficulty ps).lookup p.difficulty).getD 0 =
          ps.countP (·.difficulty = p.difficulty) := by
        rw [ih]
        split_ifs with hp
        · rfl
        · exact (List.countP_eq_zero.2 (by simpa using hp)).symm
      simp [hcount]
    · have hp : p.difficulty ≠ d := Ne.symm hd
      simp [ih, hd, hp, or_and_right, exists_or]

/-- Every puzzle is counted once. -/
theorem sum_byDifficulty (ps : List Puzzle) : ((byDifficulty ps).map Prod.snd).sum = ps.length := by
  induction ps using List.reverseRecOn with
  | nil => rfl
  | append_singleton ps p ih =>
    rw [byDifficulty_concat, sum_countUp, ih, List.length_append, List.length_singleton]

/-! ## The order of work -/

/-- The counts do not depend on the order of the puzzles. -/
theorem byDifficulty_eq_of_perm (h : ps.Perm qs) : byDifficulty ps = byDifficulty qs := by
  have hcomm : RightCommutative fun counts (p : Puzzle) => countUp p.difficulty counts :=
    ⟨fun counts p q => countUp_comm q.difficulty p.difficulty counts⟩
  exact h.foldl_eq []

/-- Puzzles with distinct targets are reported alike in whatever order they are audited. -/
theorem report_eq_of_perm (h : ps.Perm qs) (hdistinct : (qs.map (·.target)).Nodup) :
    report ps = report qs := by
  have hkey : ∀ x ∈ qs.filterMap failure?, ∀ y ∈ qs.filterMap failure?,
      x.target.toInt = y.target.toInt → x = y := by
    intro x hx y hy heq
    exact List.inj_on_of_nodup_map (hdistinct.sublist (sublist_targets qs)) hx hy
      (Int64.toInt_inj.1 heq)
  rw [report, report, h.length_eq, byDifficulty_eq_of_perm h,
    sort_eq_of_perm (·.target.toInt) (h.filterMap failure?) hkey]

end Audit

/-! ## What a report tells -/

namespace AuditReport

/-- The report tells which puzzles of the book fail and why, by target, and counts its puzzles. -/
structure Accounts (r : AuditReport) (b : Book) : Prop where
  entries : ∀ p ∈ b.puzzles, r.failures.filter (fun x => x.target = p.target) =
    match p.audit with
    | .ok () => []
    | .error f => [⟨p.target, p.solution.text, f.message⟩]
  noOthers : ∀ x ∈ r.failures, ∃ p ∈ b.puzzles, x.target = p.target
  ascending : r.failures.Pairwise fun x y => x.target < y.target
  total : r.total = b.puzzles.length
  failures_le : r.failures.length ≤ r.total
  passed : r.passed + r.failures.length = r.total
  difficulty : ∀ d, r.byDifficulty.lookup d =
    if ∃ p ∈ b.puzzles, p.difficulty = d then some (b.puzzles.countP (·.difficulty = d)) else none
  difficultyOnce : (r.byDifficulty.map Prod.fst).Nodup
  difficultySum : (r.byDifficulty.map Prod.snd).sum = r.total

end AuditReport

namespace Book

variable {b : Book} {p : Puzzle} {order : List Puzzle}

/-- The failures with the target of a puzzle of the book are those of the puzzle. -/
theorem filter_failures (hp : p ∈ b.puzzles) :
    b.audit.failures.filter (fun x => x.target = p.target) =
      match p.audit with
      | .ok () => []
      | .error f => [⟨p.target, p.solution.text, f.message⟩] := by
  have hsame : ∀ x ∈ b.audit.failures, x.target = p.target →
      ∃ f, p.audit = .error f ∧ x = ⟨p.target, p.solution.text, f.message⟩ := by
    intro x hx htarget
    obtain ⟨q, hq, f, hf, rfl⟩ := Audit.mem_failures_iff.1 hx
    obtain rfl : q = p := List.inj_on_of_nodup_map b.distinct hq hp htarget
    exact ⟨f, hf, rfl⟩
  cases haudit : p.audit with
  | ok u =>
    refine List.filter_eq_nil_iff.2 ?_
    intro x hx htarget
    obtain ⟨f, hf, -⟩ := hsame x hx (of_decide_eq_true htarget)
    rw [haudit] at hf
    cases hf
  | error f =>
    have hmem : ⟨p.target, p.solution.text, f.message⟩ ∈ b.audit.failures :=
      Audit.mem_failures_iff.2 ⟨p, hp, f, haudit, rfl⟩
    have hfilter : b.audit.failures.filter (fun x => x.target = p.target) =
        b.audit.failures.filter (· == ⟨p.target, p.solution.text, f.message⟩) := by
      refine List.filter_congr fun x hx => ?_
      rw [Bool.eq_iff_iff, decide_eq_true_iff, beq_iff_eq]
      constructor
      · intro htarget
        obtain ⟨g, hg, hx⟩ := hsame x hx htarget
        rw [haudit] at hg
        cases hg
        exact hx
      · rintro rfl
        rfl
    have hnodup : b.audit.failures.Nodup := (Audit.nodup_targets b.distinct).of_map _
    rw [hfilter, List.filter_beq, List.count_eq_one_of_mem hnodup hmem]
    rfl

theorem audit_failures_ne_nil_iff (c : Chooser) (time : String) :
    (CommandLine.Task.verify.run b c time).failure.isSome = true ↔ b.audit.failures ≠ [] := by
  show (if b.audit.clean then none else some _).isSome = true ↔ _
  rw [AuditReport.clean]
  cases b.audit.failures with
  | nil => simp
  | cons x xs => simp

/-- The report on a book tells which of its puzzles fail and counts them. -/
theorem accounts_audit (b : Book) : b.audit.Accounts b where
  entries := fun p hp => filter_failures hp
  noOthers := by
    intro x hx
    obtain ⟨p, hp, f, -, rfl⟩ := Audit.mem_failures_iff.1 hx
    exact ⟨p, hp, rfl⟩
  ascending := Audit.pairwise_failures b.distinct
  total := rfl
  failures_le := Audit.length_failures_le b.puzzles
  passed := Nat.sub_add_cancel (Audit.length_failures_le b.puzzles)
  difficulty := Audit.lookup_byDifficulty b.puzzles
  difficultyOnce := Audit.nodup_byDifficulty b.puzzles
  difficultySum := Audit.sum_byDifficulty b.puzzles

/-- **What a report holds.**  In whatever order the puzzles of a book are audited, the same report
comes out; it tells which of them fail and counts them, and the command that audits the book fails
exactly if it lists a failure. -/
theorem report_in_any_order (h : order.Perm b.puzzles) :
    Audit.report order = b.audit ∧ (Audit.report order).Accounts b ∧
    ∀ c time, (CommandLine.Task.verify.run b c time).failure.isSome = true ↔
      (Audit.report order).failures ≠ [] := by
  have heq : Audit.report order = b.audit := Audit.report_eq_of_perm h b.distinct
  rw [heq]
  exact ⟨rfl, b.accounts_audit, audit_failures_ne_nil_iff⟩

/-- Two puzzles that cannot be won, audited the other way round. -/
theorem report_of_unsound_puzzles : ∃ (b : Book) (order : List Puzzle),
    order ≠ b.puzzles ∧ order.Perm b.puzzles ∧ Audit.report order = b.audit ∧
    b.audit.failures ≠ [] := by
  let p : Puzzle := ⟨2, ⟨['b'], by decide, by decide⟩, 1⟩
  let q : Puzzle := ⟨1, ⟨['a'], by decide, by decide⟩, 3⟩
  let b : Book := .ofList 1 [p, q] (by decide)
  have hperm : [q, p].Perm b.puzzles := List.Perm.swap p q []
  refine ⟨b, [q, p], by decide, hperm, (report_in_any_order hperm).1, ?_⟩
  intro hnil
  have hclean : b.audit.clean = true := by rw [AuditReport.clean, hnil, List.isEmpty_nil]
  have hsound : p.IsSound := b.clean_audit_iff.1 hclean p List.mem_cons_self
  have hallowed : Expr.isAllowed 'b' = true := hsound.isAllowed 'b' List.mem_cons_self
  revert hallowed
  decide

end Book

end HiddenEquation
