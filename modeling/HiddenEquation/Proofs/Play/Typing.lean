import HiddenEquation.Proofs.Audit.Winnable
import HiddenEquation.Proofs.Book.Table
import HiddenEquation.Proofs.Expr.Numeral
import HiddenEquation.Proofs.Play.Step

/-!
# Typing an equation

The keypad types digits and operators and passes over everything else, blanks among it, up to the
length of an equation.  The blanks in a solution are slots like any other, so a solution with a
blank in it cannot be typed, although it passes its audit.

* `Game.typeAll_eq` : what typing several characters leaves in the input line.
* `filterMap_keypad?` : the keypad replaces signs and drops what stands in no equation.
* `Game.typed_solution_wins_iff` : which sound puzzles are won by typing their solution.
-/

namespace HiddenEquation.Play

/-! ## The keypad -/

/-- The sign that a character is typed for. -/
def asSign (c : Char) : Char := if c ∈ ['x', 'X', multiplicationGlyph] then '*' else c

/-- Whether a character stands in equations. -/
def inEquations (c : Char) : Bool := c.isDigit || ['+', '-', '*', '/'].contains c

theorem keypad?_eq (c : Char) :
    keypad? c = if inEquations (asSign c) then some (asSign c) else none := by
  by_cases hsign : c ∈ ['x', 'X', multiplicationGlyph]
  · have hstar : asSign c = '*' := if_pos hsign
    rw [hstar]
    simp only [List.mem_cons, List.not_mem_nil, or_false] at hsign
    obtain rfl | rfl | rfl := hsign <;> rfl
  · have hsame : asSign c = c := if_neg hsign
    simp only [List.mem_cons, List.not_mem_nil, or_false, not_or] at hsign
    rw [hsame, keypad?]
    simp [inEquations, hsign, or_assoc]

/-- The keypad replaces signs and drops what stands in no equation. -/
theorem filterMap_keypad? (s : List Char) :
    s.filterMap keypad? = (s.map asSign).filter inEquations := by
  induction s with
  | nil => rfl
  | cons c s ih =>
    rw [List.map_cons]
    by_cases hc : inEquations (asSign c) = true
    · have hkey : keypad? c = some (asSign c) := by rw [keypad?_eq, if_pos hc]
      rw [List.filterMap_cons_some hkey, List.filter_cons_of_pos hc, ih]
    · have hkey : keypad? c = none := by rw [keypad?_eq, if_neg hc]
      rw [List.filterMap_cons_none hkey, List.filter_cons_of_neg hc, ih]

theorem asSign_of_isAllowed {c : Char} (h : Expr.isAllowed c = true) : asSign c = c := by
  refine if_neg fun hsign => ?_
  simp only [List.mem_cons, List.not_mem_nil, or_false] at hsign
  obtain rfl | rfl | rfl := hsign <;> exact absurd h (by decide)

/-- Of the characters that an equation may contain, the blanks do not stand in one. -/
theorem inEquations_of_isAllowed {c : Char} (h : Expr.isAllowed c = true) :
    inEquations c = !Text.isBlank c := by
  rcases (Expr.isAllowed_iff c).1 h with hblank | hdigit | hop
  · have hop : c ∉ ['+', '-', '*', '/'] := by
      intro hop
      simp only [List.mem_cons, List.not_mem_nil, or_false] at hop
      obtain rfl | rfl | rfl | rfl := hop <;> exact absurd hblank (by decide)
    simp [inEquations, hblank, Text.not_isDigit_of_isBlank hblank, hop]
  · simp [inEquations, hdigit, Text.not_isBlank_of_isDigit hdigit]
  · simp only [List.mem_cons, List.not_mem_nil, or_false] at hop
    obtain rfl | rfl | rfl | rfl := hop <;> rfl

/-- What the keypad makes of characters that an equation may contain: the blanks go. -/
theorem filterMap_keypad?_of_isAllowed {s : List Char}
    (h : ∀ c ∈ s, Expr.isAllowed c = true) :
    s.filterMap keypad? = s.filter fun c => !Text.isBlank c := by
  have hsigns : s.map asSign = s :=
    (List.map_congr_left fun c hc => asSign_of_isAllowed (h c hc)).trans s.map_id
  rw [filterMap_keypad?, hsigns]
  exact List.filter_congr fun c hc => inEquations_of_isAllowed (h c hc)

namespace Game

variable {g : Game} {b : Book} {p : Puzzle}

/-! ## The input line -/

/-- **Typing several characters** puts into the input line what the keypad makes of them, as far
as there is room, and touches nothing else. -/
theorem typeAll_eq (h : g.input.length ≤ g.length) (s : List Char) :
    g.typeAll s = { g with input := (g.input ++ s.filterMap keypad?).take g.length } := by
  induction s generalizing g with
  | nil =>
    rw [List.filterMap_nil, List.append_nil, List.take_of_length_le h]
    rfl
  | cons c s ih =>
    show (g.type c).typeAll s = _
    rcases type_cases g c with hsame | ⟨k, hk, hroom, htyped⟩
    · rw [hsame, ih h]
      cases hk : keypad? c with
      | none => rw [List.filterMap_cons_none hk]
      | some k =>
        -- The key was passed over because the line is full.
        have hfull : g.length ≤ g.input.length := by
          by_contra hroom
          have hinput := congrArg (fun g => g.input.length) hsame
          simp [type, hk, Nat.lt_of_not_le hroom] at hinput
        rw [List.take_append_of_le_length hfull, List.take_append_of_le_length hfull]
    · rw [htyped, List.filterMap_cons_some hk]
      have hroom' : (g.input ++ [k]).length ≤ g.length := by
        rw [List.length_append, List.length_singleton]
        exact hroom
      rw [ih (g := { g with input := g.input ++ [k] }) hroom']
      simp [length]

/-! ## Submitting a full line -/

theorem submit_of_length_ne (h : g.input.length ≠ g.length) :
    g.submit b = g.post .error s!"Equation must be {g.length} characters!" := by
  have hlen : (Guess.ofChars g.input).length ≠ g.length := by
    rwa [Guess.length_ofChars]
  rw [submit]
  exact if_pos hlen

/-- A full line is a guess at the round. -/
theorem submit_of_full (h : g.input.length = g.length) :
    g.submit b =
      match g.round.submit b (.ofChars g.input) with
      | .error .finished => g
      | .error (.check e) => g.post .error e.message
      | .ok (v, next) => if v.valid then g.accept v next else g.post .error (refusal v) := by
  have hlen : ¬(Guess.ofChars g.input).length ≠ g.length := by
    rw [Guess.length_ofChars]
    exact not_not.2 h
  rw [submit]
  exact if_neg hlen

theorem submit_of_valid {v : Verdict} (hlen : g.input.length = g.length)
    (hplay : g.round.status = .playing)
    (hv : b.check (.ofChars g.input) g.round.challenge.target = .ok v) (hvalid : v.valid = true) :
    g.submit b = g.accept v (g.round.record (.ofChars g.input) v) := by
  have hsubmit : g.round.submit b (.ofChars g.input) =
      .ok (v, g.round.record (.ofChars g.input) v) :=
    Round.submit_eq_ok_iff.2 ⟨hplay, hv, by rw [if_pos hvalid]⟩
  rw [submit_of_full hlen, hsubmit]
  exact if_pos hvalid

/-- A solved attempt wins the round and ends the guessing. -/
theorem accept_of_solved {v : Verdict} {guess : Guess} (h : v.solved = true) :
    (g.accept v (g.round.record guess v)).round.status = .won ∧
      (g.accept v (g.round.record guess v)).mode = .over := by
  have hwon : (g.round.record guess v).status = .won :=
    Round.status_eq_won_iff.2 ⟨⟨guess, v⟩, by simp, h⟩
  refine ⟨by rw [round_accept, hwon], ?_⟩
  rw [mode_accept, hwon, if_neg (by decide)]

/-! ## Typing a solution -/

/-- What typing the solution of a sound puzzle into an empty line leaves there. -/
theorem input_typeAll_solution (hinput : g.input = []) (hlength : g.length = p.solution.length)
    (hsound : p.IsSound) : g.typeAll p.solution.chars =
      { g with input := p.solution.chars.filter fun c => !Text.isBlank c } := by
  have hle : (p.solution.chars.filter fun c => !Text.isBlank c).length ≤ g.length := by
    rw [hlength]
    exact List.length_filter_le _ _
  rw [typeAll_eq (by simp [hinput]), hinput, filterMap_keypad?_of_isAllowed hsound.isAllowed,
    List.nil_append, List.take_of_length_le hle]

/-- A solution without blanks is typed as it is, and wins. -/
theorem won_of_typed_solution (hp : p ∈ b.puzzles) (hsound : p.IsSound) (hinput : g.input = [])
    (hchallenge : g.round.challenge = .ofPuzzle p b.length) (hplay : g.round.status = .playing)
    (hfree : ∀ c ∈ p.solution.chars, Text.isBlank c = false) :
    ((g.typeAll p.solution.chars).submit b).round.status = .won ∧
      ((g.typeAll p.solution.chars).submit b).mode = .over := by
  have hlength : g.length = p.solution.length := by
    rw [length, hchallenge, b.sized p hp]
    rfl
  have hall : (p.solution.chars.filter fun c => !Text.isBlank c) = p.solution.chars := by
    rw [List.filter_eq_self]
    intro c hc
    simp [hfree c hc]
  have hguess : Guess.ofChars p.solution.chars = p.solution.toGuess :=
    Guess.ofChars_chars p.solution.toGuess
  obtain ⟨v, hv, hsolved⟩ := hsound.exists_check_toGuess
  have hcheck : b.check (.ofChars p.solution.chars) g.round.challenge.target = .ok v := by
    rw [hguess, hchallenge]
    exact (Book.check_eq_ok_iff_of_mem hp).2 hv
  rw [input_typeAll_solution hinput hlength hsound, hall,
    submit_of_valid (g := { g with input := p.solution.chars }) hlength.symm hplay hcheck
      (valid_of_solved hv hsolved)]
  exact accept_of_solved hsolved

/-- A solution with a blank comes out too short, and is not even looked at. -/
theorem submit_typed_blank (hsound : p.IsSound) (hinput : g.input = [])
    (hlength : g.length = p.solution.length)
    (hblank : ∃ c ∈ p.solution.chars, Text.isBlank c = true) :
    (g.typeAll p.solution.chars).submit b =
      Game.post { g with input := p.solution.chars.filter fun c => !Text.isBlank c } .error
        s!"Equation must be {g.length} characters!" := by
  have hshort : (p.solution.chars.filter fun c => !Text.isBlank c).length ≠ g.length := by
    obtain ⟨c, hc, hblank⟩ := hblank
    rw [hlength]
    apply Nat.ne_of_lt
    exact List.length_filter_lt_length_iff_exists.2 ⟨c, hc, by simp [hblank]⟩
  rw [input_typeAll_solution hinput hlength hsound]
  exact submit_of_length_ne
    (g := { g with input := p.solution.chars.filter fun c => !Text.isBlank c }) hshort

/-- **Which sound puzzles are won by typing their solution.**  A solution without blanks wins the
round and ends the guessing.  One with a blank does not: submitting what was typed of it leaves
round and mode as they were. -/
theorem typed_solution_wins_iff (hp : p ∈ b.puzzles) (haudit : p.audit = .ok ())
    (hmode : g.mode = .guessing) (hinput : g.input = [])
    (hchallenge : g.round.challenge = .ofPuzzle p b.length) (hplay : g.round.status = .playing) :
    ((∀ c ∈ p.solution.chars, Text.isBlank c = false) →
      ((g.typeAll p.solution.chars).submit b).round.status = .won ∧
      ((g.typeAll p.solution.chars).submit b).mode = .over) ∧
    ((∃ c ∈ p.solution.chars, Text.isBlank c = true) →
      ((g.typeAll p.solution.chars).submit b).round = g.round ∧
      ((g.typeAll p.solution.chars).submit b).mode = .guessing) := by
  have hsound : p.IsSound := Puzzle.audit_eq_ok_iff.1 haudit
  refine ⟨won_of_typed_solution hp hsound hinput hchallenge hplay, fun hblank => ?_⟩
  have hlength : g.length = p.solution.length := by
    rw [length, hchallenge, b.sized p hp]
    rfl
  rw [submit_typed_blank hsound hinput hlength hblank]
  exact ⟨rfl, hmode⟩

/-- Seven times six is typed without a loss and wins. -/
theorem typed_product_wins :
    let p : Puzzle := ⟨42, ⟨['7', '*', '6'], by decide, by decide⟩, 1⟩
    let b : Book := .ofList 3 [p] (by decide)
    let g : Game := ⟨.start (.ofPuzzle p b.length), [], .guessing, .none, .none⟩
    p.audit = .ok () ∧ ((g.typeAll p.solution.chars).submit b).round.status = .won ∧
      ((g.typeAll p.solution.chars).submit b).mode = .over := by
  intro p b g
  have hread : Expr.readExact p.solution.chars = .ok (.binary .times (.number 7) (.number 6)) :=
    Expr.readExact_eq_ok_iff.2
      ⟨by decide, ⟨⟨[], ['7']⟩, [(.times, ⟨[], ['6']⟩)]⟩, rfl, rfl⟩
  have haudit : p.audit = .ok () :=
    Puzzle.audit_eq_ok_iff.2
      ⟨_, Expr.evaluate_of_readExact (by decide) p.solution.plain hread rfl, by decide⟩
  have hplay : g.round.status = .playing := Round.status_start _
  exact ⟨haudit, (typed_solution_wins_iff (b := b) (g := g) List.mem_cons_self haudit rfl rfl rfl
    hplay).1 (List.forall_mem_cons.2 ⟨rfl, List.forall_mem_cons.2 ⟨rfl,
      List.forall_mem_singleton.2 rfl⟩⟩)⟩

/-- Not every sound puzzle of some lines is won by typing its solution.  The line `3:1 + 2:1`
describes a puzzle with blanks in its solution `1 + 2`, of which only three characters are typed. -/
theorem exists_sound_not_typed :
    ¬∀ (lines : List (List Char)) (n : Nat) (b : Book), Book.ofLines lines n = .ok b →
      ∀ p ∈ b.puzzles, p.audit = .ok () → ∀ g : Game, g.mode = .guessing → g.input = [] →
        g.round.challenge = .ofPuzzle p b.length → g.round.status = .playing →
        ((g.typeAll p.solution.chars).submit b).round.status = .won ∧
          ((g.typeAll p.solution.chars).submit b).mode = .over := by
  intro h
  let p : Puzzle := ⟨3, ⟨['1', ' ', '+', ' ', '2'], by decide, by decide⟩, 1⟩
  have hlines : Entry.puzzles ["3:1 + 2:1".toList] = [p] := rfl
  let b : Book := .ofList 5 [p] (by decide)
  have hb : Book.ofLines ["3:1 + 2:1".toList] 5 = .ok b := by
    rw [Book.ofLines, hlines]
    exact Book.ofPuzzles_eq_ok _
  have hp : p ∈ b.puzzles := List.mem_cons_self
  have hread : Expr.readExact p.solution.chars = .ok (.binary .plus (.number 1) (.number 2)) :=
    Expr.readExact_eq_ok_iff.2
      ⟨by decide, ⟨⟨[], ['1']⟩, [(.plus, ⟨[], ['2']⟩)]⟩, rfl, rfl⟩
  have haudit : p.audit = .ok () :=
    Puzzle.audit_eq_ok_iff.2
      ⟨_, Expr.evaluate_of_readExact (by decide) p.solution.plain hread rfl, by decide⟩
  let g : Game := ⟨.start (.ofPuzzle p b.length), [], .guessing, .none, .none⟩
  have hplay : g.round.status = .playing := Round.status_start _
  obtain ⟨-, hover⟩ := h ["3:1 + 2:1".toList] 5 b hb p hp haudit g rfl rfl rfl hplay
  have hlength : g.length = p.solution.length := b.sized p hp ▸ rfl
  have hblank : ∃ c ∈ p.solution.chars, Text.isBlank c = true :=
    ⟨' ', List.mem_cons_of_mem _ List.mem_cons_self, rfl⟩
  rw [submit_typed_blank (Puzzle.audit_eq_ok_iff.1 haudit) rfl hlength hblank] at hover
  cases hover

end Game

end HiddenEquation.Play
