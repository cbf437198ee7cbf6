import HiddenEquation.Proofs.Book.Line
import HiddenEquation.Proofs.Decimal.Integer
import HiddenEquation.Proofs.Text.Pieces

/-!
# The format of an entry

An entry is a target, a solution and a difficulty with a colon between them, and blanks may stand
around each.  `Entry.Describes` says which entries are read and as what, without cutting and without
trimming; `Entry.FirstFault` says what is wrong with the others.

* `Entry.hasFields_iff` : the fields are what cutting and trimming find.
* `Entry.readTarget_eq_ok_iff`, `Entry.readSolution_eq_ok_iff`, `Entry.readDifficulty_eq_ok_iff` :
  which texts a field admits.
* `Entry.read_format` : the entries that are read, an entry that is written, and the fault that is
  reported.
-/

namespace HiddenEquation.Entry

open Decimal (IntegerRange numeral readInteger)
open Text (IsCore isBlank pieces trim)

variable {entry t s d : List Char} {p : Puzzle}

/-! ## The fields of an entry -/

/-- An entry with two colons; the texts before, between and behind them without the blanks around
them. -/
def HasFields (entry t s d : List Char) : Prop :=
  ∃ t' s' d', entry = t' ++ ':' :: (s' ++ ':' :: d') ∧ (':' ∉ t' ∧ ':' ∉ s' ∧ ':' ∉ d') ∧
    IsCore t t' ∧ IsCore s s' ∧ IsCore d d'

theorem pieces_eq_three_iff {t' s' d' : List Char} : pieces ':' entry = [t', s', d'] ↔
    entry = t' ++ ':' :: (s' ++ ':' :: d') ∧ ':' ∉ t' ∧ ':' ∉ s' ∧ ':' ∉ d' := by
  have hjoined : [':'].intercalate [t', s', d'] = t' ++ ':' :: (s' ++ ':' :: d') := by
    simp [List.intercalate]
  rw [Text.pieces_eq_iff, hjoined]
  constructor
  · rintro ⟨-, hfields, hentry⟩
    exact ⟨hentry.symm, hfields t' (by simp), hfields s' (by simp), hfields d' (by simp)⟩
  · rintro ⟨hentry, ht, hs, hd⟩
    refine ⟨List.cons_ne_nil _ _, ?_, hentry.symm⟩
    intro q hq
    simp only [List.mem_cons, List.not_mem_nil, or_false] at hq
    rcases hq with rfl | rfl | rfl
    · exact ht
    · exact hs
    · exact hd

/-- The fields are what cutting at the colons and trimming find. -/
theorem hasFields_iff : HasFields entry t s d ↔
    ∃ t' s' d', pieces ':' entry = [t', s', d'] ∧ trim t' = t ∧ trim s' = s ∧ trim d' = d := by
  simp only [HasFields, pieces_eq_three_iff, Text.trim_eq_iff, and_assoc]

/-- The entries with fields are those with two colons. -/
theorem exists_hasFields_iff : (∃ t s d, HasFields entry t s d) ↔ entry.count ':' = 2 := by
  have hcount : entry.count ':' = 2 ↔ (pieces ':' entry).length = 3 := by
    rw [Text.length_pieces]
    omega
  rw [hcount, List.length_eq_three]
  constructor
  · rintro ⟨t, s, d, h⟩
    obtain ⟨t', s', d', h, -⟩ := hasFields_iff.1 h
    exact ⟨t', s', d', h⟩
  · rintro ⟨t', s', d', h⟩
    exact ⟨trim t', trim s', trim d', hasFields_iff.2 ⟨t', s', d', h, rfl, rfl, rfl⟩⟩

/-! ## Trimming the whole entry -/

theorem readFields_of_length_ne {fields : List (List Char)} (h : fields.length ≠ 3) :
    readFields fields = .error .shape := by
  unfold readFields
  split
  · exact absurd rfl h
  · rfl

theorem readFields_of_count_ne (h : entry.count ':' ≠ 2) :
    readFields (pieces ':' entry) = .error .shape := by
  apply readFields_of_length_ne
  rw [Text.length_pieces]
  omega

theorem colon_not_mem_of_blanks (h : ∀ c ∈ s, isBlank c = true) : ':' ∉ s := by
  intro hmem
  have hblank := h ':' hmem
  revert hblank
  decide

/-- Blanks around an entry come to stand around its first and its last field, where they do not
matter either. -/
theorem readFields_pieces_trim (entry : List Char) :
    readFields (pieces ':' (trim entry)) = readFields (pieces ':' entry) := by
  obtain ⟨front, back, hentry, hfront, hback⟩ := (Text.isCore_trim entry).padded
  have hcolonFront : ':' ∉ front := colon_not_mem_of_blanks hfront
  have hcolonBack : ':' ∉ back := colon_not_mem_of_blanks hback
  by_cases hlength : (pieces ':' (trim entry)).length = 3
  · obtain ⟨t, s, d, hpieces⟩ := List.length_eq_three.1 hlength
    obtain ⟨htrimmed, ht, hs, hd⟩ := pieces_eq_three_iff.1 hpieces
    have hwhole : pieces ':' entry = [front ++ t, s, d ++ back] := by
      refine pieces_eq_three_iff.2 ⟨?_, ?_, hs, ?_⟩
      · rw [hentry, htrimmed]
        simp only [List.append_assoc, List.cons_append]
      · rw [List.mem_append, not_or]
        exact ⟨hcolonFront, ht⟩
      · rw [List.mem_append, not_or]
        exact ⟨hd, hcolonBack⟩
    have hnone : ∀ c ∈ ([] : List Char), isBlank c = true := by simp
    have hfirst : trim (front ++ t) = trim t := by
      have h := Text.trim_append hfront hnone t
      rwa [List.append_nil] at h
    have hlast : trim (d ++ back) = trim d := Text.trim_append hnone hback d
    rw [hpieces, hwhole, readFields, readFields, hfirst, hlast]
  · have hwhole : (pieces ':' entry).length ≠ 3 := by
      rw [Text.length_pieces] at hlength ⊢
      rw [hentry, List.count_append, List.count_append, List.count_eq_zero.2 hcolonFront,
        List.count_eq_zero.2 hcolonBack, Nat.zero_add, Nat.add_zero]
      exact hlength
    rw [readFields_of_length_ne hlength, readFields_of_length_ne hwhole]

/-! ## Reading the fields -/

theorem HasFields.read_eq_ok_iff (h : HasFields entry t s d) : read entry = .ok p ↔
    readTarget t = .ok p.target ∧ readSolution s = .ok p.solution ∧
      readDifficulty d = .ok p.difficulty := by
  obtain ⟨t', s', d', hpieces, rfl, rfl, rfl⟩ := hasFields_iff.1 h
  rw [Entry.read_eq_ok_iff, readFields_pieces_trim, hpieces, readFields_eq_ok_iff]
  constructor
  · rintro ⟨t, s, d, heq, h⟩
    cases heq
    exact h
  · intro h
    exact ⟨t', s', d', rfl, h⟩

theorem read_eq_error_iff {e : EntryError} :
    read entry = .error e ↔ e.entry = entry ∧ readFields (pieces ':' entry) = .error e.fault := by
  rw [read, readFields_pieces_trim]
  cases readFields (pieces ':' entry) with
  | ok p => simp
  | error f =>
    cases e with
    | mk entry' f' => simp [eq_comm]

/-- The fault of an entry with fields is that of the first field with a fault. -/
theorem HasFields.readFields_eq_error_iff (h : HasFields entry t s d) {f : EntryFault} :
    readFields (pieces ':' entry) = .error f ↔
      readTarget t = .error f ∨
      (∃ target, readTarget t = .ok target) ∧ readSolution s = .error f ∨
      (∃ target, readTarget t = .ok target) ∧ (∃ solution, readSolution s = .ok solution) ∧
        readDifficulty d = .error f := by
  obtain ⟨t', s', d', hpieces, rfl, rfl, rfl⟩ := hasFields_iff.1 h
  rw [hpieces, readFields, Except.bind_eq_error_iff]
  simp only [Except.bind_eq_error_iff, pure, Except.pure, reduceCtorEq, and_false, exists_false,
    or_false]
  constructor
  · rintro (ht | ⟨target, ht, hs | ⟨solution, hs, hd⟩⟩)
    · exact .inl ht
    · exact .inr (.inl ⟨⟨target, ht⟩, hs⟩)
    · exact .inr (.inr ⟨⟨target, ht⟩, ⟨solution, hs⟩, hd⟩)
  · rintro (ht | ⟨⟨target, ht⟩, hs⟩ | ⟨⟨target, ht⟩, ⟨solution, hs⟩, hd⟩)
    · exact .inl ht
    · exact .inr ⟨target, ht, .inl hs⟩
    · exact .inr ⟨target, ht, .inr ⟨solution, hs, hd⟩⟩

/-! ## Which texts a field admits -/

/-- A target is an integer of 64 bits, with a sign or without. -/
theorem readTarget_eq_ok_iff {n : Int64} :
    readTarget t = .ok n ↔ IntegerRange.int64.Admits t n.toInt := by
  rw [← Decimal.readInteger_eq_ok_iff (by decide), readTarget]
  cases hread : readInteger .int64 t with
  | error f => simp
  | ok z =>
    obtain ⟨-, hlo, hhi⟩ := (Decimal.readInteger_eq_ok_iff (by decide)).1 hread
    have hz : (Int64.ofInt z).toInt = z :=
      Int64.toInt_ofInt_of_le hlo (Int.lt_add_one_of_le hhi)
    simp only [Except.ok.injEq]
    constructor
    · rintro rfl
      exact hz.symm
    · rintro rfl
      exact Int64.ofInt_toInt n

theorem exists_readTarget_iff :
    (∃ n, readTarget t = .ok n) ↔ ∃ z, IntegerRange.int64.Admits t z := by
  constructor
  · rintro ⟨n, hn⟩
    exact ⟨n.toInt, readTarget_eq_ok_iff.1 hn⟩
  · rintro ⟨z, hz⟩
    refine ⟨Int64.ofInt z, ?_⟩
    rw [readTarget, (Decimal.readInteger_eq_ok_iff (by decide)).2 hz]

theorem readTarget_eq_error_iff {f : EntryFault} :
    readTarget t = .error f ↔ ∃ g, readInteger .int64 t = .error g ∧ f = .target g := by
  rw [readTarget]
  cases readInteger .int64 t with
  | ok z => simp
  | error g => simp [eq_comm]

/-- A solution is any text but the empty one. -/
theorem readSolution_eq_ok_iff {sol : Solution} :
    readSolution s = .ok sol ↔ s ≠ [] ∧ sol.chars = s.map plainSign := by
  constructor
  · intro h
    refine ⟨?_, chars_of_readSolution h⟩
    rintro rfl
    cases h
  · rintro ⟨hne, hchars⟩
    rw [readSolution, Solution.ofChars?, dif_neg hne]
    refine congrArg Except.ok ?_
    cases sol with
    | mk chars nonempty plain =>
      have hmap : chars = s.map plainSign := hchars
      subst hmap
      rfl

theorem exists_readSolution_iff : (∃ sol, readSolution s = .ok sol) ↔ s ≠ [] := by
  constructor
  · rintro ⟨sol, hsol⟩
    exact (readSolution_eq_ok_iff.1 hsol).1
  · intro hne
    refine ⟨⟨s.map plainSign, by simpa using hne, not_mem_map_plainSign s⟩, ?_⟩
    exact readSolution_eq_ok_iff.2 ⟨hne, rfl⟩

theorem readSolution_eq_error_iff {f : EntryFault} :
    readSolution s = .error f ↔ s = [] ∧ f = .solution := by
  rw [readSolution]
  cases hsol : Solution.ofChars? s with
  | none =>
    have hnil : s = [] := Solution.ofChars?_eq_none_iff.1 hsol
    simp [hnil, eq_comm]
  | some sol =>
    have hne : s ≠ [] := fun hnil => by
      rw [Solution.ofChars?_eq_none_iff.2 hnil] at hsol
      cases hsol
    simp [hne]

/-- A difficulty is a natural number of eight bits, with a plus or without. -/
theorem readDifficulty_eq_ok_iff {n : UInt8} :
    readDifficulty d = .ok n ↔ IntegerRange.uint8.Admits d n.toNat := by
  rw [← Decimal.readInteger_eq_ok_iff (by decide), readDifficulty]
  cases hread : readInteger .uint8 d with
  | error f => simp
  | ok z =>
    obtain ⟨-, hlo, hhi⟩ := (Decimal.readInteger_eq_ok_iff (by decide)).1 hread
    obtain ⟨m, rfl⟩ := Int.eq_ofNat_of_zero_le hlo
    have hm : (UInt8.ofNat m).toNat = m :=
      UInt8.toNat_ofNat_of_lt' (Nat.lt_succ_of_le (Int.ofNat_le.1 hhi))
    show Except.ok (UInt8.ofNat m) = .ok n ↔ _
    rw [Except.ok.injEq, Except.ok.injEq, Int.natCast_inj]
    constructor
    · rintro rfl
      exact hm.symm
    · rintro rfl
      exact UInt8.ofNat_toNat

theorem readDifficulty_eq_error_iff {f : EntryFault} :
    readDifficulty d = .error f ↔ ∃ g, readInteger .uint8 d = .error g ∧ f = .difficulty g := by
  rw [readDifficulty]
  cases readInteger .uint8 d with
  | ok z => simp
  | error g => simp [eq_comm]

/-! ## The format -/

/-- The entries that are read as a puzzle. -/
def Describes (entry : List Char) (p : Puzzle) : Prop :=
  ∃ t s d, HasFields entry t s d ∧ IntegerRange.int64.Admits t p.target.toInt ∧
    (s ≠ [] ∧ p.solution.chars = s.map plainSign) ∧
    IntegerRange.uint8.Admits d p.difficulty.toNat

/-- What is wrong with an entry: it does not have three fields, or the text of a field is not
admitted while those of the fields before it are.  Of a number the fault that reading it finds is
told. -/
inductive FirstFault (entry : List Char) : EntryFault → Prop where
  | shape (h : entry.count ':' ≠ 2) : FirstFault entry .shape
  | target {t s d : List Char} {f : Decimal.IntegerFault} (h : HasFields entry t s d)
      (ht : ¬∃ z, IntegerRange.int64.Admits t z) (hf : readInteger .int64 t = .error f) :
      FirstFault entry (.target f)
  | solution {t s d : List Char} (h : HasFields entry t s d)
      (ht : ∃ z, IntegerRange.int64.Admits t z) (hs : s = []) : FirstFault entry .solution
  | difficulty {t s d : List Char} {f : Decimal.IntegerFault} (h : HasFields entry t s d)
      (ht : ∃ z, IntegerRange.int64.Admits t z) (hs : s ≠ [])
      (hd : ¬∃ z, IntegerRange.uint8.Admits d z) (hf : readInteger .uint8 d = .error f) :
      FirstFault entry (.difficulty f)

/-- A puzzle as an entry. -/
def written (p : Puzzle) : String :=
  s!"{p.target.toInt}:{p.solution.text}:{p.difficulty.toNat}"

theorem read_eq_ok_iff_describes : read entry = .ok p ↔ Describes entry p := by
  constructor
  · intro h
    by_cases hcount : entry.count ':' = 2
    · obtain ⟨t, s, d, hfields⟩ := exists_hasFields_iff.2 hcount
      rw [hfields.read_eq_ok_iff, readTarget_eq_ok_iff, readSolution_eq_ok_iff,
        readDifficulty_eq_ok_iff] at h
      exact ⟨t, s, d, hfields, h⟩
    · rw [Entry.read_eq_ok_iff, readFields_pieces_trim, readFields_of_count_ne hcount] at h
      cases h
  · rintro ⟨t, s, d, hfields, h⟩
    rwa [hfields.read_eq_ok_iff, readTarget_eq_ok_iff, readSolution_eq_ok_iff,
      readDifficulty_eq_ok_iff]

theorem readFields_eq_error_iff {f : EntryFault} :
    readFields (pieces ':' entry) = .error f ↔ FirstFault entry f := by
  constructor
  · intro h
    by_cases hcount : entry.count ':' = 2
    · obtain ⟨t, s, d, hfields⟩ := exists_hasFields_iff.2 hcount
      rw [hfields.readFields_eq_error_iff, exists_readTarget_iff, exists_readSolution_iff,
        readTarget_eq_error_iff, readSolution_eq_error_iff, readDifficulty_eq_error_iff] at h
      rcases h with ⟨g, hg, rfl⟩ | ⟨ht, hs, rfl⟩ | ⟨ht, hs, g, hg, rfl⟩
      · have hnone : ¬∃ z, IntegerRange.int64.Admits t z :=
          (Decimal.exists_readInteger_eq_error_iff (by decide)).1 ⟨g, hg⟩
        exact .target hfields hnone hg
      · exact .solution hfields ht hs
      · have hnone : ¬∃ z, IntegerRange.uint8.Admits d z :=
          (Decimal.exists_readInteger_eq_error_iff (by decide)).1 ⟨g, hg⟩
        exact .difficulty hfields ht hs hnone hg
    · rw [readFields_of_count_ne hcount] at h
      cases h
      exact .shape hcount
  · intro h
    cases h with
    | shape hcount => exact readFields_of_count_ne hcount
    | target hfields _ hf =>
      rw [hfields.readFields_eq_error_iff, readTarget_eq_error_iff]
      exact .inl ⟨_, hf, rfl⟩
    | solution hfields ht hs =>
      rw [hfields.readFields_eq_error_iff, exists_readTarget_iff, readSolution_eq_error_iff]
      exact .inr (.inl ⟨ht, hs, rfl⟩)
    | difficulty hfields ht hs _ hf =>
      rw [hfields.readFields_eq_error_iff, exists_readTarget_iff, exists_readSolution_iff,
        readDifficulty_eq_error_iff]
      exact .inr (.inr ⟨ht, hs, _, hf, rfl⟩)

/-! ## An entry that is written -/

theorem toList_written (p : Puzzle) : (written p).toList =
    numeral p.target.toInt ++ ':' :: (p.solution.chars ++ ':' :: numeral p.difficulty.toNat) := by
  have hcolon : (toString ":").toList = [':'] := rfl
  have hdifficulty : (toString p.difficulty.toNat).toList = numeral p.difficulty.toNat :=
    Decimal.toList_toString _
  have htext : (toString p.solution.text).toList = p.solution.chars := String.toList_ofList
  simp only [written, String.toList_append, hcolon, htext, hdifficulty,
    Decimal.toList_toString_int, List.append_assoc, List.nil_append, List.cons_append]

/-- A text that writes an integer is a field as it stands. -/
theorem isCore_of_admits {range : IntegerRange} {z : Int} (h : range.Admits s z) : IsCore s s := by
  have hblank : ∀ c ∈ s, isBlank c = false := by
    intro c hc
    rcases h.1.isDigit_or_sign hc with hdigit | rfl | rfl
    · exact Text.not_isBlank_of_isDigit hdigit
    · decide
    · decide
  exact Text.isCore_self (fun c hc => hblank c (List.mem_of_mem_head? hc))
    fun c hc => hblank c (List.mem_of_mem_getLast? hc)

theorem colon_not_mem_of_admits {range : IntegerRange} {z : Int} (h : range.Admits s z) :
    ':' ∉ s := by
  intro hmem
  rcases h.1.isDigit_or_sign hmem with hdigit | hsign | hsign
  · revert hdigit
    decide
  · revert hsign
    decide
  · revert hsign
    decide

theorem describes_written (hcolon : ':' ∉ p.solution.chars)
    (hcore : IsCore p.solution.chars p.solution.chars) : Describes (written p).toList p := by
  have htarget : IntegerRange.int64.Admits (numeral p.target.toInt) p.target.toInt :=
    Decimal.admits_numeral (.inl rfl) ⟨p.target.le_toInt, Int.le_of_lt_add_one p.target.toInt_lt⟩
  have hdifficulty : IntegerRange.uint8.Admits (numeral p.difficulty.toNat) p.difficulty.toNat :=
    Decimal.admits_numeral (.inr (Int.natCast_nonneg _))
      ⟨Int.natCast_nonneg _, Int.ofNat_le.2 (Nat.le_of_lt_succ p.difficulty.toNat_lt)⟩
  refine ⟨_, _, _, ⟨_, _, _, toList_written p, ?_, isCore_of_admits htarget, hcore,
    isCore_of_admits hdifficulty⟩, htarget, ⟨p.solution.nonempty, ?_⟩, hdifficulty⟩
  · exact ⟨colon_not_mem_of_admits htarget, hcolon, colon_not_mem_of_admits hdifficulty⟩
  · exact (map_plainSign_of_not_mem p.solution.plain).symm

/-- **The format of an entry.**  An entry is read as a puzzle just if it describes the puzzle.  So a
puzzle that is written is read again, whatever its target and difficulty, if a field can hold its
solution.  Of an entry that is not read the first fault is reported. -/
theorem read_format :
    (∀ entry p, read entry = .ok p ↔ Describes entry p) ∧
    (∀ p : Puzzle, ':' ∉ p.solution.chars → (∀ c ∈ p.solution.chars.head?, isBlank c = false) →
      (∀ c ∈ p.solution.chars.getLast?, isBlank c = false) →
      read (written p).toList = .ok p) ∧
    ∀ entry e, read entry = .error e ↔ e.entry = entry ∧ FirstFault entry e.fault := by
  refine ⟨fun entry p => read_eq_ok_iff_describes, ?_, ?_⟩
  · intro p hcolon hhead hlast
    exact read_eq_ok_iff_describes.2 (describes_written hcolon (Text.isCore_self hhead hlast))
  · intro entry e
    rw [read_eq_error_iff, readFields_eq_error_iff]

/-- Both ends of the targets, the hardest difficulty and a solution with a blank in it. -/
theorem read_format_extremes :
    read (written ⟨Int64.minValue, ⟨['1', ' ', '+'], by decide, by decide⟩, 255⟩).toList =
      .ok ⟨Int64.minValue, ⟨['1', ' ', '+'], by decide, by decide⟩, 255⟩ ∧
    read (written ⟨Int64.maxValue, ⟨['1', ' ', '+'], by decide, by decide⟩, 255⟩).toList =
      .ok ⟨Int64.maxValue, ⟨['1', ' ', '+'], by decide, by decide⟩, 255⟩ := by
  have hcolon : ':' ∉ ['1', ' ', '+'] := by decide
  have hhead : ∀ c ∈ ['1', ' ', '+'].head?, isBlank c = false := by
    rintro c ⟨⟩
    rfl
  have hlast : ∀ c ∈ ['1', ' ', '+'].getLast?, isBlank c = false := by
    rintro c ⟨⟩
    rfl
  exact ⟨read_format.2.1 _ hcolon hhead hlast, read_format.2.1 _ hcolon hhead hlast⟩

end HiddenEquation.Entry
