import HiddenEquation.Proofs.Wire.Verdict

/-!
# Requests, challenges and feedback that are sent

Nothing in a request, a challenge or feedback is a double, so what is written in either of the two
forms is read back as it was: every character of a guess, whatever it needs to be escaped, and both
ends of every range of integers.

* `reads_target`, `reads_slots` : the members that are not read as they stand.
* `reads_request`, `reads_challenge` : the records, in any layout.
* `decode_exact` : both forms of all three, read back.
-/

namespace HiddenEquation.Wire

open Json Decimal

variable {l : Layout} {n : ℕ}

/-! ## Members -/

/-- A target is read back whatever its 64 bits are. -/
theorem reads_target (t : Int64) :
    targetReader.Reads ((Document.integer t.toInt).spell l n) t := by
  have hlo := t.le_toInt
  have hhi := t.toInt_lt
  have hword : IsWord t.toInt := ⟨hlo, lt_trans hhi (by decide)⟩
  have hrange : IntegerRange.int64.lo ≤ t.toInt ∧ t.toInt ≤ IntegerRange.int64.hi :=
    ⟨hlo, Int.le_sub_one_of_lt hhi⟩
  have h := (Reader.reads_integer hword hrange).map Int64.ofInt
  rwa [Int64.ofInt_toInt] at h

/-- A natural number is read back if the range holds it. -/
theorem reads_natural {α : Type} (range : IntegerRange) (f : ℤ → α) {k : ℕ} (hlo : range.lo = 0)
    (hhi : (k : ℤ) ≤ range.hi) (hword : k < UInt64.size) :
    ((Reader.integer range).map f).Reads ((Document.integer k).spell l n) (f k) := by
  have hrange : range.lo ≤ (k : ℤ) ∧ (k : ℤ) ≤ range.hi := by
    rw [hlo]
    exact ⟨Int.natCast_nonneg k, hhi⟩
  exact (Reader.reads_integer ⟨by omega, Int.ofNat_lt.2 hword⟩ hrange).map f

/-- The slots of a guess are strings of one character each. -/
theorem reads_slots (s : List Char) :
    Reader.character.array.Reads
      ((Document.array (s.map fun c => .text [c])).spell l n) s :=
  Reader.reads_array l n fun c _ => (Reader.reads_text [c]).mapOption rfl

/-! ## Requests -/

/-- The members of a request, and what reading them does. -/
def requestFills (r : Request) : List (Fill Request) :=
  [⟨"guess", .array (r.slots.map fun c => .text [c]), fun q => { q with slots := r.slots }⟩,
    ⟨"targetValue", .integer r.target.toInt, fun q => { q with target := r.target }⟩]

theorem complete_requestFills (r : Request) :
    Fill.Complete l n requestSlots (requestFills r) where
  names := by decide
  fits m hm := by
    simp only [requestFills, List.mem_cons, List.not_mem_nil, or_false] at hm
    obtain rfl | rfl := hm
    · exact ⟨requestSlots[0], List.getElem_mem _, rfl, (reads_slots r.slots).map _⟩
    · exact ⟨requestSlots[1], List.getElem_mem _, rfl, (reads_target r.target).map _⟩
  nodup := by
    show ["guess".toList, "targetValue".toList].Nodup
    decide
  full := by
    show ∀ slot ∈ requestSlots, slot.optional = true ∨
      slot.name ∈ ["guess".toList, "targetValue".toList]
    decide

/-- **A request is read back.** -/
theorem reads_request (r : Request) : requestReader.Reads ((requestDocument r).spell l n) r :=
  Reader.reads_record (complete_requestFills r) ⟨[], 0⟩

/-! ## Challenges -/

/-- The members of a challenge, and what reading them does. -/
def challengeFills (c : Challenge) : List (Fill Challenge) :=
  [⟨"targetValue", .integer c.target.toInt, fun q => { q with target := c.target }⟩,
    ⟨"difficulty", .integer c.difficulty.toNat, fun q => { q with difficulty := c.difficulty }⟩,
    ⟨"equationLength", .integer c.length, fun q => { q with length := c.length }⟩]

theorem complete_challengeFills (c : Challenge) (h : c.length < UInt64.size) :
    Fill.Complete l n challengeSlots (challengeFills c) where
  names := by decide
  fits m hm := by
    simp only [challengeFills, List.mem_cons, List.not_mem_nil, or_false] at hm
    have hdifficulty : c.difficulty.toNat < 2 ^ 8 := c.difficulty.toNat_lt
    obtain rfl | rfl | rfl := hm
    · exact ⟨challengeSlots[0], List.getElem_mem _, rfl, (reads_target c.target).map _⟩
    · have hread := reads_natural (l := l) (n := n) .uint8 (fun z => UInt8.ofNat z.toNat) rfl
        (Int.ofNat_le.2 (Nat.le_of_lt_succ hdifficulty)) (lt_trans hdifficulty (by decide))
      rw [Int.toNat_natCast, UInt8.ofNat_toNat] at hread
      exact ⟨challengeSlots[1], List.getElem_mem _, rfl, hread.map _⟩
    · have hread := reads_natural (l := l) (n := n) .uint64 Int.toNat rfl
        (Int.ofNat_le.2 (Nat.le_of_lt_succ h)) h
      rw [Int.toNat_natCast] at hread
      exact ⟨challengeSlots[2], List.getElem_mem _, rfl, hread.map _⟩
  nodup := by
    show ["targetValue".toList, "difficulty".toList, "equationLength".toList].Nodup
    decide
  full := by
    show ∀ slot ∈ challengeSlots, slot.optional = true ∨
      slot.name ∈ ["targetValue".toList, "difficulty".toList, "equationLength".toList]
    decide

/-- **A challenge is read back** if its length fits into 64 bits. -/
theorem reads_challenge (c : Challenge) (h : c.length < UInt64.size) :
    challengeReader.Reads ((challengeDocument c).spell l n) c :=
  Reader.reads_record (complete_challengeFills c h) ⟨0, 0, 0⟩

/-! ## Whole texts -/

/-- A document that is read back in every layout is read back from both forms. -/
theorem decode_of_spell {α : Type} {r : Reader α} {d : Document} {v : α}
    (h : ∀ l, r.Reads (d.spell l 0) v) :
    decode r d.compact = .ok v ∧ decode r d.pretty = .ok v :=
  ⟨decode_of_reads (Document.toList_compact d 0) (h .compact),
    decode_of_reads (Document.toList_pretty d) (h .pretty)⟩

/-- **Requests, challenges and feedback that are written and read back**, without spaces or on
indented lines, are the same as before. -/
theorem decode_exact (r : Request) (f : Feedback) (c : Challenge) (h : c.length < UInt64.size) :
    (decode requestReader (requestDocument r).compact = .ok r ∧
      decode requestReader (requestDocument r).pretty = .ok r) ∧
    (decode challengeReader (challengeDocument c).compact = .ok c ∧
      decode challengeReader (challengeDocument c).pretty = .ok c) ∧
    (decode feedbackReader (feedbackDocument f).compact = .ok f ∧
      decode feedbackReader (feedbackDocument f).pretty = .ok f) :=
  ⟨decode_of_spell fun _ => reads_request r, decode_of_spell fun _ => reads_challenge c h,
    decode_of_spell fun _ => reads_feedback f⟩

/-- Characters with an escape and without one, and both ends of each range of integers. -/
theorem decode_extremes :
    let r : Request := ⟨['"', '\\', '\x00', '\n', '\x7f', '×', '😀'], Int64.minValue⟩
    let c : Challenge := ⟨Int64.maxValue, 255, UInt64.size - 1⟩
    c.length < UInt64.size ∧
      decode requestReader (requestDocument r).compact = .ok r ∧
      decode challengeReader (challengeDocument c).pretty = .ok c := by
  intro r c
  have hlength : c.length < UInt64.size := by decide
  obtain ⟨hrequest, hchallenge, -⟩ := decode_exact r ⟨[]⟩ c hlength
  exact ⟨hlength, hrequest.1, hchallenge.2⟩

end HiddenEquation.Wire
