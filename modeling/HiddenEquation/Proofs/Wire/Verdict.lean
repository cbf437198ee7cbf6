import HiddenEquation.Proofs.Json.Double
import HiddenEquation.Wire

/-!
# Verdicts that are sent

A verdict that is written as a JSON document, in either of the two forms, is read back with its
marks, its flags and its message, and with a value exactly if it had one.  The value is what
`reread` makes of it, the same double if `ReadExactly` holds.

* `reads_verdict` : the members of a verdict, in any layout.
* `decode_verdictDocument` : both forms, read back.
-/

namespace HiddenEquation.Wire

open Json Decimal

/-! ## The members of a verdict -/

variable {l : Layout} {n : ℕ}

theorem lookup_markName (m : Mark) : markNames.lookup (markName m).toList = some m := by
  cases m <;> decide

theorem reads_feedback (f : Feedback) : feedbackReader.Reads ((feedbackDocument f).spell l n) f :=
  (Reader.reads_array l n fun m _ => Reader.reads_variant (lookup_markName m)).map Feedback.mk

theorem reads_message (s : String) :
    (Reader.text.map String.ofList).Reads ((Document.text s.toList).spell l n) s := by
  have h := (Reader.reads_text s.toList).map String.ofList
  rwa [String.ofList_toList] at h

/-- The members of a verdict, and what reading them does. -/
def verdictFills (v : Verdict) : List (Fill Verdict) :=
  [⟨"states", feedbackDocument v.feedback, fun w => { w with feedback := v.feedback }⟩,
    ⟨"valid", .bool v.valid, fun w => { w with valid := v.valid }⟩,
    ⟨"solved", .bool v.solved, fun w => { w with solved := v.solved }⟩]
  ++ (v.value.map fun x =>
      ⟨"calculatedValue", .double x, fun w => { w with value := some (reread x) }⟩).toList
  ++ (v.message.map fun s =>
      ⟨"message", .text s.toList, fun w => { w with message := some s }⟩).toList

theorem verdictDocument_eq (v : Verdict) :
    verdictDocument v = .object ((verdictFills v).map Fill.member) := by
  obtain ⟨f, valid, solved, value, message⟩ := v
  cases value <;> cases message <;> rfl

theorem names_verdictFills (v : Verdict) : (verdictFills v).map (fun m => m.name.toList) =
    ["states".toList, "valid".toList, "solved".toList]
      ++ (if v.value.isSome then ["calculatedValue".toList] else [])
      ++ (if v.message.isSome then ["message".toList] else []) := by
  obtain ⟨f, valid, solved, value, message⟩ := v
  cases value <;> cases message <;> rfl

theorem complete_verdictFills (v : Verdict) (h : ∀ x ∈ v.value, x.isFinite = true) :
    Fill.Complete l n verdictSlots (verdictFills v) where
  names := by decide
  fits m hm := by
    simp only [verdictFills, List.mem_append, List.mem_cons, Option.mem_toList, List.not_mem_nil,
      or_false, Option.map_eq_some_iff] at hm
    obtain ((rfl | rfl | rfl) | ⟨x, hx, rfl⟩) | ⟨s, hs, rfl⟩ := hm
    · exact ⟨verdictSlots[0], List.getElem_mem _, rfl, (reads_feedback v.feedback).map _⟩
    · exact ⟨verdictSlots[1], List.getElem_mem _, rfl, (Reader.reads_bool v.valid).map _⟩
    · exact ⟨verdictSlots[2], List.getElem_mem _, rfl, (Reader.reads_bool v.solved).map _⟩
    · exact ⟨verdictSlots[3], List.getElem_mem _, rfl,
        (Reader.reads_double (h x hx)).optional.map _⟩
    · exact ⟨verdictSlots[4], List.getElem_mem _, rfl, (reads_message s).optional.map _⟩
  nodup := by
    rw [names_verdictFills]
    cases v.value.isSome <;> cases v.message.isSome <;> decide
  full := by
    rw [names_verdictFills]
    cases v.value.isSome <;> cases v.message.isSome <;> decide

/-- **A verdict is read back** with the double that is read where its value was written. -/
theorem reads_verdict (v : Verdict) (h : ∀ x ∈ v.value, x.isFinite = true) :
    verdictReader.Reads ((verdictDocument v).spell l n) { v with value := v.value.map reread } := by
  have hread := Reader.reads_record (complete_verdictFills (l := l) (n := n + 1) v h)
    ⟨⟨[]⟩, false, false, none, none⟩
  rw [verdictDocument_eq]
  obtain ⟨f, valid, solved, value, message⟩ := v
  cases value <;> cases message <;> exact hread

/-! ## Whole texts -/

theorem decode_of_reads {α : Type} {r : Reader α} {text : String} {s : List Char} {v : α}
    (htext : text.toList = s) (h : r.Reads s v) : decode r text = .ok v := by
  rw [decode, htext]
  exact h.readAll

/-- **A verdict that is written and read back**, without spaces or on indented lines, keeps all but
its value.  Of the value the whole number of its digits is multiplied with the power of ten or
divided by it, in two steps if the power is greater than `10 ^ 308`; the value is kept if its digits
are read exactly, as those of a whole number are that stays below `2 ^ 53` with one zero more. -/
theorem decode_verdictDocument (v : Verdict) (h : ∀ x ∈ v.value, x.isFinite = true) :
    decode verdictReader (verdictDocument v).compact = .ok { v with value := v.value.map reread } ∧
      decode verdictReader (verdictDocument v).pretty =
        .ok { v with value := v.value.map reread } ∧
      (∀ x ∈ v.value, ∃ negative d y, Binary64.ofFloat x = .finite negative d ∧
        Rescales (asRead d) y ∧ reread x = if negative then -y else y) ∧
      (∀ x ∈ v.value, ReadExactly x → reread x = x) ∧
      ∀ z : ℤ, 10 * z.natAbs < 2 ^ 53 → ReadExactly (Float.ofInt z) :=
  ⟨decode_of_reads (Document.toList_compact _ 0) (reads_verdict v h),
    decode_of_reads (Document.toList_pretty _) (reads_verdict v h),
    fun x hx => exists_rescales_of_isFinite (h x hx), fun _ _ hx => hx.reread_eq,
    fun _ hz => readExactly_ofInt hz⟩

/-- A solved puzzle with the value `42.0`, which comes back. -/
theorem decode_graded_fortyTwo :
    (42 : Float).isFinite = true ∧ ReadExactly 42 ∧
      decode verdictReader (verdictDocument (.graded ⟨[.correct]⟩ 42)).compact =
        .ok (.graded ⟨[.correct]⟩ 42) ∧
      decode verdictReader (verdictDocument (.graded ⟨[.correct]⟩ 42)).pretty =
        .ok (.graded ⟨[.correct]⟩ 42) := by
  have hfinite : (42 : Float).isFinite = true := by decide +kernel
  have hexact : ReadExactly 42 := by
    refine ⟨false, ⟨42 * 2 ^ 47, -47⟩, ?_, ?_, ?_⟩ <;> decide +kernel
  obtain ⟨hcompact, hpretty, -, hvalue, -⟩ :=
    decode_verdictDocument (.graded ⟨[.correct]⟩ 42) (fun x hx => by cases hx; exact hfinite)
  have hkept : { Verdict.graded ⟨[.correct]⟩ 42 with value := some (reread 42) } =
      Verdict.graded ⟨[.correct]⟩ 42 := by
    rw [hvalue 42 rfl hexact]
    rfl
  exact ⟨hfinite, hexact, hcompact.trans (congrArg _ hkept), hpretty.trans (congrArg _ hkept)⟩

/-- One less than `2 ^ 53` is sent with one digit too many to be read exactly, and comes back one
less, although it is the value of a solution. -/
theorem not_decode_verdictDocument : ¬∀ v : Verdict, (∀ x ∈ v.value, x.isFinite = true) →
    decode verdictReader (verdictDocument v).compact = .ok v ∧
      decode verdictReader (verdictDocument v).pretty = .ok v := by
  intro h
  let v := Verdict.graded ⟨List.replicate 16 .correct⟩ 9007199254740991
  have hfinite : ∀ x ∈ v.value, x.isFinite = true := by
    intro x hx
    cases hx
    decide +kernel
  have hkept := (h v hfinite).1
  rw [decode_of_reads (Document.toList_compact _ 0) (reads_verdict v hfinite)] at hkept
  have hvalue : reread 9007199254740991 = 9007199254740991 :=
    Option.some.inj (congrArg Verdict.value (Except.ok.inj hkept))
  exact absurd (congrArg Float.toBits hvalue) (by decide +kernel)

end HiddenEquation.Wire
