import HiddenEquation.Dialogue
import HiddenEquation.Proofs.Text.Pieces

/-!
# Lines of a text and lines of its bytes

Cutting a text commutes with writing each of its characters out, as long as the separator alone is
written with the separator.  In UTF-8 a line break is such a separator: no other character has its
byte.

* `Text.terminated_append_cons` : cutting what follows a break.
* `Text.isLines_iff` : the lines of a text, by what they have to be.
* `Text.terminated_flatMap` : cutting what is written out.
* `Dialogue.linesOfBytes_toUTF8` : the lines of the bytes of a text.
* `Dialogue.linesOfBytes_enter` : what one more line adds.
-/

namespace HiddenEquation

namespace Text

variable {α β : Type} [DecidableEq α] [DecidableEq β]

/-! ## Terminated pieces -/

/-- A break ends a line, and the lines of what follows it are cut on their own. -/
theorem terminated_append_cons (stop : α) (u s : List α) :
    terminated stop (u ++ stop :: s) = pieces stop u ++ terminated stop s := by
  have hne := pieces_ne_nil stop s
  have hlast : (pieces stop u ++ pieces stop s).getLast? = (pieces stop s).getLast? := by
    rw [List.getLast?_append, Option.or_of_isSome (List.getLast?_isSome.2 hne)]
  rw [terminated, terminated, pieces_append_cons, hlast, List.dropLast_append_of_ne_nil hne]
  split <;> rfl

/-- The lines of a text whose last line has been ended. -/
theorem terminated_concat (stop : α) (u : List α) :
    terminated stop (u ++ [stop]) = pieces stop u := by
  rw [terminated_append_cons, terminated, pieces, if_pos (by rfl), List.dropLast_singleton,
    List.append_nil]

theorem not_mem_of_mem_terminated {stop : α} {s p : List α} (h : p ∈ terminated stop s) :
    stop ∉ p := by
  rw [terminated] at h
  split at h
  · exact not_mem_of_mem_pieces (List.dropLast_subset _ h)
  · exact not_mem_of_mem_pieces h

/-- The lines of a text: what each break ends, and what is left behind the last break unless that
is nothing. -/
inductive IsLines (stop : α) : List α → List (List α) → Prop where
  | none : IsLines stop [] []
  | last {u : List α} (hne : u ≠ []) (hu : stop ∉ u) : IsLines stop u [u]
  | ended {u s : List α} {lines : List (List α)} (hu : stop ∉ u) (hs : IsLines stop s lines) :
      IsLines stop (u ++ stop :: s) (u :: lines)

/-- Without a break there is one line, or none if there is nothing at all. -/
theorem terminated_of_not_mem {stop : α} {u : List α} (hu : stop ∉ u) :
    terminated stop u = if u = [] then [] else [u] := by
  rw [terminated, pieces_of_not_mem hu, List.getLast?_singleton]
  simp only [Option.some.injEq]
  rfl

theorem isLines_terminated (stop : α) (s : List α) : IsLines stop s (terminated stop s) := by
  by_cases h : stop ∈ s
  · -- Up to the first break, which ends a line.
    obtain ⟨u, rest, hs, hu⟩ := List.eq_append_cons_of_mem h
    have hshorter : rest.length < s.length := by
      rw [hs, List.length_append, List.length_cons]
      omega
    rw [hs, terminated_append_cons, pieces_of_not_mem hu, List.singleton_append]
    exact .ended hu (isLines_terminated stop rest)
  · rw [terminated_of_not_mem h]
    split
    · rename_i hnil
      rw [hnil]
      exact .none
    · rename_i hne
      exact .last hne h
termination_by s.length

/-- **The lines of a text** are the ones found by cutting it, and no others. -/
theorem isLines_iff {stop : α} {s : List α} {lines : List (List α)} :
    IsLines stop s lines ↔ terminated stop s = lines := by
  constructor
  · intro h
    induction h with
    | none => rfl
    | last hne hu => rw [terminated_of_not_mem hu, if_neg hne]
    | ended hu _ ih =>
      rw [terminated_append_cons, pieces_of_not_mem hu, ih, List.singleton_append]
  · rintro rfl
    exact isLines_terminated stop s

theorem terminated_flatMap {f : β → List α} {sep : β} {stop : α} (hsep : f sep = [stop])
    (hother : ∀ b, b ≠ sep → stop ∉ f b) (hne : ∀ b, f b ≠ []) (s : List β) :
    terminated stop (s.flatMap f) = (terminated sep s).map fun p => p.flatMap f := by
  have hempty (p : List β) : p.flatMap f = [] ↔ p = [] := by
    rw [List.flatMap_eq_nil_iff]
    exact ⟨fun hall => List.eq_nil_iff_forall_not_mem.2 fun b hb => hne b (hall b hb),
      fun hp b hb => absurd (hp ▸ hb) (List.not_mem_nil)⟩
  have hlast : ((pieces sep s).map fun p => p.flatMap f).getLast? = some [] ↔
      (pieces sep s).getLast? = some [] := by
    rw [List.getLast?_map, Option.map_eq_some_iff]
    simp only [hempty, exists_eq_right]
  rw [terminated, terminated, pieces_flatMap hsep hother]
  simp only [hlast]
  split
  · rw [List.map_dropLast]
  · rfl

end Text

/-! ## UTF-8 -/

namespace Dialogue

theorem break_ne_ofNat {n : Nat} (hlt : n < 256) (hne : n ≠ 10) : 10 ≠ UInt8.ofNat n := by
  intro h
  have hn := congrArg UInt8.toNat h
  rw [UInt8.toNat_ofNat_of_lt' hlt] at hn
  exact hne hn.symm

/-- No character but the line break is written with its byte: a character is written as its own
code below `0x80`, and with bytes from `0x80` on otherwise. -/
theorem break_not_mem_utf8EncodeChar {c : Char} (h : c ≠ '\n') : 10 ∉ String.utf8EncodeChar c := by
  have hcode : c.val.toNat ≠ 10 := fun hn => h (Char.ext (UInt32.toNat_inj.1 hn))
  have hhigh (x : Nat) {m base : Nat} (h : 0 < m ∧ 0x80 ≤ base ∧ m + base ≤ 256) :
      10 ≠ UInt8.ofNat (x % m + base) := by
    have hx := Nat.mod_lt x h.1
    exact break_ne_ofNat (by omega) (by omega)
  rw [String.utf8EncodeChar]
  split
  · rw [List.mem_singleton]
    exact break_ne_ofNat (by omega) hcode
  · split
    · simp only [List.mem_cons, List.not_mem_nil, or_false, not_or]
      exact ⟨hhigh _ (by decide), hhigh _ (by decide)⟩
    · split <;> simp only [List.mem_cons, List.not_mem_nil, or_false, not_or]
      · exact ⟨hhigh _ (by decide), hhigh _ (by decide), hhigh _ (by decide)⟩
      · exact ⟨hhigh _ (by decide), hhigh _ (by decide), hhigh _ (by decide), hhigh _ (by decide)⟩

theorem utf8EncodeChar_break : String.utf8EncodeChar '\n' = [10] := by decide

/-- The bytes of a text are those of its characters. -/
theorem toList_toUTF8 (s : String) :
    s.toUTF8.data.toList = s.toList.flatMap String.utf8EncodeChar := by
  rw [String.toUTF8_eq_toByteArray, ← String.utf8Encode_toList, List.utf8Encode,
    List.toList_data_toByteArray]

/-- The bytes of a text are read as the text. -/
theorem fromUTF8?_toUTF8 (s : String) : String.fromUTF8? s.toUTF8 = some s :=
  dif_pos s.isValidUTF8

theorem fromUTF8?_encoded (p : List Char) :
    String.fromUTF8? (ByteArray.mk (p.flatMap String.utf8EncodeChar).toArray) =
      some (String.ofList p) := by
  have hbytes : ByteArray.mk (p.flatMap String.utf8EncodeChar).toArray =
      (String.ofList p).toUTF8 := by
    apply ByteArray.ext
    rw [String.toUTF8_eq_toByteArray, String.toByteArray_ofList, List.utf8Encode,
      List.data_toByteArray]
  rw [hbytes, fromUTF8?_toUTF8]

/-- **The lines of the bytes of a text** are the lines of the text. -/
theorem linesOfBytes_toUTF8 (s : String) :
    linesOfBytes s.toUTF8.data.toList = (Text.terminated '\n' s.toList).map some := by
  rw [linesOfBytes, toList_toUTF8, Text.terminated_flatMap utf8EncodeChar_break
    (fun c => break_not_mem_utf8EncodeChar) (fun c => String.utf8EncodeChar_ne_nil), List.map_map]
  apply List.map_congr_left
  intro p _
  show (String.fromUTF8? _).map String.toList = some p
  rw [fromUTF8?_encoded, Option.map_some, String.toList_ofList]

/-- **Entering a line.**  After lines that have been ended, a text without a break in it and a
break make the next line, whatever follows. -/
theorem linesOfBytes_enter {before : String} {u : List Char} (hu : '\n' ∉ u)
    (hbefore : before = "" ∨ ∃ s, before = s ++ "\n") (after : String) :
    linesOfBytes (before ++ String.ofList u ++ "\n" ++ after).toUTF8.data.toList =
      linesOfBytes before.toUTF8.data.toList ++ some u ::
        linesOfBytes after.toUTF8.data.toList := by
  have hline : Text.terminated '\n' (u ++ '\n' :: after.toList) =
      u :: Text.terminated '\n' after.toList := by
    rw [Text.terminated_append_cons, Text.pieces_of_not_mem hu, List.singleton_append]
  have hlines : Text.terminated '\n' (before.toList ++ (u ++ '\n' :: after.toList)) =
      Text.terminated '\n' before.toList ++ u :: Text.terminated '\n' after.toList := by
    rcases hbefore with rfl | ⟨s, rfl⟩
    · exact hline
    · have hbreak : "\n".toList = ['\n'] := rfl
      rw [String.toList_append, hbreak, Text.terminated_concat, List.append_assoc,
        List.singleton_append, Text.terminated_append_cons, hline]
  simp only [linesOfBytes_toUTF8, String.toList_append, String.toList_ofList, List.append_assoc]
  rw [← List.map_cons, ← List.map_append, ← hlines]
  rfl

end Dialogue

end HiddenEquation
