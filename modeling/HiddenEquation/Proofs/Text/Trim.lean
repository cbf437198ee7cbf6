import HiddenEquation.Text.Blank
import Mathlib.Data.List.DropRight

/-!
# What trimming leaves

Trimming takes the blanks away from both ends of a text, and nothing else.  `Text.IsCore` says which
text is left without saying how it is found, and there is one such text only.

* `Text.isCore_trim` : what trimming leaves is such a text.
* `Text.trim_eq_iff` : it is the only one.
* `Text.trim_trim`, `Text.trim_map` : trimming twice, and trimming what has been replaced.
-/

namespace HiddenEquation.Text

variable {s t : List Char}

/-- A text with no blank at either end, which is all of another text but for blanks around it. -/
structure IsCore (t s : List Char) : Prop where
  padded : ∃ front back, s = front ++ (t ++ back) ∧ (∀ c ∈ front, isBlank c = true) ∧
    ∀ c ∈ back, isBlank c = true
  head : ∀ c ∈ t.head?, isBlank c = false
  last : ∀ c ∈ t.getLast?, isBlank c = false

theorem trimEnd_eq_rdropWhile (s : List Char) : trimEnd s = s.rdropWhile isBlank := rfl

/-! ## Blanks around a text -/

/-- Blanks in front of a text go. -/
theorem trimStart_append {front : List Char} (h : ∀ c ∈ front, isBlank c = true)
    (s : List Char) : trimStart (front ++ s) = trimStart s :=
  List.dropWhile_append_of_pos h

/-- Blanks behind a text go. -/
theorem trimEnd_append {back : List Char} (h : ∀ c ∈ back, isBlank c = true) (s : List Char) :
    trimEnd (s ++ back) = trimEnd s := by
  have hreverse : ∀ c ∈ back.reverse, isBlank c = true := by
    intro c hc
    exact h c (List.mem_reverse.1 hc)
  rw [trimEnd, List.reverse_append, List.dropWhile_append_of_pos hreverse, trimEnd]

theorem trimStart_eq_self (h : ∀ c ∈ s.head?, isBlank c = false) : trimStart s = s := by
  cases s with
  | nil => rfl
  | cons c s =>
    have hc : isBlank c = false := h c rfl
    rw [trimStart, List.dropWhile_cons_of_neg (by simp [hc])]

theorem trimEnd_eq_self (h : ∀ c ∈ s.getLast?, isBlank c = false) : trimEnd s = s := by
  have hreverse : trimStart s.reverse = s.reverse := by
    apply trimStart_eq_self
    intro c hc
    rw [List.head?_reverse] at hc
    exact h c hc
  rw [trimEnd]
  exact (congrArg List.reverse hreverse).trans s.reverse_reverse

/-- Blanks alone leave nothing. -/
theorem trimStart_of_blanks (h : ∀ c ∈ s, isBlank c = true) : trimStart s = [] := by
  rw [← List.append_nil s, trimStart_append h]
  rfl

/-! ## What is left -/

theorem isCore_trim (s : List Char) : IsCore (trim s) s where
  padded := by
    refine ⟨s.takeWhile isBlank, (trimStart s).rtakeWhile isBlank, ?_, ?_, ?_⟩
    · rw [trim, trimEnd_eq_rdropWhile, List.rdropWhile_append_rtakeWhile, trimStart,
        List.takeWhile_append_dropWhile]
    · intro c hc
      exact List.mem_takeWhile_imp hc
    · intro c hc
      exact List.mem_rtakeWhile_imp hc
  head := by
    intro c hc
    -- The first character left is the one in front of which trimming the start has stopped.
    have hinit : trim s <+: trimStart s := List.rdropWhile_prefix isBlank _
    have hfront : (trimStart s).head? = some c := by
      obtain ⟨rest, hrest⟩ := hinit
      rw [← hrest, List.head?_append, Option.mem_def.1 hc, Option.some_or]
    have hstop := List.head?_dropWhile_not isBlank s
    rw [← trimStart, hfront] at hstop
    exact hstop
  last := by
    intro c hc
    have hne : trim s ≠ [] := by
      intro hnil
      rw [hnil] at hc
      cases hc
    have hlast : ¬isBlank ((trim s).getLast hne) = true := List.rdropWhile_last_not isBlank _ hne
    rw [Option.mem_def, List.getLast?_eq_some_getLast hne, Option.some.injEq] at hc
    rw [hc] at hlast
    exact Bool.not_eq_true _ ▸ hlast

/-- A text without blanks at its ends is all of itself. -/
theorem isCore_self (hhead : ∀ c ∈ s.head?, isBlank c = false)
    (hlast : ∀ c ∈ s.getLast?, isBlank c = false) : IsCore s s where
  padded := ⟨[], [], by simp, by simp, by simp⟩
  head := hhead
  last := hlast

theorem IsCore.trim_eq (h : IsCore t s) : trim s = t := by
  obtain ⟨front, back, rfl, hfront, hback⟩ := h.padded
  rw [trim, trimStart_append hfront]
  cases t with
  | nil =>
    rw [List.nil_append, trimStart_of_blanks hback]
    rfl
  | cons c t =>
    have hhead : ∀ d ∈ (c :: t ++ back).head?, isBlank d = false := fun d hd => h.head d hd
    rw [trimStart_eq_self hhead, trimEnd_append hback, trimEnd_eq_self h.last]

/-- **What trimming leaves** is the text without blanks at its ends that is all of the text given
but for blanks around it. -/
theorem trim_eq_iff : trim s = t ↔ IsCore t s :=
  ⟨fun h => h ▸ isCore_trim s, fun h => h.trim_eq⟩

/-- Blanks around a text do not matter. -/
theorem trim_append {front back : List Char} (hfront : ∀ c ∈ front, isBlank c = true)
    (hback : ∀ c ∈ back, isBlank c = true) (s : List Char) :
    trim (front ++ (s ++ back)) = trim s := by
  obtain ⟨front', back', hs, hfront', hback'⟩ := (isCore_trim s).padded
  refine trim_eq_iff.2 ⟨⟨front ++ front', back' ++ back, ?_, ?_, ?_⟩, (isCore_trim s).head,
    (isCore_trim s).last⟩
  · conv_lhs => rw [hs]
    simp only [List.append_assoc]
  · intro c hc
    exact (List.mem_append.1 hc).elim (hfront c) (hfront' c)
  · intro c hc
    exact (List.mem_append.1 hc).elim (hback' c) (hback c)

/-- Trimming twice is trimming once. -/
theorem trim_trim (s : List Char) : trim (trim s) = trim s :=
  (isCore_self (isCore_trim s).head (isCore_trim s).last).trim_eq

/-- Trimming does not mind a replacement that makes and takes no blanks. -/
theorem trim_map {f : Char → Char} (h : ∀ c, isBlank (f c) = isBlank c) (s : List Char) :
    trim (s.map f) = (trim s).map f := by
  have hcomp : isBlank ∘ f = isBlank := funext h
  rw [trim, trim, trimEnd, trimEnd, trimStart, trimStart, List.dropWhile_map, hcomp,
    ← List.map_reverse, List.dropWhile_map, hcomp, List.map_reverse]

theorem mem_of_mem_trim {c : Char} (h : c ∈ trim s) : c ∈ s := by
  obtain ⟨front, back, hs, -, -⟩ := (isCore_trim s).padded
  rw [hs]
  exact List.mem_append_right front (List.mem_append_left back h)

end HiddenEquation.Text
