import HiddenEquation.Json.Shape
import HiddenEquation.Proofs.Json.Layout

/-!
# Reading what was written

A reader takes back a value from a text, `Reader.Reads`, if it finds the value wherever the text
stands: after any space, and before anything with which a numeral cannot go on.  A text that is
made of parts is read because its parts are.

* `Reader.reads_text`, `Reader.reads_bool`, `Reader.reads_variant` : the scalars.
* `Reader.reads_array` : an array, from its elements.
* `Reader.reads_record` : a record, from its members.
-/

namespace HiddenEquation.Json

/-! ## Space -/

theorem skipSpace_append {before : List Char} (h : ∀ c ∈ before, isSpace c = true)
    (s : List Char) : skipSpace (before ++ s) = skipSpace s :=
  List.dropWhile_append_of_pos h

theorem skipSpace_cons {c : Char} (h : isSpace c = false) (s : List Char) :
    skipSpace (c :: s) = c :: s :=
  List.dropWhile_cons_of_neg (by rw [h]; exact Bool.false_ne_true)

/-- A text before which a numeral ends. -/
def EndsNumeral (rest : List Char) : Prop :=
  ∀ c ∈ rest.head?, c.isDigit = false ∧ c ≠ '.' ∧ c ≠ 'e' ∧ c ≠ 'E'

theorem endsNumeral_nil : EndsNumeral [] := by simp [EndsNumeral]

theorem endsNumeral_cons {c : Char} (rest : List Char)
    (h : c.isDigit = false ∧ c ≠ '.' ∧ c ≠ 'e' ∧ c ≠ 'E') : EndsNumeral (c :: rest) := by
  intro d hd
  rw [List.head?_cons, Option.mem_some] at hd
  rw [← hd]
  exact h

theorem endsNumeral_of_isSpace {before s : List Char} (hs : EndsNumeral s)
    (h : ∀ c ∈ before, isSpace c = true) : EndsNumeral (before ++ s) := by
  cases before with
  | nil => exact hs
  | cons c cs =>
    apply endsNumeral_cons
    have hc := h c List.mem_cons_self
    simp only [isSpace, Bool.or_eq_true, beq_iff_eq] at hc
    obtain ((rfl | rfl) | rfl) | rfl := hc <;> decide

/-- After an item a numeral ends. -/
theorem endsNumeral_more (l : Layout) (n : Nat) (close : Char)
    (hclose : close.isDigit = false ∧ close ≠ '.' ∧ close ≠ 'e' ∧ close ≠ 'E')
    (ts : List (List Char)) (rest : List Char) : EndsNumeral (l.more n close ts ++ rest) := by
  cases ts with
  | nil =>
    rw [Layout.more, List.append_assoc]
    exact endsNumeral_of_isSpace (endsNumeral_cons rest hclose) (l.isSpace_gap n)
  | cons t ts => exact endsNumeral_cons _ (by decide)

namespace Reader

variable {α β σ : Type}

/-- A reader takes back a value from a text, wherever the text stands. -/
structure Reads (r : Reader α) (s : List Char) (v : α) : Prop where
  starts : ∃ c t, s = c :: t ∧ isSpace c = false ∧ c ≠ ']' ∧ c ≠ 'n'
  run : ∀ before rest, (∀ c ∈ before, isSpace c = true) → EndsNumeral rest →
    r.run (before ++ (s ++ rest)) = .ok (v, rest)

namespace Reads

variable {r : Reader α} {s : List Char} {v : α}

theorem run_append (h : r.Reads s v) {rest : List Char} (hrest : EndsNumeral rest) :
    r.run (s ++ rest) = .ok (v, rest) :=
  h.run [] rest (by simp) hrest

/-- Space in front of the text is passed over. -/
theorem skipSpace_append (h : r.Reads s v) {before : List Char}
    (hbefore : ∀ c ∈ before, isSpace c = true) (rest : List Char) :
    skipSpace (before ++ (s ++ rest)) = s ++ rest := by
  obtain ⟨c, t, rfl, hc, -, -⟩ := h.starts
  rw [Json.skipSpace_append hbefore, List.cons_append, skipSpace_cons hc]

theorem map (h : r.Reads s v) (f : α → β) : (r.map f).Reads s (f v) where
  starts := h.starts
  run before rest hbefore hrest := by
    unfold Reader.map
    dsimp only
    rw [h.run before rest hbefore hrest]

theorem mapOption (h : r.Reads s v) {f : α → Option β} {w : β} (hf : f v = some w) :
    (r.mapOption f).Reads s w where
  starts := h.starts
  run before rest hbefore hrest := by
    unfold Reader.mapOption
    dsimp only
    rw [h.run before rest hbefore hrest]
    dsimp only
    rw [hf]

/-- A value that is there is not taken for `null`. -/
theorem optional (h : r.Reads s v) : r.optional.Reads s (some v) where
  starts := h.starts
  run before rest hbefore hrest := by
    obtain ⟨c, t, hs, -, -, hn⟩ := h.starts
    unfold Reader.optional
    dsimp only
    rw [(h.map some).run before rest hbefore hrest, h.skipSpace_append hbefore, hs]
    split
    · rename_i heq
      rw [List.cons_append, List.cons.injEq] at heq
      exact absurd heq.1 hn
    · rfl

/-- A whole text, with nothing after it. -/
theorem readAll (h : r.Reads s v) : r.readAll s = .ok v := by
  have hrun := h.run_append endsNumeral_nil
  rw [List.append_nil] at hrun
  rw [Reader.readAll, hrun]
  rfl

end Reads

/-! ## Scalars -/

theorem runFirst_append {f : Char → List Char → Outcome α} {before : List Char}
    (hbefore : ∀ c ∈ before, isSpace c = true) {c : Char} (hc : isSpace c = false)
    (s : List Char) : runFirst f (before ++ c :: s) = f c s := by
  rw [runFirst, Json.skipSpace_append hbefore, skipSpace_cons hc]

/-- A reader that decides by the first character reads what it makes of that character and of
what follows. -/
theorem reads_of_runFirst {r : Reader α} {f : Char → List Char → Outcome α}
    (hr : r.run = runFirst f) {c : Char} {t : List Char} {v : α}
    (hc : isSpace c = false ∧ c ≠ ']' ∧ c ≠ 'n')
    (h : ∀ rest, EndsNumeral rest → f c (t ++ rest) = .ok (v, rest)) : r.Reads (c :: t) v where
  starts := ⟨c, t, rfl, hc⟩
  run before rest hbefore hrest := by
    rw [hr, List.cons_append, runFirst_append hbefore hc.1]
    exact h rest hrest

theorem reads_text (s : List Char) : text.Reads (quote s) s := by
  apply reads_of_runFirst rfl (by decide)
  intro rest _
  rw [if_pos rfl, List.append_assoc]
  exact readContent_escape s rest

theorem reads_bool (b : Bool) :
    bool.Reads (if b then ['t', 'r', 'u', 'e'] else ['f', 'a', 'l', 's', 'e']) b := by
  cases b with
  | false => exact reads_of_runFirst rfl (by decide) fun rest _ => rfl
  | true => exact reads_of_runFirst rfl (by decide) fun rest _ => rfl

/-- A name is read as what it is the name of. -/
theorem reads_variant {names : List (List Char × α)} {name : List Char} {v : α}
    (h : names.lookup name = some v) : (variant names).Reads (quote name) v := by
  apply reads_of_runFirst rfl (by decide)
  intro rest hrest
  rw [if_neg (by decide), if_pos rfl]
  exact ((reads_text name).mapOption h).run_append hrest

/-! ## Arrays -/

theorem moreElements_close {r : Reader α} {s rest : List Char} (hs : skipSpace s = ']' :: rest) :
    moreElements r s = .ok ([], rest) := by
  rw [moreElements]
  split
  · rename_i h
    rw [hs, List.cons.injEq] at h
    rw [h.2]
  · rename_i h
    rw [hs] at h
    cases h
  · rename_i hclose _
    exact absurd hs (hclose rest)

theorem moreElements_comma {r : Reader α} {s cs item rest : List Char} {v : α} {vs : List α}
    (hs : skipSpace s = ',' :: cs) (hcs : skipSpace cs = item)
    (hitem : ∃ d ds, item = d :: ds ∧ d ≠ ']') {after : List Char}
    (hr : r.run item = .ok (v, after)) (hmore : moreElements r after = .ok (vs, rest)) :
    moreElements r s = .ok (v :: vs, rest) := by
  obtain ⟨d, ds, rfl, hd⟩ := hitem
  rw [moreElements]
  split
  · rename_i h
    rw [hs] at h
    cases h
  · rename_i h
    rw [hs, List.cons.injEq] at h
    obtain ⟨-, rfl⟩ := h
    split
    · rename_i h2
      rw [hcs] at h2
      cases h2
    · rename_i h2
      rw [hcs, List.cons.injEq] at h2
      exact absurd h2.1 hd
    · rename_i h2
      rw [hcs, List.cons.injEq] at h2
      obtain ⟨rfl, rfl⟩ := h2
      split
      · rename_i he
        rw [hr] at he
        cases he
      · rename_i he
        rw [hr] at he
        cases he
        rw [hmore]
  · rename_i hcomma
    exact absurd hs (hcomma cs)

section

variable {r : Reader α} {write : α → List Char}

theorem moreElements_more (l : Layout) (n : Nat) {vs : List α}
    (h : ∀ v ∈ vs, r.Reads (write v) v) (rest : List Char) :
    moreElements r (l.more n ']' (vs.map write) ++ rest) = .ok (vs, rest) := by
  induction vs with
  | nil =>
    apply moreElements_close
    rw [List.map_nil, Layout.more, List.append_assoc, skipSpace_append (l.isSpace_gap n)]
    exact skipSpace_cons (by decide) rest
  | cons v vs ih =>
    rw [List.forall_mem_cons] at h
    have hrun := h.1.run_append (endsNumeral_more l n ']' (by decide) (vs.map write) rest)
    have hskip := h.1.skipSpace_append (l.isSpace_gap (n + 1))
      (l.more n ']' (vs.map write) ++ rest)
    obtain ⟨d, ds, hwrite, -, hd, -⟩ := h.1.starts
    refine moreElements_comma ?_ hskip ⟨d, ds ++ _, by rw [hwrite]; rfl, hd⟩ hrun (ih h.2)
    rw [List.map_cons, Layout.more, List.cons_append, List.append_assoc, List.append_assoc]
    exact skipSpace_cons (by decide) _

theorem elements_listed (l : Layout) (n : Nat) {vs : List α} (h : ∀ v ∈ vs, r.Reads (write v) v)
    (rest : List Char) :
    elements r (l.listed n ']' (vs.map write) ++ rest) = .ok (vs, rest) := by
  cases vs with
  | nil => rfl
  | cons v vs =>
    rw [List.forall_mem_cons] at h
    have hrun := h.1.run_append (endsNumeral_more l n ']' (by decide) (vs.map write) rest)
    have hskip := h.1.skipSpace_append (l.isSpace_gap (n + 1))
      (l.more n ']' (vs.map write) ++ rest)
    obtain ⟨d, ds, hwrite, -, hd, -⟩ := h.1.starts
    rw [List.map_cons, Layout.listed, List.append_assoc, List.append_assoc, elements, hskip]
    split
    · rename_i heq
      rw [hwrite] at heq
      cases heq
    · rename_i heq
      rw [hwrite, List.cons_append, List.cons.injEq] at heq
      exact absurd heq.1 hd
    · rw [hrun]
      dsimp only
      rw [moreElements_more l n h.2 rest]

/-- An array is read as the list of its elements. -/
theorem reads_array {f : α → Document} (l : Layout) (n : Nat) {vs : List α}
    (h : ∀ v ∈ vs, r.Reads ((f v).spell l (n + 1)) v) :
    r.array.Reads ((Document.array (vs.map f)).spell l n) vs := by
  rw [Document.spell, Document.spellItems_map]
  apply reads_of_runFirst rfl (by decide)
  intro rest _
  rw [if_pos rfl]
  exact elements_listed l n h rest

end

/-! ## Records -/

/-- A name in quotes and what stands after it. -/
theorem quote_append (s rest : List Char) :
    quote s ++ rest = '"' :: (s.flatMap escape ++ '"' :: rest) := by
  rw [quote, List.cons_append, List.append_assoc]
  rfl

theorem readName_close {first : Bool} {s rest : List Char} (hs : skipSpace s = '\x7d' :: rest) :
    readName first s = .ok (none, rest) := by
  rw [readName, hs]
  exact if_pos rfl

theorem readName_first {name s rest : List Char} (hs : skipSpace s = quote name ++ rest) :
    readName true s = .ok (some name, rest) := by
  rw [readName, hs, quote_append]
  dsimp only
  rw [if_neg (by decide), if_pos rfl, if_pos rfl, readContent_escape]

theorem readName_next {name s t rest : List Char} (hs : skipSpace s = ',' :: t)
    (ht : skipSpace t = quote name ++ rest) : readName false s = .ok (some name, rest) := by
  rw [readName, hs]
  dsimp only
  rw [if_neg (by decide), if_neg Bool.false_ne_true, if_pos rfl, ht, quote_append]
  simp only [readContent_escape]

theorem afterColon_append {r : Reader α} (s : List Char) : r.afterColon.run (':' :: s) = r.run s :=
  rfl

theorem members_close {slots : List (Slot σ)} {first : Bool} {seen : List (List Char)} {acc : σ}
    {s rest : List Char} (hname : readName first s = .ok (none, rest))
    (hfull : ∀ slot ∈ slots, slot.optional = true ∨ slot.name ∈ seen) :
    members slots first seen acc s = .ok (acc, rest) := by
  have hall : (slots.all fun slot => slot.optional || seen.contains slot.name) = true := by
    rw [List.all_eq_true]
    intro slot hslot
    simpa using hfull slot hslot
  rw [members]
  split
  · rename_i h
    rw [hname] at h
    cases h
  · rename_i h
    rw [hname] at h
    cases h
    rw [if_pos hall]
  · rename_i h
    rw [hname] at h
    cases h

/-- One member is read, and the others follow. -/
theorem members_step {slots : List (Slot σ)} {first : Bool} {seen : List (List Char)} {acc : σ}
    {name s t rest : List Char} {slot : Slot σ} {f : σ → σ}
    (hname : readName first s = .ok (some name, t)) (hseen : name ∉ seen)
    (hslot : (slots.find? fun slot => slot.name = name) = some slot)
    (hread : slot.reader.afterColon.run t = .ok (f, rest)) :
    members slots first seen acc s = members slots false (name :: seen) (f acc) rest := by
  have hreader : memberReader slots name = slot.reader.afterColon := by rw [memberReader, hslot]
  have hany : (slots.any fun slot => slot.name = name) = true := by
    rw [List.any_eq_true]
    exact ⟨slot, List.mem_of_find?_eq_some hslot,
      List.find?_some (p := fun slot : Slot σ => decide (slot.name = name)) hslot⟩
  rw [members]
  split
  · rename_i h
    rw [hname] at h
    cases h
  · rename_i h
    rw [hname] at h
    cases h
  · rename_i h
    rw [hname] at h
    cases h
    rw [if_neg (by simpa using hseen)]
    split
    · rename_i h
      rw [hreader, hread] at h
      cases h
    · rename_i h
      rw [hreader, hread] at h
      cases h
      dsimp only
      rw [if_pos hany]

end Reader

/-- A member of a record as it is written, and what reading it does to the record. -/
structure Fill (σ : Type) where
  name : String
  value : Document
  change : σ → σ

namespace Fill

variable {σ : Type}

/-- The member of an object. -/
def member (m : Fill σ) : String × Document := (m.name, m.value)

/-- The member as it is written. -/
def text (l : Layout) (n : Nat) (m : Fill σ) : List Char := l.member m.name (m.value.spell l n)

/-- A slot of that name reads the member. -/
def Fits (l : Layout) (n : Nat) (slots : List (Slot σ)) (m : Fill σ) : Prop :=
  ∃ slot ∈ slots, slot.name = m.name.toList ∧ slot.reader.Reads (m.value.spell l n) m.change

/-- The record after several members. -/
def apply (ms : List (Fill σ)) (acc : σ) : σ := ms.foldl (fun acc m => m.change acc) acc

/-- The members of a record: each fits a slot, no two have one name and no two slots, and no slot
that must be filled is left. -/
structure Complete (l : Layout) (n : Nat) (slots : List (Slot σ)) (ms : List (Fill σ)) : Prop where
  names : (slots.map Slot.name).Nodup
  fits : ∀ m ∈ ms, m.Fits l n slots
  nodup : (ms.map fun m => m.name.toList).Nodup
  full : ∀ slot ∈ slots, slot.optional = true ∨ slot.name ∈ ms.map fun m => m.name.toList

end Fill

namespace Reader

variable {σ : Type} {slots : List (Slot σ)} {l : Layout} {n : Nat}

/-- Of slots with different names the one of a name is found. -/
theorem find?_name (hnames : (slots.map Slot.name).Nodup) {slot : Slot σ} (h : slot ∈ slots)
    {name : List Char} (hname : slot.name = name) :
    (slots.find? fun slot => slot.name = name) = some slot := by
  induction slots with
  | nil => cases h
  | cons first slots ih =>
    rw [List.map_cons, List.nodup_cons] at hnames
    rcases List.mem_cons.1 h with rfl | h
    · exact List.find?_cons_of_pos (by simpa using hname)
    · have hne : first.name ≠ name := by
        rw [← hname]
        exact fun heq => hnames.1 (heq ▸ List.mem_map_of_mem h)
      rw [List.find?_cons_of_neg (by simpa using hne), ih hnames.2 h]

/-- The value of a member is read after its colon. -/
theorem afterColon_member {slot : Slot σ} {m : Fill σ} (rest : List Char)
    (hread : slot.reader.Reads (m.value.spell l n) m.change) (hrest : EndsNumeral rest) :
    slot.reader.afterColon.run (':' :: (l.colon ++ (m.value.spell l n ++ rest))) =
      .ok (m.change, rest) := by
  rw [afterColon_append]
  exact hread.run l.colon rest l.isSpace_colon hrest

theorem members_more {ms : List (Fill σ)} {seen : List (List Char)} {acc : σ}
    (hnames : (slots.map Slot.name).Nodup) (hfits : ∀ m ∈ ms, m.Fits l (n + 1) slots)
    (hnodup : (ms.map fun m => m.name.toList).Nodup)
    (hseen : ∀ m ∈ ms, m.name.toList ∉ seen)
    (hfull : ∀ slot ∈ slots, slot.optional = true ∨ slot.name ∈ seen ∨
      slot.name ∈ ms.map fun m => m.name.toList) (rest : List Char) :
    members slots false seen acc (l.more n '\x7d' (ms.map (Fill.text l (n + 1))) ++ rest) =
      .ok (Fill.apply ms acc, rest) := by
  induction ms generalizing seen acc with
  | nil =>
    apply members_close
    · apply readName_close
      rw [List.map_nil, Layout.more, List.append_assoc, skipSpace_append (l.isSpace_gap n)]
      exact skipSpace_cons (by decide) rest
    · simpa using hfull
  | cons m ms ih =>
    rw [List.forall_mem_cons] at hfits hseen
    rw [List.map_cons, List.nodup_cons] at hnodup
    obtain ⟨slot, hslot, hslotName, hread⟩ := hfits.1
    let after := l.more n '\x7d' (ms.map (Fill.text l (n + 1))) ++ rest
    have hafter : EndsNumeral after := endsNumeral_more l n _ (by decide) _ rest
    have hname : readName false
        (l.more n '\x7d' ((m :: ms).map (Fill.text l (n + 1))) ++ rest) =
          .ok (some m.name.toList, ':' :: (l.colon ++ (m.value.spell l (n + 1) ++ after))) := by
      rw [List.map_cons, Layout.more, List.cons_append, List.append_assoc, List.append_assoc,
        Fill.text, Layout.member_append]
      apply readName_next (skipSpace_cons (by decide) _)
      rw [skipSpace_append (l.isSpace_gap (n + 1)), quote_append]
      exact skipSpace_cons (by decide) _
    have hfind := find?_name hnames hslot hslotName
    rw [members_step hname hseen.1 hfind (afterColon_member after hread hafter)]
    apply ih hfits.2 hnodup.2
    · intro m' hm'
      rw [List.mem_cons, not_or]
      refine ⟨fun heq => hnodup.1 ?_, hseen.2 m' hm'⟩
      rw [← heq]
      exact List.mem_map.2 ⟨m', hm', rfl⟩
    · intro slot' hslot'
      have h := hfull slot' hslot'
      rw [List.map_cons, List.mem_cons] at h
      rw [List.mem_cons]
      rcases h with h | h | h | h
      · exact Or.inl h
      · exact Or.inr (Or.inl (Or.inr h))
      · exact Or.inr (Or.inl (Or.inl h))
      · exact Or.inr (Or.inr h)

theorem members_listed {ms : List (Fill σ)} (h : Fill.Complete l (n + 1) slots ms) (blank : σ)
    (rest : List Char) :
    members slots true [] blank (l.listed n '\x7d' (ms.map (Fill.text l (n + 1))) ++ rest) =
      .ok (Fill.apply ms blank, rest) := by
  obtain ⟨hnames, hfits, hnodup, hfull⟩ := h
  cases ms with
  | nil =>
    refine members_close (readName_close (skipSpace_cons (by decide) rest)) ?_
    simpa using hfull
  | cons m ms =>
    rw [List.forall_mem_cons] at hfits
    rw [List.map_cons, List.nodup_cons] at hnodup
    obtain ⟨slot, hslot, hslotName, hread⟩ := hfits.1
    let after := l.more n '\x7d' (ms.map (Fill.text l (n + 1))) ++ rest
    have hafter : EndsNumeral after := endsNumeral_more l n _ (by decide) _ rest
    have hname : readName true
        (l.listed n '\x7d' ((m :: ms).map (Fill.text l (n + 1))) ++ rest) =
          .ok (some m.name.toList, ':' :: (l.colon ++ (m.value.spell l (n + 1) ++ after))) := by
      rw [List.map_cons, Layout.listed, List.append_assoc, List.append_assoc, Fill.text,
        Layout.member_append]
      apply readName_first
      rw [skipSpace_append (l.isSpace_gap (n + 1)), quote_append]
      exact skipSpace_cons (by decide) _
    have hfind := find?_name hnames hslot hslotName
    rw [members_step hname (by simp) hfind (afterColon_member after hread hafter)]
    apply members_more hnames hfits.2 hnodup.2
    · intro m' hm'
      rw [List.mem_singleton]
      intro heq
      rw [← heq] at hnodup
      exact hnodup.1 (List.mem_map.2 ⟨m', hm', rfl⟩)
    · intro slot' hslot'
      have h := hfull slot' hslot'
      simp only [List.map_cons, List.mem_cons, List.not_mem_nil, or_false] at h ⊢
      exact h

/-- **A record is read as what its members make of it.** -/
theorem reads_record {ms : List (Fill σ)} (h : Fill.Complete l (n + 1) slots ms) (blank : σ) :
    (record slots blank).Reads ((Document.object (ms.map Fill.member)).spell l n)
      (Fill.apply ms blank) := by
  have htexts : Document.spellMembers l (n + 1) (ms.map Fill.member) =
      ms.map (Fill.text l (n + 1)) := by
    rw [Document.spellMembers_eq, List.map_map]
    rfl
  rw [Document.spell, htexts]
  apply reads_of_runFirst rfl (by decide)
  intro rest _
  rw [if_pos rfl]
  exact members_listed h blank rest

end Reader

end HiddenEquation.Json
