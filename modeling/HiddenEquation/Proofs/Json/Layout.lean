import HiddenEquation.Json.Document

/-!
# Layouts of a document

The two written forms of a document differ in the space that they leave between its parts, and in
nothing else.  A `Layout` is such a choice of space, and `Document.spell` writes a document in any
layout, so that what is proved of reading holds of both forms at once.

* `Document.toList_compact` : the form without any space is a layout.
* `Document.toList_pretty` : the form on indented lines is one too.
-/

namespace HiddenEquation.Json

/-- The space that a written form leaves: before an item or a closing bracket at some level, and
after a colon. -/
structure Layout where
  gap : Nat → List Char
  colon : List Char
  isSpace_gap : ∀ n, ∀ c ∈ gap n, isSpace c = true
  isSpace_colon : ∀ c ∈ colon, isSpace c = true

namespace Layout

/-- No space at all. -/
def compact : Layout := ⟨fun _ => [], [], by simp, by simp⟩

/-- Each item on a line of its own. -/
def pretty : Layout where
  gap n := '\n' :: List.replicate (2 * n) ' '
  colon := [' ']
  isSpace_gap n c hc := by
    rcases List.mem_cons.1 hc with rfl | hc
    · rfl
    · rw [List.eq_of_mem_replicate hc]
      rfl
  isSpace_colon c hc := by
    rw [List.mem_singleton.1 hc]
    rfl

/-- What follows an item: the other items, and the closing bracket. -/
def more (l : Layout) (n : Nat) (close : Char) : List (List Char) → List Char
  | [] => l.gap n ++ [close]
  | t :: ts => ',' :: (l.gap (n + 1) ++ t ++ l.more n close ts)

/-- What follows an opening bracket: the items, and the closing bracket. -/
def listed (l : Layout) (n : Nat) (close : Char) : List (List Char) → List Char
  | [] => [close]
  | t :: ts => l.gap (n + 1) ++ t ++ l.more n close ts

/-- A member of an object, of whose value the text is given. -/
def member (l : Layout) (name : String) (value : List Char) : List Char :=
  quote name.toList ++ ':' :: (l.colon ++ value)

theorem member_append (l : Layout) (name : String) (value rest : List Char) :
    l.member name value ++ rest = quote name.toList ++ ':' :: (l.colon ++ (value ++ rest)) := by
  rw [member, List.append_assoc, List.cons_append, List.append_assoc]

end Layout

namespace Document

mutual

/-- The text of a document in a layout, from a level on. -/
def spell (l : Layout) (n : Nat) : Document → List Char
  | bool b => if b then ['t', 'r', 'u', 'e'] else ['f', 'a', 'l', 's', 'e']
  | integer i => (toString i).toList
  | double x => (doubleText x).toList
  | text s => quote s
  | array items => '[' :: l.listed n ']' (spellItems l (n + 1) items)
  | object members => '\x7b' :: l.listed n '\x7d' (spellMembers l (n + 1) members)

/-- The texts of several documents. -/
def spellItems (l : Layout) (n : Nat) : List Document → List (List Char)
  | [] => []
  | d :: ds => spell l n d :: spellItems l n ds

/-- The texts of several members. -/
def spellMembers (l : Layout) (n : Nat) : List (String × Document) → List (List Char)
  | [] => []
  | (k, d) :: ds => l.member k (spell l n d) :: spellMembers l n ds

end

theorem spellItems_map {α : Type} (l : Layout) (n : Nat) (f : α → Document) (vs : List α) :
    spellItems l n (vs.map f) = vs.map fun v => (f v).spell l n := by
  induction vs with
  | nil => rw [List.map_nil, spellItems, List.map_nil]
  | cons v vs ih => rw [List.map_cons, spellItems, ih, List.map_cons]

theorem spellMembers_eq (l : Layout) (n : Nat) (ms : List (String × Document)) :
    spellMembers l n ms = ms.map fun m => l.member m.1 (m.2.spell l n) := by
  induction ms with
  | nil => rw [spellMembers, List.map_nil]
  | cons m ms ih =>
    obtain ⟨k, d⟩ := m
    rw [spellMembers, ih, List.map_cons]

/-! ## The two forms -/

/-- What holds of an array if it holds of its items, and of an object if it holds of its values,
holds of every document. -/
@[elab_as_elim]
theorem induction {P : Document → Prop} (bool : ∀ b, P (.bool b)) (integer : ∀ i, P (.integer i))
    (double : ∀ x, P (.double x)) (text : ∀ s, P (.text s))
    (array : ∀ items, (∀ d ∈ items, P d) → P (.array items))
    (object : ∀ members, (∀ m ∈ members, P m.2) → P (.object members)) (d : Document) : P d := by
  refine Document.rec (motive_1 := P) (motive_2 := fun ds => ∀ d ∈ ds, P d)
    (motive_3 := fun ms => ∀ m ∈ ms, P m.2) (motive_4 := fun m => P m.2)
    bool integer double text array object ?nil ?cons ?nilMember ?consMember ?member d
  case nil => simp
  case cons => exact fun d ds hd hds => List.forall_mem_cons.2 ⟨hd, hds⟩
  case nilMember => simp
  case consMember => exact fun m ms hm hms => List.forall_mem_cons.2 ⟨hm, hms⟩
  case member => exact fun k d hd => hd

theorem toList_compactItems {n : Nat} {ds : List Document} (hne : ds ≠ [])
    (h : ∀ d ∈ ds, d.compact.toList = d.spell .compact (n + 1)) :
    (compactItems ds).toList ++ [']'] =
      Layout.compact.listed n ']' (spellItems .compact (n + 1) ds) := by
  induction ds with
  | nil => exact absurd rfl hne
  | cons d ds ih =>
    rw [List.forall_mem_cons] at h
    cases ds with
    | nil =>
      rw [compactItems, h.1]
      rfl
    | cons d' ds =>
      have htail := ih (by simp) h.2
      rw [compactItems, String.toList_append, String.toList_append, h.1, List.append_assoc,
        List.append_assoc, htail]
      · rfl
      · simp

theorem toList_compactMembers {n : Nat} {ms : List (String × Document)} (hne : ms ≠ [])
    (h : ∀ m ∈ ms, m.2.compact.toList = m.2.spell .compact (n + 1)) :
    (compactMembers ms).toList ++ ['\x7d'] =
      Layout.compact.listed n '\x7d' (spellMembers .compact (n + 1) ms) := by
  induction ms with
  | nil => exact absurd rfl hne
  | cons m ms ih =>
    obtain ⟨k, d⟩ := m
    rw [List.forall_mem_cons] at h
    have hmember : (quoted k.toList ++ ":" ++ d.compact).toList =
        Layout.compact.member k (d.spell .compact (n + 1)) := by
      rw [String.toList_append, String.toList_append, quoted, String.toList_ofList, h.1,
        List.append_assoc]
      rfl
    cases ms with
    | nil =>
      rw [compactMembers, hmember]
      rfl
    | cons m' ms =>
      have htail := ih (by simp) h.2
      rw [compactMembers, String.toList_append, String.toList_append, hmember, List.append_assoc,
        List.append_assoc, htail]
      · rfl
      · simp

/-- The form without any space is a layout, at whatever level. -/
theorem toList_compact (d : Document) (n : Nat) : d.compact.toList = d.spell .compact n := by
  induction d using Document.induction generalizing n with
  | bool b => cases b <;> rfl
  | integer i => rw [compact, spell]
  | double x => rw [compact, spell]
  | text s => rw [compact, quoted, String.toList_ofList, spell]
  | array items ih =>
    cases items with
    | nil => rfl
    | cons d ds =>
      rw [compact, String.toList_append, String.toList_append, List.append_assoc]
      show '[' :: ((compactItems (d :: ds)).toList ++ [']']) = _
      rw [toList_compactItems (by simp) fun d hd => ih d hd (n + 1), spell]
  | object members ih =>
    cases members with
    | nil => rfl
    | cons m ms =>
      rw [compact, String.toList_append, String.toList_append, List.append_assoc]
      show '\x7b' :: ((compactMembers (m :: ms)).toList ++ ['\x7d']) = _
      rw [toList_compactMembers (by simp) fun m hm => ih m hm (n + 1), spell]

theorem toList_newline (n : Nat) : (newline n).toList = Layout.pretty.gap n := by
  rw [newline, String.toList_append, String.toList_ofList, String.toList_ofList]
  rfl

theorem toList_prettyItems {n : Nat} {ds : List Document} (hne : ds ≠ [])
    (h : ∀ d ∈ ds, (d.prettyAt (n + 1)).toList = d.spell .pretty (n + 1)) :
    (prettyItems n ds).toList ++ (Layout.pretty.gap n ++ [']']) =
      Layout.pretty.listed n ']' (spellItems .pretty (n + 1) ds) := by
  induction ds with
  | nil => exact absurd rfl hne
  | cons d ds ih =>
    rw [List.forall_mem_cons] at h
    cases ds with
    | nil =>
      rw [prettyItems, String.toList_append, toList_newline, h.1]
      rfl
    | cons d' ds =>
      have htail := ih (by simp) h.2
      rw [prettyItems, String.toList_append, String.toList_append, String.toList_append,
        toList_newline, h.1, List.append_assoc, List.append_assoc, htail]
      · rfl
      · simp

theorem toList_prettyMembers {n : Nat} {ms : List (String × Document)} (hne : ms ≠ [])
    (h : ∀ m ∈ ms, (m.2.prettyAt (n + 1)).toList = m.2.spell .pretty (n + 1)) :
    (prettyMembers n ms).toList ++ (Layout.pretty.gap n ++ ['\x7d']) =
      Layout.pretty.listed n '\x7d' (spellMembers .pretty (n + 1) ms) := by
  induction ms with
  | nil => exact absurd rfl hne
  | cons m ms ih =>
    obtain ⟨k, d⟩ := m
    rw [List.forall_mem_cons] at h
    have hmember : (newline (n + 1) ++ quoted k.toList ++ ": " ++ d.prettyAt (n + 1)).toList =
        Layout.pretty.gap (n + 1) ++ Layout.pretty.member k (d.spell .pretty (n + 1)) := by
      rw [String.toList_append, String.toList_append, String.toList_append, toList_newline, quoted,
        String.toList_ofList, h.1, List.append_assoc, List.append_assoc]
      rfl
    cases ms with
    | nil =>
      rw [prettyMembers, hmember]
      rfl
    | cons m' ms =>
      have htail := ih (by simp) h.2
      rw [prettyMembers, String.toList_append, String.toList_append, hmember, List.append_assoc,
        List.append_assoc, htail]
      · rfl
      · simp

/-- The form on indented lines is a layout. -/
theorem toList_prettyAt (d : Document) (n : Nat) : (d.prettyAt n).toList = d.spell .pretty n := by
  induction d using Document.induction generalizing n with
  | bool b => cases b <;> simp [prettyAt, spell]
  | integer i => rw [prettyAt, spell]
  | double x => rw [prettyAt, spell]
  | text s => rw [prettyAt, quoted, String.toList_ofList, spell]
  | array items ih =>
    cases items with
    | nil => simp [prettyAt, spell, spellItems, Layout.listed]
    | cons d ds =>
      rw [prettyAt, String.toList_append, String.toList_append, String.toList_append,
        toList_newline, List.append_assoc, List.append_assoc]
      show '[' :: ((prettyItems n (d :: ds)).toList ++ (Layout.pretty.gap n ++ [']'])) = _
      rw [toList_prettyItems (by simp) fun d hd => ih d hd (n + 1), spell]
  | object members ih =>
    cases members with
    | nil => simp [prettyAt, spell, spellMembers, Layout.listed]
    | cons m ms =>
      rw [prettyAt, String.toList_append, String.toList_append, String.toList_append,
        toList_newline, List.append_assoc, List.append_assoc]
      show '\x7b' :: ((prettyMembers n (m :: ms)).toList ++ (Layout.pretty.gap n ++ ['\x7d'])) = _
      rw [toList_prettyMembers (by simp) fun m hm => ih m hm (n + 1), spell]

theorem toList_pretty (d : Document) : d.pretty.toList = d.spell .pretty 0 := toList_prettyAt d 0

end Document

end HiddenEquation.Json
