import HiddenEquation.Json.Skip

/-!
# Shapes of JSON values

Readers for the types that the wire formats are made of.  A value of another type is a
mismatch, but it is read far enough to find its own faults first.  A record is an object
with named members in any order, or an array of the same members in their fixed order.

* `Slot` : a member of a record, and how it changes the record that is being read.
* `Reader.record` : a record with the given slots.
-/

namespace HiddenEquation.Json

/-- What is wrong with a text where a value of another type was expected.  A literal, a
number or a string that is itself faulty counts for that fault. -/
def otherType (s : List Char) : Fault :=
  let read {α : Type} : Except Fault α → Fault
    | .ok _ => .mismatch
    | .error e => e
  match s with
  | [] => .cutShort
  | c :: rest =>
    if c = '[' ∨ c = '\x7b' then .mismatch
    else if c = 'n' then read (readLetters ['u', 'l', 'l'] rest)
    else if c = 't' then read (readLetters ['r', 'u', 'e'] rest)
    else if c = 'f' then read (readLetters ['a', 'l', 's', 'e'] rest)
    else if c = '"' then read (readContent rest)
    else if c = '-' ∨ c.isDigit then read (readNumber (c :: rest))
    else .malformed

/-- The value of a text that starts with the given letters. -/
def afterLetters {α : Type} (v : α) (letters s : List Char) : Outcome α :=
  match readLetters letters s with
  | .ok rest => .ok (v, rest)
  | .error e => .error e

theorem length_le_of_afterLetters {α : Type} {v w : α} {letters s rest : List Char}
    (h : afterLetters v letters s = .ok (w, rest)) : rest.length ≤ s.length := by
  unfold afterLetters at h
  split at h
  · rename_i hr
    cases h
    exact length_le_of_readLetters hr
  · cases h

namespace Reader

variable {α σ : Type}

/-- Reads by the first character that is no space; at the end of the text there is nothing to
read. -/
def runFirst (f : Char → List Char → Outcome α) (s : List Char) : Outcome α :=
  match skipSpace s with
  | [] => .error .cutShort
  | c :: rest => f c rest

theorem length_lt_of_runFirst {f : Char → List Char → Outcome α}
    (shortens : ∀ {c s v rest}, f c s = .ok (v, rest) → rest.length ≤ s.length)
    {s rest : List Char} {v : α} (h : runFirst f s = .ok (v, rest)) : rest.length < s.length := by
  have hle := length_skipSpace_le s
  unfold runFirst at h
  split at h
  · cases h
  · rename_i hs
    rw [hs, List.length_cons] at hle
    have := shortens h
    omega

/-- A reader that decides by the first character that is no space. -/
def ofFirst (f : Char → List Char → Outcome α)
    (shortens : ∀ {c s v rest}, f c s = .ok (v, rest) → rest.length ≤ s.length) : Reader α where
  run := runFirst f
  shortens := length_lt_of_runFirst shortens

/-! ## Scalars -/

/-- A string. -/
def text : Reader (List Char) :=
  ofFirst (fun c rest => if c = '"' then readContent rest else .error (otherType (c :: rest)))
    fun h => by
      split at h
      · exact Nat.le_of_lt (length_lt_of_readContent h)
      · cases h

/-- A string of exactly one character. -/
def character : Reader Char :=
  text.mapOption fun s =>
    match s with
    | [c] => some c
    | _ => none

/-- A truth value. -/
def bool : Reader Bool :=
  ofFirst
    (fun c rest =>
      if c = 't' then afterLetters true ['r', 'u', 'e'] rest
      else if c = 'f' then afterLetters false ['a', 'l', 's', 'e'] rest
      else .error (otherType (c :: rest)))
    fun h => by
      split at h
      · exact length_le_of_afterLetters h
      · split at h
        · exact length_le_of_afterLetters h
        · cases h

/-- The literal `null`. -/
def null : Reader Unit :=
  ofFirst
    (fun c rest =>
      if c = 'n' then afterLetters () ['u', 'l', 'l'] rest else .error (otherType (c :: rest)))
    fun h => by
      split at h
      · exact length_le_of_afterLetters h
      · cases h

/-- A number. -/
def number : Reader Number :=
  ofFirst
    (fun c rest =>
      if c = '-' ∨ c.isDigit then readNumber (c :: rest) else .error (otherType (c :: rest)))
    fun h => by
      split at h
      · exact Nat.le_of_lt_succ (length_lt_of_readNumber h)
      · cases h

/-- An integer of the given range, written without point and exponent. -/
def integer (range : Decimal.IntegerRange) : Reader Int :=
  number.mapOption fun n =>
    match n with
    | .integer n => if range.lo ≤ n ∧ n ≤ range.hi then some n else none
    | .double _ => none

/-- A double; integers are taken as well. -/
def double : Reader Float :=
  number.map fun n =>
    match n with
    | .integer n => Float.ofInt n
    | .double x => x

/-- A value or `null`. -/
def optional (r : Reader α) : Reader (Option α) where
  run s :=
    match skipSpace s with
    | 'n' :: rest => afterLetters none ['u', 'l', 'l'] rest
    | _ => (r.map some).run s
  shortens {s v rest} h := by
    have hle := length_skipSpace_le s
    split at h
    · rename_i hs
      rw [hs, List.length_cons] at hle
      have := length_le_of_afterLetters h
      omega
    · exact (r.map some).shortens h

/-! ## Arrays and variants -/

/-- An array. -/
def array (r : Reader α) : Reader (List α) :=
  ofFirst (fun c rest => if c = '[' then r.elements rest else .error (otherType (c :: rest)))
    fun h => by
      split at h
      · exact Nat.le_of_lt (length_lt_of_elements h)
      · cases h

/-- A colon and then a value. -/
def afterColon (r : Reader α) : Reader α where
  run s :=
    match skipSpace s with
    | ':' :: rest => r.run rest
    | other => faultAt other
  shortens {s v rest} h := by
    have hle := length_skipSpace_le s
    split at h
    · rename_i hs
      rw [hs, List.length_cons] at hle
      have := r.shortens h
      omega
    · simp [faultAt] at h

/-- The value with a given name. -/
def named (names : List (List Char × α)) : Reader α :=
  text.mapOption fun s => names.lookup s

/-- Reads the rest of `{"NAME": null}` after its opening brace. -/
def braced (names : List (List Char × α)) (s : List Char) : Outcome α :=
  match (named names).run s with
  | .error e => .error e
  | .ok (v, rest) =>
    match (afterColon null).run rest with
    | .error e => .error e
    | .ok (_, rest) =>
      match skipSpace rest with
      | '\x7d' :: rest => .ok (v, rest)
      | other => faultAt other

theorem length_le_of_braced {names : List (List Char × α)} {s rest : List Char} {v : α}
    (h : braced names s = .ok (v, rest)) : rest.length ≤ s.length := by
  unfold braced at h
  split at h
  · cases h
  · rename_i hv
    have h1 := (named names).shortens hv
    split at h
    · cases h
    · rename_i after hn
      have h2 := (afterColon null).shortens hn
      have h3 := length_skipSpace_le after
      split at h
      · rename_i hs
        rw [hs, List.length_cons] at h3
        cases h
        omega
      · simp [faultAt] at h

/-- One of several names, as a string or as the only member, with the value `null`, of an
object.  Anything else is no JSON that could be meant. -/
def variant (names : List (List Char × α)) : Reader α :=
  ofFirst
    (fun c rest =>
      if c = '\x7b' then braced names rest
      else if c = '"' then (named names).run (c :: rest)
      else .error .malformed)
    fun h => by
      split at h
      · exact length_le_of_braced h
      · split at h
        · exact Nat.le_of_lt_succ ((named names).shortens h)
        · cases h

end Reader

/-! ## Records -/

/-- A member of a record of type `σ`: its name, whether it may be left out, and a reader for
what it changes. -/
structure Slot (σ : Type) where
  name : List Char
  optional : Bool
  reader : Reader (σ → σ)

namespace Slot

variable {σ α : Type}

/-- A member that must be there. -/
def required (name : String) (r : Reader α) (put : α → σ → σ) : Slot σ :=
  ⟨name.toList, false, r.map put⟩

/-- A member that may be `null` or left out. -/
def ofOption (name : String) (r : Reader α) (put : Option α → σ → σ) : Slot σ :=
  ⟨name.toList, true, r.optional.map put⟩

end Slot

namespace Reader

variable {σ : Type}

/-- Reads the name of the next member, or the closing brace. -/
def readName (first : Bool) (s : List Char) : Outcome (Option (List Char)) :=
  let name (rest : List Char) : Outcome (Option (List Char)) :=
    match readContent rest with
    | .ok (n, rest) => .ok (some n, rest)
    | .error e => .error e
  match skipSpace s with
  | [] => .error .cutShort
  | c :: rest =>
    if c = '\x7d' then .ok (none, rest)
    else if first then
      if c = '"' then name rest else .error .malformed
    else if c = ',' then
      match skipSpace rest with
      | '"' :: rest => name rest
      | other => faultAt other
    else .error .malformed

theorem length_lt_of_readName {first : Bool} {s rest : List Char} {n : Option (List Char)}
    (h : readName first s = .ok (n, rest)) : rest.length < s.length := by
  have hle := length_skipSpace_le s
  unfold readName at h
  dsimp only at h
  split at h
  · cases h
  · rename_i c cs hs
    rw [hs, List.length_cons] at hle
    split at h
    · cases h
      omega
    split at h
    · split at h
      · split at h
        · rename_i hc
          cases h
          have := length_lt_of_readContent hc
          omega
        · cases h
      · cases h
    split at h
    · have hle2 := length_skipSpace_le cs
      split at h
      · rename_i hs2
        rw [hs2, List.length_cons] at hle2
        split at h
        · rename_i hc
          cases h
          have := length_lt_of_readContent hc
          omega
        · cases h
      · simp [faultAt] at h
    · cases h

/-- What is read after a name: the member's value, or any value if no slot has the name. -/
def memberReader (slots : List (Slot σ)) (name : List Char) : Reader (σ → σ) :=
  match slots.find? fun slot => slot.name = name with
  | some slot => slot.reader.afterColon
  | none => (skipValue.map fun _ => id).afterColon

/-- Reads members up to the closing brace.  A name must not come twice, and every slot that
is not optional must have been filled. -/
def members (slots : List (Slot σ)) (first : Bool) (seen : List (List Char)) (acc : σ)
    (s : List Char) : Outcome σ :=
  match hn : readName first s with
  | .error e => .error e
  | .ok (none, rest) =>
    if slots.all fun slot => slot.optional || seen.contains slot.name then .ok (acc, rest)
    else .error .mismatch
  | .ok (some name, rest) =>
    if seen.contains name then .error .mismatch
    else
      match hm : (memberReader slots name).run rest with
      | .error e => .error e
      | .ok (f, rest) =>
        have : rest.length < s.length := by
          have h1 := length_lt_of_readName hn
          have h2 := (memberReader slots name).shortens hm
          omega
        let seen := if slots.any fun slot => slot.name = name then name :: seen else seen
        members slots false seen (f acc) rest
termination_by s.length

theorem length_lt_of_members {slots : List (Slot σ)} {first : Bool} {seen : List (List Char)}
    {acc v : σ} {s rest : List Char} (h : members slots first seen acc s = .ok (v, rest)) :
    rest.length < s.length := by
  fun_induction members slots first seen acc s with
  | case2 =>
    rename_i hn _
    cases h
    exact length_lt_of_readName hn
  | case6 =>
    rename_i ih
    have := ih h
    omega
  | _ => cases h

/-- Moves to the next item of an array; there is none at the closing bracket. -/
def nextItem (first : Bool) (s : List Char) : Except Fault (Option (List Char)) :=
  match skipSpace s with
  | [] => .error .cutShort
  | c :: rest =>
    if c = ']' then .ok none
    else if first then .ok (some (c :: rest))
    else if c = ',' then
      match skipSpace rest with
      | [] => .error .cutShort
      | ']' :: _ => .error .malformed
      | other => .ok (some other)
    else .error .malformed

/-- Reads the slots in their order from the items of an array.  Optional slots may be
missing at the end; a further item is malformed. -/
def items (first : Bool) (acc : σ) : List (Slot σ) → List Char → Outcome σ
  | [], s =>
    match skipSpace s with
    | ']' :: rest => .ok (acc, rest)
    | other => faultAt other
  | slot :: slots, s =>
    match nextItem first s with
    | .error e => .error e
    | .ok none =>
      if slot.optional then items first acc slots s else .error .mismatch
    | .ok (some item) =>
      match slot.reader.run item with
      | .error e => .error e
      | .ok (f, rest) => items false (f acc) slots rest

theorem length_le_of_nextItem {first : Bool} {s item : List Char}
    (h : nextItem first s = .ok (some item)) : item.length ≤ s.length := by
  have hle := length_skipSpace_le s
  unfold nextItem at h
  split at h
  · cases h
  · rename_i c cs hs
    rw [hs, List.length_cons] at hle
    split at h
    · cases h
    split at h
    · cases h
      exact hle
    split at h
    · have hle2 := length_skipSpace_le cs
      split at h
      · cases h
      · cases h
      · cases h
        omega
    · cases h

theorem length_lt_of_items {slots : List (Slot σ)} {first : Bool} {acc v : σ}
    {s rest : List Char} (h : items first acc slots s = .ok (v, rest)) :
    rest.length < s.length := by
  induction slots generalizing first acc s with
  | nil =>
    have hle := length_skipSpace_le s
    rw [items] at h
    split at h
    · rename_i hs
      cases h
      rw [hs, List.length_cons] at hle
      omega
    · simp [faultAt] at h
  | cons slot slots ih =>
    rw [items] at h
    split at h
    · cases h
    · split at h
      · exact ih h
      · cases h
    · rename_i hi
      split at h
      · cases h
      · rename_i hr
        have h1 := length_le_of_nextItem hi
        have h2 := slot.reader.shortens hr
        have h3 := ih h
        omega

/-- A record with the given slots, from the value it has before any of them is filled. -/
def record (slots : List (Slot σ)) (blank : σ) : Reader σ :=
  ofFirst
    (fun c rest =>
      if c = '\x7b' then members slots true [] blank rest
      else if c = '[' then items true blank slots rest
      else .error (otherType (c :: rest)))
    fun h => by
      split at h
      · exact Nat.le_of_lt (length_lt_of_members h)
      · split at h
        · exact Nat.le_of_lt (length_lt_of_items h)
        · cases h

end Reader

end HiddenEquation.Json
