import HiddenEquation.Decimal.Integer

/-!
# Readers of JSON text

JSON text is read straight into the shape that is expected, from left to right, and the
first fault met decides.  A `Reader` takes a value off the front of a text and leaves less
text than it found; with that, the loops over elements and members need no bound.

* `Reader.elements` : the elements of an array.
* `Reader.readAll` : a whole text, with nothing but blanks after the value.
-/

namespace HiddenEquation.Json

/-- What is wrong with a text that is read as a value of some shape. -/
inductive Fault where
  /-- JSON, but of another shape: wrong type, missing, repeated or unknown name, out of range. -/
  | mismatch
  /-- Not JSON. -/
  | malformed
  /-- The text ends too early. -/
  | cutShort
deriving DecidableEq, Repr

/-- A value and the text after it, or a fault. -/
abbrev Outcome (α : Type) := Except Fault (α × List Char)

/-- Takes a value off the front of a text and leaves strictly less of it. -/
structure Reader (α : Type) where
  run : List Char → Outcome α
  shortens : ∀ {s v rest}, run s = .ok (v, rest) → rest.length < s.length

/-- The four characters that separate without meaning anything. -/
def isSpace (c : Char) : Bool := c == ' ' || c == '\n' || c == '\t' || c == '\r'

/-- The text from the first character that is no space. -/
def skipSpace (s : List Char) : List Char := s.dropWhile isSpace

theorem length_skipSpace_le (s : List Char) : (skipSpace s).length ≤ s.length :=
  (List.dropWhile_sublist isSpace).length_le

/-- A fault at a place where the text goes on differently, or has ended. -/
def faultAt {α : Type} (s : List Char) : Except Fault α :=
  .error (if s = [] then .cutShort else .malformed)

/-- The text after the given letters, which must come next. -/
def readLetters : List Char → List Char → Except Fault (List Char)
  | [], s => .ok s
  | _ :: _, [] => .error .cutShort
  | w :: ws, c :: rest => if c = w then readLetters ws rest else .error .malformed

theorem length_le_of_readLetters {ws s rest : List Char} (h : readLetters ws s = .ok rest) :
    rest.length ≤ s.length := by
  induction ws generalizing s with
  | nil => simp only [readLetters, Except.ok.injEq] at h; simp [h]
  | cons w ws ih =>
    cases s with
    | nil => cases h
    | cons c cs =>
      rw [readLetters] at h
      split at h
      · have := ih h
        simp only [List.length_cons]
        omega
      · cases h

namespace Reader

variable {α β : Type}

/-- Reads and then changes the value. -/
def map (f : α → β) (r : Reader α) : Reader β where
  run s :=
    match r.run s with
    | .ok (v, rest) => .ok (f v, rest)
    | .error e => .error e
  shortens {s v rest} h := by
    split at h
    · rename_i hr
      cases h
      exact r.shortens hr
    · cases h

/-- Reads and then checks the value; a value that does not fit is a mismatch. -/
def mapOption (f : α → Option β) (r : Reader α) : Reader β where
  run s :=
    match r.run s with
    | .ok (v, rest) =>
      match f v with
      | some w => .ok (w, rest)
      | none => .error .mismatch
    | .error e => .error e
  shortens {s v rest} h := by
    split at h
    · rename_i hr
      split at h
      · cases h
        exact r.shortens hr
      · cases h
    · cases h

/-- Reads what follows an element: a comma and another element, or the closing bracket. -/
def moreElements (r : Reader α) (s : List Char) : Outcome (List α) :=
  match h : skipSpace s with
  | ']' :: rest => .ok ([], rest)
  | ',' :: cs =>
    match h2 : skipSpace cs with
    | [] => .error .cutShort
    | ']' :: _ => .error .malformed
    | d :: ds =>
      match hr : r.run (d :: ds) with
      | .error e => .error e
      | .ok (v, rest) =>
        have : rest.length < s.length := by
          have h3 := r.shortens hr
          have h4 := length_skipSpace_le cs
          have h5 := length_skipSpace_le s
          rw [h2] at h4
          rw [h] at h5
          simp only [List.length_cons] at h3 h4 h5
          omega
        match moreElements r rest with
        | .error e => .error e
        | .ok (vs, rest) => .ok (v :: vs, rest)
  | other => faultAt other
termination_by s.length

/-- Reads the elements of an array from the place where the first may stand, up to and
including the closing bracket. -/
def elements (r : Reader α) (s : List Char) : Outcome (List α) :=
  match skipSpace s with
  | [] => .error .cutShort
  | ']' :: rest => .ok ([], rest)
  | cs =>
    match r.run cs with
    | .error e => .error e
    | .ok (v, rest) =>
      match moreElements r rest with
      | .error e => .error e
      | .ok (vs, rest) => .ok (v :: vs, rest)

theorem length_lt_of_moreElements {r : Reader α} {s rest : List Char} {vs : List α}
    (h : moreElements r s = .ok (vs, rest)) : rest.length < s.length := by
  fun_induction moreElements r s generalizing vs rest with
  | case1 s rest' hs =>
    cases h
    have := length_skipSpace_le s
    rw [hs] at this
    exact this
  | case6 =>
    rename_i hmore ih
    cases h
    have := ih hmore
    omega
  | case7 s hs => simp [faultAt] at h
  | _ => cases h

theorem length_lt_of_elements {r : Reader α} {s rest : List Char} {vs : List α}
    (h : elements r s = .ok (vs, rest)) : rest.length < s.length := by
  have hle := length_skipSpace_le s
  unfold elements at h
  split at h
  · cases h
  · rename_i hs
    cases h
    rw [hs] at hle
    exact hle
  · split at h
    · cases h
    · rename_i hr
      split at h
      · cases h
      · rename_i hmore
        cases h
        have h1 := r.shortens hr
        have h2 := length_lt_of_moreElements hmore
        omega

/-- Reads a whole text: after the value only space may follow. -/
def readAll (r : Reader α) (s : List Char) : Except Fault α :=
  match r.run s with
  | .error e => .error e
  | .ok (v, rest) => if skipSpace rest = [] then .ok v else .error .malformed

end Reader

end HiddenEquation.Json
