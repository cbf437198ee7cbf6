import HiddenEquation.Json.Number
import HiddenEquation.Json.Text

/-!
# Skipping JSON values

A member with an unknown name may hold any JSON value.  It is followed to its end without
being built: a stack of open brackets is all that is kept, so values may nest to any depth.
-/

namespace HiddenEquation.Json

/-- The two kinds of bracket. -/
inductive Bracket where
  | array
  | object
deriving DecidableEq, Repr

/-- The character that closes a bracket. -/
def Bracket.close : Bracket → Char
  | .array => ']'
  | .object => '\x7d'

/-- Passes over a value that is no array and no object, from its first character. -/
def skipScalar (s : List Char) : Except Fault (List Char) :=
  match s with
  | [] => .error .cutShort
  | c :: rest =>
    if c = 'n' then readLetters ['u', 'l', 'l'] rest
    else if c = 't' then readLetters ['r', 'u', 'e'] rest
    else if c = 'f' then readLetters ['a', 'l', 's', 'e'] rest
    else if c = '"' then skipContent rest
    else if c = '-' ∨ c.isDigit then skipNumeral (c :: rest)
    else .error .malformed

/-- Passes over the name of a member and the colon after it. -/
def skipName (s : List Char) : Except Fault (List Char) :=
  match skipSpace s with
  | '"' :: rest =>
    match skipContent rest with
    | .error e => .error e
    | .ok rest =>
      match skipSpace rest with
      | ':' :: rest => .ok rest
      | other => faultAt other
  | other => faultAt other

/-- Passes over what must stand before a value inside a bracket. -/
def enter (b : Bracket) (s : List Char) : Except Fault (List Char) :=
  match b with
  | .array => .ok s
  | .object => skipName s

theorem length_lt_of_skipScalar {s rest : List Char} (h : skipScalar s = .ok rest) :
    rest.length < s.length := by
  unfold skipScalar at h
  split at h
  · cases h
  · simp only [List.length_cons]
    split at h
    · have := length_le_of_readLetters h
      omega
    split at h
    · have := length_le_of_readLetters h
      omega
    split at h
    · have := length_le_of_readLetters h
      omega
    split at h
    · have := length_lt_of_skipContent h
      omega
    split at h
    · have := length_lt_of_skipNumeral h
      simp only [List.length_cons] at this
      omega
    · cases h

theorem length_le_of_skipName {s rest : List Char} (h : skipName s = .ok rest) :
    rest.length ≤ s.length := by
  have h0 := length_skipSpace_le s
  unfold skipName at h
  split at h
  · rename_i hs
    rw [hs, List.length_cons] at h0
    split at h
    · cases h
    · rename_i after hc
      have h1 := length_lt_of_skipContent hc
      have h2 := length_skipSpace_le after
      split at h
      · rename_i hm
        rw [hm, List.length_cons] at h2
        cases h
        omega
      · simp [faultAt] at h
  · simp [faultAt] at h

theorem length_le_of_enter {b : Bracket} {s rest : List Char} (h : enter b s = .ok rest) :
    rest.length ≤ s.length := by
  cases b with
  | array => cases h; simp
  | object => exact length_le_of_skipName h

/-- Where skipping stands: before a value, or after one or after an opening bracket.  With
`comma` a value has been read inside the innermost bracket, so that a comma may follow. -/
inductive SkipState where
  | value
  | inside (comma : Bool)
deriving DecidableEq, Repr

/-- Going from inside a bracket to its first value uses up no characters. -/
def SkipState.rank : SkipState → Nat
  | .value => 0
  | .inside _ => 1

/-- Passes over the rest of a value, with the brackets that are open. -/
def skipFrom (stack : List Bracket) (state : SkipState) (s : List Char) :
    Except Fault (List Char) :=
  match state, stack with
  | .value, stack =>
    match h : skipSpace s with
    | [] => .error .cutShort
    | c :: rest =>
      have : rest.length < s.length := by
        have := length_skipSpace_le s
        rw [h] at this
        exact this
      if c = '[' then skipFrom (.array :: stack) (.inside false) rest
      else if c = '\x7b' then skipFrom (.object :: stack) (.inside false) rest
      else
        match hs : skipScalar (c :: rest) with
        | .error e => .error e
        | .ok rest =>
          have : rest.length < s.length := by
            have h1 := length_lt_of_skipScalar hs
            have h2 := length_skipSpace_le s
            rw [h] at h2
            omega
          skipFrom stack (.inside true) rest
  | .inside _, [] => .ok s
  | .inside comma, b :: stack =>
    match h : skipSpace s with
    | [] => .error .cutShort
    | c :: rest =>
      have hlt : rest.length < s.length := by
        have := length_skipSpace_le s
        rw [h] at this
        exact this
      if c = b.close then skipFrom stack (.inside true) rest
      else if comma then
        if c = ',' then
          match he : enter b rest with
          | .error e => .error e
          | .ok rest =>
            have := length_le_of_enter he
            skipFrom (b :: stack) .value rest
        else .error .malformed
      else
        match he : enter b (c :: rest) with
        | .error e => .error e
        | .ok rest =>
          have : rest.length ≤ s.length := by
            have h1 := length_le_of_enter he
            have h2 := length_skipSpace_le s
            rw [h] at h2
            omega
          skipFrom (b :: stack) .value rest
termination_by 2 * s.length + state.rank
decreasing_by all_goals simp only [SkipState.rank] at *; omega

theorem length_le_of_skipFrom {stack : List Bracket} {state : SkipState} {s rest : List Char}
    (h : skipFrom stack state s = .ok rest) : rest.length + 1 ≤ s.length + state.rank := by
  fun_induction skipFrom stack state s with
  | case1 => cases h
  | case2 => rename_i ih; have := ih h; simp only [SkipState.rank] at *; omega
  | case3 => rename_i ih; have := ih h; simp only [SkipState.rank] at *; omega
  | case4 => cases h
  | case5 => rename_i ih; have := ih h; simp only [SkipState.rank] at *; omega
  | case6 => cases h; simp [SkipState.rank]
  | case7 => cases h
  | case8 => rename_i ih; have := ih h; simp only [SkipState.rank] at *; omega
  | case9 => cases h
  | case10 => rename_i ih; have := ih h; simp only [SkipState.rank] at *; omega
  | case11 => cases h
  | case12 => cases h
  | case13 => rename_i ih; have := ih h; simp only [SkipState.rank] at *; omega

/-- Passes over any JSON value. -/
def skipValue : Reader Unit where
  run s :=
    match skipFrom [] .value s with
    | .ok rest => .ok ((), rest)
    | .error e => .error e
  shortens {s v rest} h := by
    split at h
    · rename_i hs
      cases h
      have := length_le_of_skipFrom hs
      simp only [SkipState.rank] at this
      omega
    · cases h

end HiddenEquation.Json
