import HiddenEquation.Play.Game

/-!
# Keys

A terminal sends keys as characters: most stand for themselves, control characters for a key
held down with Control, and an escape starts a sequence for one of the other keys.
`Key.ofText` takes a text apart into keys and `Game.press` says what each key does.
-/

namespace HiddenEquation.Play

/-- A key of the terminal. -/
inductive Key where
  | char (c : Char) (control : Bool)
  | backspace
  | enter
  | escape
  | other
deriving DecidableEq, Repr

namespace Key

/-- The key of a character that starts no sequence. -/
def ofChar (c : Char) : Key :=
  if c = '\r' then .enter
  else if c = '\t' then .other
  else if c = '\x7f' then .backspace
  else if c = '\x1b' then .escape
  else if c = '\x00' then .char ' ' true
  else if c.toNat < 0x1B then .char (Char.ofNat (c.toNat + 0x60)) true
  else if c.toNat < 0x20 then .char (Char.ofNat (c.toNat + 0x18)) true
  else .char c false

/-- What follows the parameters of a sequence and the character that ends it. -/
def afterParameters : List Char → List Char
  | [] => []
  | c :: rest =>
    if decide (0x40 ≤ c.toNat ∧ c.toNat ≤ 0x7E) then rest else afterParameters rest

/-- What follows a sequence that an escape and a bracket have started. -/
def afterSequence : List Char → List Char
  | 'M' :: rest => rest.drop 3
  | '[' :: rest => rest.drop 1
  | s => afterParameters s

theorem length_afterParameters_le (s : List Char) : (afterParameters s).length ≤ s.length := by
  induction s with
  | nil => simp [afterParameters]
  | cons c rest ih =>
    rw [afterParameters]
    split <;> simp only [List.length_cons] <;> omega

theorem length_afterSequence_le (s : List Char) : (afterSequence s).length ≤ s.length := by
  unfold afterSequence
  split
  · simp only [List.length_drop, List.length_cons]; omega
  · simp only [List.length_drop, List.length_cons]; omega
  · exact length_afterParameters_le _

/-- The keys that a text stands for. -/
def ofText : List Char → List Key
  | [] => []
  | '\x1b' :: '\x1b' :: rest => .escape :: ofText rest
  | '\x1b' :: '[' :: rest => .other :: ofText (afterSequence rest)
  | '\x1b' :: 'O' :: rest => .other :: ofText (rest.drop 1)
  | '\x1b' :: c :: rest => ofChar c :: ofText rest
  | c :: rest => ofChar c :: ofText rest
termination_by s => s.length
decreasing_by
  all_goals
    simp only [List.length_cons, List.length_drop]
    try have := length_afterSequence_le rest
    omega

end Key

namespace Game

/-- What a key does to the game while equations are proposed. -/
def edit (g : Game) (b : Book) : Key → Game
  | .char c _ => g.type c
  | .backspace => g.erase
  | .enter => g.submit b
  | .escape | .other => g

/-- What a key does; nothing is left when it ends the game. -/
def press (g : Game) (d : Dealer) (c : Chooser) (k : Key) : Option Game :=
  match k with
  | .char 'c' true | .char 'q' _ | .escape => none
  | .char 'n' _ => some (g.newGame d c)
  | k => some (if g.mode = .guessing then g.edit d.book k else g)

/-- The events of a key. -/
def keyEvents (g : Game) (d : Dealer) (c : Chooser) : Key → List Event
  | .char 'n' _ => Trace.draw d.book d.difficulty c
  | .enter => if g.mode = .guessing then g.submitEvents d.book else []
  | _ => []

/-- The game after some keys, up to one that ends it.  Each key comes with the luck of the
draw that it may ask for. -/
def run (g : Game) (d : Dealer) : List (Key × Chooser) → Game
  | [] => g
  | (k, c) :: rest =>
    match g.press d c k with
    | some next => next.run d rest
    | none => g

end Game

end HiddenEquation.Play
