/-!
# Styled text

Text for a terminal as a list of spans, each with an ink: bold or not, a background, a
foreground.  Whether the inks are shown is decided when the text is rendered; without them
only the characters remain.
-/

namespace HiddenEquation

/-- The colours in use. -/
inductive Color where
  | black
  | red
  | green
  | yellow
  | cyan
  | white
  | brightBlack
  | brightGreen
  | brightYellow
  | brightCyan
  | brightWhite
deriving DecidableEq, Repr

/-- The number that selects a colour as foreground; the background is ten more. -/
def Color.code : Color → Nat
  | black => 30
  | red => 31
  | green => 32
  | yellow => 33
  | cyan => 36
  | white => 37
  | brightBlack => 90
  | brightGreen => 92
  | brightYellow => 93
  | brightCyan => 96
  | brightWhite => 97

/-- How a span looks. -/
structure Ink where
  bold : Bool
  background : Option Color
  foreground : Option Color
deriving DecidableEq, Repr

namespace Ink

/-- No ink. -/
def none : Ink := ⟨false, .none, .none⟩

/-- A foreground colour. -/
def of (c : Color) : Ink := ⟨false, .none, some c⟩

/-- A bold foreground colour. -/
def boldOf (c : Color) : Ink := ⟨true, .none, some c⟩

/-- A foreground on a background. -/
def on (fore back : Color) : Ink := ⟨false, some back, some fore⟩

/-- The selecting numbers: bold, background, foreground. -/
def codes (i : Ink) : List Nat :=
  (if i.bold then [1] else [])
    ++ (i.background.map fun c => c.code + 10).toList
    ++ (i.foreground.map Color.code).toList

/-- The sequence that turns the ink on. -/
def opening (i : Ink) : String := "\x1b[" ++ ";".intercalate (i.codes.map toString) ++ "m"

end Ink

/-- Some text in one ink. -/
structure Span where
  ink : Ink
  text : String
deriving DecidableEq, Repr

/-- Text made of spans. -/
abbrev Styled := List Span

namespace Span

/-- The sequence that turns every ink off. -/
def reset : String := "\x1b[0m"

/-- The text with the ink turned on again after every sequence in it that turns it off. -/
def resumed (opening : List Char) : List Char → List Char
  | '\x1b' :: '[' :: '0' :: 'm' :: rest =>
    '\x1b' :: '[' :: '0' :: 'm' :: (opening ++ resumed opening rest)
  | c :: rest => c :: resumed opening rest
  | [] => []

/-- The span as it is sent to a terminal. -/
def render (colours : Bool) (s : Span) : String :=
  if colours && s.ink != Ink.none then
    s.ink.opening ++ String.ofList (resumed s.ink.opening.toList s.text.toList) ++ reset
  else s.text

end Span

namespace Styled

/-- Text without ink. -/
def plain (text : String) : Styled := [⟨.none, text⟩]

/-- Text in an ink. -/
def inked (i : Ink) (text : String) : Styled := [⟨i, text⟩]

/-- The text as it is sent to a terminal. -/
def render (colours : Bool) (s : Styled) : String := String.join (s.map (Span.render colours))

end Styled

end HiddenEquation
