import HiddenEquation.Proofs.Round.Submission
import HiddenEquation.Proofs.Text.Lines

/-!
# The course of a conversation

A conversation goes from prompt to prompt.  `Exchange` says all that can happen to a line at a
prompt: a guess goes to the round, whose answer decides what is shown and how it goes on.  `Course`
strings exchanges together, one line to a prompt, until the player leaves or the input ends.  Every
text has such a course, whatever the luck.  What carries it is that the dialogue asks for a guess
exactly while the round is being played, `State.Ready`, which every exchange restores.

* `answerGuess_eq` : the answer to a guess, by the answer of the round.
* `State.Ready.exchange`, `Course.ready` : one exchange, and a whole course.
* `Course.ending_eq_left_iff` : which lines end a conversation.
* `run_course` : the course of a conversation on the bytes of any text.
-/

namespace HiddenEquation.Dialogue

open Styled (plain)

/-! ## What a line asks for -/

/-- A line that is one of the words, in whatever case and with blanks around it. -/
def Spells (line : List Char) (words : List String) : Prop :=
  ∃ w ∈ words, (Text.trim line).map Char.toLower = w.toList

theorem isWord_trim_iff {line : List Char} {words : List String} :
    isWord (Text.trim line) words = true ↔ Spells line words := by
  simp only [isWord, Spells, List.any_eq_true, beq_iff_eq]

/-- A command asks to leave or for a new puzzle. -/
theorem spells_command_iff {line : List Char} : Spells line ["quit", "q", "exit", "new", "n"] ↔
    Spells line ["quit", "q", "exit"] ∨ Spells line ["new", "n"] := by
  have hwords : ["quit", "q", "exit", "new", "n"] = ["quit", "q", "exit"] ++ ["new", "n"] := rfl
  simp only [hwords, Spells, List.mem_append, or_and_right, exists_or]

/-- No line asks to leave and for a new puzzle at once. -/
theorem not_spells_quit_of_new {line : List Char} (h : Spells line ["new", "n"]) :
    ¬Spells line ["quit", "q", "exit"] := by
  rintro ⟨w, hw, hquit⟩
  obtain ⟨v, hv, hnew⟩ := h
  have hsame : v.toList = w.toList := hnew.symm.trans hquit
  have hdistinct : ∀ v ∈ ["new", "n"], ∀ w ∈ ["quit", "q", "exit"], v.toList ≠ w.toList := by
    decide
  exact hdistinct v hv w hw hsame

/-- Where a guess is asked for, a line that is no command is answered as a guess. -/
theorem respond_of_not_spells {d : Dealer} {c : Chooser} {s : State} {line : List Char}
    (hprompt : s.prompt = .guess) (hcommand : ¬Spells line ["quit", "q", "exit", "new", "n"]) :
    respond d c s line = answerGuess d s.round (.ofChars (Text.trim line)) := by
  rw [spells_command_iff, not_or] at hcommand
  rw [respond, hprompt]
  dsimp only
  rw [isQuit, if_neg (mt isWord_trim_iff.1 hcommand.1), isNew,
    if_neg (mt isWord_trim_iff.1 hcommand.2)]

/-! ## One exchange -/

/-- Where the dialogue stands with a round: it asks for a guess exactly while the round is being
played. -/
def asking (r : Round) : State := ⟨r, if r.status = .playing then .guess else .again⟩

@[simp] theorem round_asking (r : Round) : (asking r).round = r := rfl

/-- What a round is closed with when it is over. -/
def closing (r : Round) : Styled :=
  if r.status = .won then celebration r else if r.status = .lost then defeat else []

theorem conclude_eq (r : Round) : conclude r = (closing r, asking r) := by
  unfold conclude closing asking
  cases r.status <;> rfl

/-- What is shown of a guess, by the answer of the round: why it is not checked, why it is refused,
or how it compares with the solution, and how the round has ended if it has. -/
inductive Shows (d : Dealer) (r : Round) (g : Guess) : Styled → Prop where
  | unchecked {e : CheckError} (h : r.submit d.book g = .error (.check e)) :
      Shows d r g (plain s!"❌ {e.message}\n\n")
  | refused {v : Verdict} {next : Round} (h : r.submit d.book g = .ok (v, next))
      (hvalid : v.valid = false) : Shows d r g (refusal g v)
  | compared {v : Verdict} {next : Round} (h : r.submit d.book g = .ok (v, next))
      (hvalid : v.valid = true) :
      Shows d r g (plain "  " ++ Report.tiles g v.feedback ++ plain "\n\n" ++ closing next)

/-- **The answer to a guess** at a round that is being played shows what the round answers, notes
the check, and goes on with the round as the guess has left it. -/
theorem answerGuess_eq {d : Dealer} {r : Round} {g : Guess}
    (hplay : r.submit d.book g ≠ .error .finished) :
    ∃ shown, Shows d r g shown ∧ answerGuess d r g =
      ⟨shown, Trace.check d.book g r.challenge.target, some (asking (r.after d.book g))⟩ := by
  unfold answerGuess
  cases hsubmit : r.submit d.book g with
  | error e =>
    have hafter : r.after d.book g = r := by rw [Round.after, hsubmit]
    cases e with
    | finished => exact absurd hsubmit hplay
    | check e =>
      -- A round that is over would have refused the guess unseen.
      have hstatus : r.status = .playing := by
        by_contra hover
        exact hplay (Round.submit_of_not_playing hover)
      exact ⟨_, .unchecked hsubmit, by rw [hafter, asking, if_pos hstatus]⟩
  | ok answer =>
    obtain ⟨v, next⟩ := answer
    rw [Round.after_of_submit hsubmit]
    dsimp only
    split
    · rename_i hvalid
      exact ⟨_, .compared hsubmit hvalid, by rw [conclude_eq]⟩
    · rename_i hvalid
      have hrefused : v.valid = false := by simpa using hvalid
      have hstatus : r.status = .playing := (Round.submit_eq_ok_iff.1 hsubmit).1
      refine ⟨_, .refused hsubmit hrefused, ?_⟩
      rw [Round.eq_of_submit_not_valid hsubmit hrefused, asking, if_pos hstatus]

/-- A reply that deals a new puzzle: it is announced, and a new round of it begins. -/
structure Deals (d : Dealer) (c : Chooser) (reply : Reply) : Prop where
  printed : reply.printed = plain "\n🔄 New game started!\n\n" ++ announcement (d.deal c)
  next : reply.next = some (asking (.start (d.deal c)))

theorem newRound_eq_asking (d : Dealer) (c : Chooser) :
    newRound d c = asking (.start (d.deal c)) := by
  have hplay : (Round.start (d.deal c)).status = .playing := Round.status_start _
  rw [asking, newRound, if_pos hplay]

theorem deals_again (d : Dealer) (c : Chooser) : Deals d c (again d c) where
  printed := rfl
  next := congrArg some (newRound_eq_asking d c)

/-- All that can happen to a line at a prompt.  At a guess prompt it is a command, or else it is
submitted to the round, which is not over then: what is shown is what the round answers, and the
dialogue goes on with the round as the guess has left it.  At the other prompt the line agrees or it
does not. -/
inductive Exchange (d : Dealer) (c : Chooser) (line : List Char) : State → Reply → Prop where
  | leave {r : Round} (hquit : Spells line ["quit", "q", "exit"]) :
      Exchange d c line ⟨r, .guess⟩ ⟨farewell, [], none⟩
  | renew {r : Round} {reply : Reply} (hnew : Spells line ["new", "n"]) (hdeal : Deals d c reply) :
      Exchange d c line ⟨r, .guess⟩ reply
  | submit {r : Round} {g : Guess} {shown : Styled} (hg : g = .ofChars (Text.trim line))
      (hguess : ¬Spells line ["quit", "q", "exit", "new", "n"])
      (hplay : r.submit d.book g ≠ .error .finished) (hshown : Shows d r g shown) :
      Exchange d c line ⟨r, .guess⟩
        ⟨shown, Trace.check d.book g r.challenge.target, some (asking (r.after d.book g))⟩
  | accept {r : Round} {reply : Reply} (hyes : Spells line ["yes", "y"]) (hdeal : Deals d c reply) :
      Exchange d c line ⟨r, .again⟩ reply
  | decline {r : Round} (hno : ¬Spells line ["yes", "y"]) :
      Exchange d c line ⟨r, .again⟩ ⟨farewell, [], none⟩

/-- What holds at every prompt: a guess is asked for while the round is being played and not
otherwise, and the round has the usual number of attempts. -/
structure State.Ready (s : State) : Prop where
  eq_asking : s = asking s.round
  maxAttempts : s.round.maxAttempts = Round.defaultAttempts

namespace State.Ready

variable {s next : State} {d : Dealer} {c : Chooser} {line : List Char} {reply : Reply}

theorem prompt_eq_guess_iff (h : s.Ready) : s.prompt = .guess ↔ s.round.status = .playing := by
  rw [h.eq_asking, round_asking, asking]
  dsimp only
  split
  · rename_i hplay
    simp [hplay]
  · rename_i hover
    simp [hover]

/-- While a guess is asked for, there are attempts left. -/
theorem attempts_lt (h : s.Ready) (hprompt : s.prompt = .guess) :
    s.round.attempts.length < Round.defaultAttempts := by
  rw [← h.maxAttempts]
  exact (Round.status_eq_playing_iff.1 (h.prompt_eq_guess_iff.1 hprompt)).2

theorem newRound (d : Dealer) (c : Chooser) : (newRound d c).Ready :=
  ⟨newRound_eq_asking d c, rfl⟩

theorem of_deals (hdeal : Deals d c reply) (hnext : reply.next = some next) : next.Ready := by
  rw [hdeal.next, ← newRound_eq_asking] at hnext
  exact Option.some.inj hnext ▸ newRound d c

/-- **One exchange** leads from a prompt to a prompt. -/
theorem exchange (h : s.Ready) (hex : Exchange d c line s reply) (hnext : reply.next = some next) :
    next.Ready := by
  cases hex with
  | leave _ => cases hnext
  | renew _ hdeal => exact of_deals hdeal hnext
  | submit _ _ _ _ =>
    rw [← Option.some.inj hnext]
    exact ⟨rfl, by rw [round_asking, Round.maxAttempts_after]; exact h.maxAttempts⟩
  | accept _ hdeal => exact of_deals hdeal hnext
  | decline _ => cases hnext

/-- The reply to a line is an exchange: the round is being played when a guess is submitted. -/
theorem exchange_respond (h : s.Ready) (d : Dealer) (c : Chooser) (line : List Char) :
    Exchange d c line s (respond d c s line) := by
  obtain ⟨r, prompt⟩ := s
  cases prompt with
  | guess =>
    rw [respond]
    dsimp only
    split
    · rename_i hquit
      exact .leave (isWord_trim_iff.1 hquit)
    · rename_i hquit
      split
      · rename_i hnew
        exact .renew (isWord_trim_iff.1 hnew) (deals_again d c)
      · rename_i hnew
        have hguess : ¬Spells line ["quit", "q", "exit", "new", "n"] := by
          intro hspells
          rcases spells_command_iff.1 hspells with hs | hs
          · exact hquit (isWord_trim_iff.2 hs)
          · exact hnew (isWord_trim_iff.2 hs)
        have hplay : r.submit d.book (.ofChars (Text.trim line)) ≠ .error .finished :=
          fun hover => Round.not_playing_of_submit hover (h.prompt_eq_guess_iff.1 rfl)
        obtain ⟨shown, hshown, hanswer⟩ := answerGuess_eq hplay
        rw [hanswer]
        exact .submit rfl hguess hplay hshown
  | again =>
    rw [respond]
    dsimp only
    split
    · rename_i hyes
      exact .accept (isWord_trim_iff.1 hyes) (deals_again d c)
    · rename_i hno
      exact .decline fun hyes => hno (isWord_trim_iff.2 hyes)

end State.Ready

/-! ## A course of exchanges -/

/-- A prompt that is printed: where the dialogue stands, and the line that is read there with the
reply to it, unless the input has ended. -/
structure Turn where
  state : State
  answered : Option (List Char × Reply)

namespace Turn

/-- What is printed at a prompt and in reply to the line. -/
def printed (t : Turn) : Styled :=
  Styled.plain t.state.promptText ++ (t.answered.map fun a => a.2.printed).getD []

/-- A line with which the player leaves. -/
def Leaves (t : Turn) : Prop :=
  ∃ line reply, t.answered = some (line, reply) ∧
    (t.state.prompt = .guess ∧ Spells line ["quit", "q", "exit"] ∨
      t.state.prompt = .again ∧ ¬Spells line ["yes", "y"])

end Turn

/-- The course of a conversation from a state on, given the lines of the input with the luck that
comes with each: every prompt takes the next line, and there is none left at a last prompt that
takes no line. -/
inductive Course (d : Dealer) : State → List (List Char × Chooser) → List Turn → Ending → Prop
  | closed (s : State) : Course d s [] [⟨s, none⟩] .inputClosed
  | left {s : State} {line : List Char} {c : Chooser} {rest : List (List Char × Chooser)}
      {reply : Reply} (hex : Exchange d c line s reply) (hend : reply.next = none) :
      Course d s ((line, c) :: rest) [⟨s, some (line, reply)⟩] .left
  | goesOn {s next : State} {line : List Char} {c : Chooser} {rest : List (List Char × Chooser)}
      {reply : Reply} {turns : List Turn} {ending : Ending} (hex : Exchange d c line s reply)
      (hnext : reply.next = some next) (hmore : Course d next rest turns ending) :
      Course d s ((line, c) :: rest) (⟨s, some (line, reply)⟩ :: turns) ending

/-- Which lines end a conversation. -/
theorem Exchange.next_eq_none_iff {d : Dealer} {c : Chooser} {line : List Char} {s : State}
    {reply : Reply} (h : Exchange d c line s reply) :
    reply.next = none ↔ Turn.Leaves ⟨s, some (line, reply)⟩ := by
  have hleaves : Turn.Leaves ⟨s, some (line, reply)⟩ ↔
      s.prompt = .guess ∧ Spells line ["quit", "q", "exit"] ∨
        s.prompt = .again ∧ ¬Spells line ["yes", "y"] := by
    constructor
    · rintro ⟨_, _, hanswered, hleaves⟩
      cases hanswered
      exact hleaves
    · exact fun hleaves => ⟨line, reply, rfl, hleaves⟩
  rw [hleaves]
  cases h with
  | leave hquit => simp [hquit]
  | renew hnew hdeal => simp [hdeal.next, not_spells_quit_of_new hnew]
  | submit _ hguess _ _ =>
    have hquit : ¬Spells line ["quit", "q", "exit"] := fun hs =>
      hguess (spells_command_iff.2 (Or.inl hs))
    simp [hquit]
  | accept hyes hdeal => simp [hdeal.next, hyes]
  | decline hno => simp [hno]

namespace Course

variable {d : Dealer} {s : State} {entries : List (List Char × Chooser)} {turns : List Turn}
  {ending : Ending}

/-- **A whole course** leads from prompt to prompt. -/
theorem ready (h : Course d s entries turns ending) (hs : s.Ready) :
    ∀ t ∈ turns, t.state.Ready := by
  induction h with
  | closed s => exact List.forall_mem_singleton.2 hs
  | left _ _ => exact List.forall_mem_singleton.2 hs
  | goesOn hex hnext _ ih => exact List.forall_mem_cons.2 ⟨hs, ih (hs.exchange hex hnext)⟩

/-- A conversation ends because the player leaves or because the input does. -/
theorem ending_cases (h : Course d s entries turns ending) :
    ending = .left ∨ ending = .inputClosed := by
  induction h with
  | closed s => exact Or.inr rfl
  | left _ _ => exact Or.inl rfl
  | goesOn _ _ _ ih => exact ih

/-- It is the player who ends it exactly if some line does. -/
theorem ending_eq_left_iff (h : Course d s entries turns ending) :
    ending = .left ↔ ∃ t ∈ turns, t.Leaves := by
  induction h with
  | closed s => simp [Turn.Leaves]
  | left hex hend =>
    exact iff_of_true rfl ⟨_, List.mem_singleton_self _, hex.next_eq_none_iff.1 hend⟩
  | goesOn hex hnext _ ih =>
    have hstays : ¬Turn.Leaves ⟨_, some (_, _)⟩ := fun hleaves => by
      rw [hex.next_eq_none_iff.2 hleaves] at hnext
      cases hnext
    rw [ih, List.exists_mem_cons_iff, or_iff_right hstays]

end Course

/-- Every conversation on lines of text has a course, and prints what its turns print. -/
theorem exists_course {d : Dealer} {s : State} (hs : s.Ready)
    (entries : List (List Char × Chooser)) :
    ∃ turns,
      Course d s entries turns (converse d s (entries.map fun e => (some e.1, e.2))).ending ∧
      (converse d s (entries.map fun e => (some e.1, e.2))).printed =
        turns.flatMap Turn.printed := by
  -- On the lines, from any state that is ready: the rest is read from where the first line leads.
  induction entries generalizing s with
  | nil => exact ⟨_, .closed s, by simp [converse, Turn.printed]⟩
  | cons e rest ih =>
    obtain ⟨line, c⟩ := e
    have hex := hs.exchange_respond d c line
    rw [List.map_cons, converse]
    cases hnext : (respond d c s line).next with
    | none => exact ⟨_, .left hex hnext, by simp [Transcript.after, Turn.printed]⟩
    | some next =>
      obtain ⟨turns, hcourse, hprinted⟩ := ih (hs.exchange hex hnext)
      refine ⟨_, .goesOn hex hnext hcourse, ?_⟩
      rw [List.flatMap_cons, ← hprinted]
      rfl

/-! ## Conversations on bytes -/

/-- Lines, each with the luck of the draw that it may ask for. -/
def withLuck {α : Type} (lines : List α) (luck : ℕ → Chooser) : List (α × Chooser) :=
  lines.zipIdx.map fun l => (l.1, luck l.2)

theorem withLuck_map {α β : Type} (f : α → β) (lines : List α) (luck : ℕ → Chooser) :
    withLuck (lines.map f) luck = (withLuck lines luck).map fun e => (f e.1, e.2) := by
  rw [withLuck, List.zipIdx_map, withLuck, List.map_map, List.map_map]
  rfl

/-- The lines of some bytes, each with the luck of the draw that it may ask for. -/
def heard (bytes : List UInt8) (luck : ℕ → Chooser) : List (InputLine × Chooser) :=
  withLuck (linesOfBytes bytes) luck

/-- **The course of a conversation on the bytes of any text.**  Each prompt takes the next line of
the text, of which `Exchange` says what becomes: only a line at a guess prompt that is no command is
submitted, and never to a round that is over.  The dialogue asks for a guess exactly while the round
is being played, and counts the next of six attempts.  All that is printed after the opening is what
the turns print.  The conversation ends without a fault exactly if the player leaves, and with the
fault that the input is closed otherwise. -/
theorem run_course (d : Dealer) (first : Chooser) (text : String) (luck : ℕ → Chooser) :
    ∃ lines turns ending, Text.IsLines '\n' text.toList lines ∧
      Course d (asking (.start (d.deal first))) (withLuck lines luck) turns ending ∧
      (run d first (heard text.toUTF8.data.toList luck)).ending = ending ∧
      (run d first (heard text.toUTF8.data.toList luck)).printed =
        (start d first).printed ++ turns.flatMap Turn.printed ∧
      (∀ t ∈ turns, (t.state.prompt = .guess ↔ t.state.round.status = .playing) ∧
        (t.state.prompt = .guess → ∃ k, t.state.promptText = s!"Guess {k}/6: " ∧
          k = t.state.round.attempts.length + 1 ∧ 1 ≤ k ∧ k ≤ 6)) ∧
      (ending.fault? = none ↔ ∃ t ∈ turns, t.Leaves) ∧
      (ending.fault? ≠ none → ending.fault? = some "Input closed") := by
  have hready := State.Ready.newRound d first
  obtain ⟨turns, hcourse, hprinted⟩ :=
    exists_course hready (withLuck (Text.terminated '\n' text.toList) luck)
  have hheard : heard text.toUTF8.data.toList luck =
      (withLuck (Text.terminated '\n' text.toList) luck).map fun e => (some e.1, e.2) := by
    rw [heard, linesOfBytes_toUTF8, withLuck_map]
  rw [← newRound_eq_asking]
  refine ⟨_, turns, _, Text.isLines_terminated '\n' text.toList, hcourse, ?_, ?_, fun t ht => ?_,
    ?_, ?_⟩
  · rw [hheard]
    rfl
  · rw [hheard, ← hprinted]
    rfl
  · have hturn := hcourse.ready hready t ht
    refine ⟨hturn.prompt_eq_guess_iff, fun hprompt => ⟨_, ?_, rfl, Nat.le_add_left 1 _, ?_⟩⟩
    · rw [State.promptText, hprompt, hturn.maxAttempts]
      exact String.append_assoc.trans String.append_assoc
    · exact hturn.attempts_lt hprompt
  · rw [← hcourse.ending_eq_left_iff]
    rcases hcourse.ending_cases with h | h <;> simp [h, Ending.fault?]
  · rcases hcourse.ending_cases with h | h <;> simp [h, Ending.fault?]

end HiddenEquation.Dialogue
