import MoodengSQL.Foundation.Framing

/-!
# The tokens of SQL text

A lexer by the longest match: words, numbers, numbered placeholders, strings in
which a quote is doubled, and symbols. Text up to a separator is read on its own,
whatever follows the separator.
-/

namespace Foundation

section LongestMatch

variable {σ α : Type}

/-- The longest beginning of a text that takes an automaton to an accepting state,
with that state and the rest of the text. -/
def longestMatch (step : σ → α → Option σ) (accept : σ → Bool) :
    σ → List α → Option (σ × List α × List α)
  | state, [] => if accept state then some (state, [], []) else none
  | state, char :: rest =>
      match (step state char).bind fun next => longestMatch step accept next rest with
      | some (last, text, rest) => some (last, char :: text, rest)
      | none => if accept state then some (state, [], char :: rest) else none

variable {step : σ → α → Option σ} {accept : σ → Bool} {state last : σ} {chars text rest : List α}

/-- What is matched begins the text and takes the automaton to the state. -/
theorem longestMatch_eq_some
    (matched : longestMatch step accept state chars = some (last, text, rest)) :
    chars = text ++ rest ∧ text.foldlM step state = some last ∧ accept last = true := by
  induction chars generalizing state text with
  | nil =>
      rw [longestMatch] at matched
      split at matched
      case isTrue accepted =>
        cases matched
        exact ⟨rfl, rfl, accepted⟩
      case isFalse => cases matched
  | cons char more ih =>
      rw [longestMatch] at matched
      cases moved : step state char with
      | none =>
          rw [moved] at matched
          dsimp only [Option.bind] at matched
          split at matched
          case isTrue accepted =>
            cases matched
            exact ⟨rfl, rfl, accepted⟩
          case isFalse => cases matched
      | some next =>
          rw [moved] at matched
          dsimp only [Option.bind] at matched
          cases later : longestMatch step accept next more with
          | none =>
              rw [later] at matched
              dsimp only at matched
              split at matched
              case isTrue accepted =>
                cases matched
                exact ⟨rfl, rfl, accepted⟩
              case isFalse => cases matched
          | some found =>
              obtain ⟨last', text', rest'⟩ := found
              rw [later] at matched
              cases matched
              obtain ⟨whole, run, accepted⟩ := ih later
              refine ⟨by rw [whole, List.cons_append], ?_, accepted⟩
              rw [List.foldlM_cons, moved]
              exact run

/-- There is a match where the automaton accepts. -/
theorem exists_longestMatch (accepted : accept state = true) (chars : List α) :
    ∃ found, longestMatch step accept state chars = some found := by
  cases chars with
  | nil => exact ⟨_, if_pos accepted⟩
  | cons char rest =>
      rw [longestMatch]
      split
      · exact ⟨_, rfl⟩
      · exact ⟨_, if_pos accepted⟩

/-- A character at which the automaton stops ends the match. -/
theorem longestMatch_append {stop : α}
    (stops : ∀ last, chars.foldlM step state = some last → step last stop = none) :
    longestMatch step accept state (chars ++ stop :: rest) =
      (longestMatch step accept state chars).map fun found =>
        (found.1, found.2.1, found.2.2 ++ stop :: rest) := by
  induction chars generalizing state with
  | nil =>
      rw [List.nil_append, longestMatch, longestMatch, stops state rfl]
      dsimp only [Option.bind]
      split <;> rfl
  | cons char more ih =>
      rw [List.cons_append, longestMatch, longestMatch]
      cases moved : step state char with
      | none =>
          dsimp only [Option.bind]
          split <;> rfl
      | some next =>
          have later : ∀ last, more.foldlM step next = some last → step last stop = none := by
            intro last run
            apply stops last
            rw [List.foldlM_cons, moved]
            exact run
          dsimp only [Option.bind]
          rw [ih later]
          cases longestMatch step accept next more with
          | none =>
              dsimp only [Option.map]
              split <;> rfl
          | some found => rfl

end LongestMatch

section Lexer

/-- The tokens of SQL text. -/
inductive Token where
  | quoted (text : List Char)
  | unterminated
  | number (text : List Char)
  | word (text : List Char)
  | placeholder (digits : List Char)
  | symbol (char : Char)
  deriving DecidableEq

/-- The character that begins and ends a string. -/
def quote : Char := '\x27'

/-- A text as it is written within quotes. -/
def doubled (text : List Char) : List Char :=
  text.flatMap fun char => if char = quote then [quote, quote] else [char]

/-- The text of a string behind its first quote, and what follows the last one. -/
def readQuoted : List Char → Option (List Char × List Char)
  | [] => none
  | [char] => if char = quote then some ([], []) else none
  | char :: next :: rest =>
      if char = quote then
        if next = quote then (readQuoted rest).map fun found => (quote :: found.1, found.2)
        else some ([], next :: rest)
      else (readQuoted (next :: rest)).map fun found => (char :: found.1, found.2)

def isWordStart (char : Char) : Bool := char.isAlpha || char = '_' || 128 ≤ char.toNat

/-- How far a token that is no string has been read. -/
inductive Progressed where
  | start
  | word
  | whole
  | fraction
  | exponent
  | sign
  | power
  | dollar
  | index
  deriving DecidableEq

namespace Progressed

/-- Words, numbers with a fraction and an exponent, and placeholders. -/
def step : Progressed → Char → Option Progressed
  | start, char =>
      if isWordStart char then some word
      else if char.isDigit then some whole
      else if char = '$' then some dollar
      else none
  | word, char => if isWordStart char || char.isDigit then some word else none
  | whole, char =>
      if char.isDigit then some whole
      else if char = '.' then some fraction
      else if char = 'e' || char = 'E' then some exponent
      else none
  | fraction, char =>
      if char.isDigit then some fraction
      else if char = 'e' || char = 'E' then some exponent
      else none
  | exponent, char =>
      if char.isDigit then some power
      else if char = '+' || char = '-' then some sign
      else none
  | sign, char | power, char => if char.isDigit then some power else none
  | dollar, char | index, char => if char.isDigit then some index else none

/-- A token may end here. -/
def complete : Progressed → Bool
  | start | exponent | sign => false
  | word | whole | fraction | power | dollar | index => true

def token : Progressed → List Char → Token
  | word, text => .word text
  | dollar, _ => .symbol '$'
  | index, text => .placeholder (text.drop 1)
  | _, text => .number text

end Progressed

/-- The next token, or nothing for white space. -/
def scan : List Char → Option (Option Token × List Char)
  | [] => none
  | char :: rest =>
      if char.isWhitespace then some (none, rest)
      else if char = quote then
        match readQuoted rest with
        | some (text, rest) => some (some (.quoted text), rest)
        | none => some (some .unterminated, [])
      else match longestMatch Progressed.step Progressed.complete .start (char :: rest) with
        | some (state, text, rest) => some (some (state.token text), rest)
        | none => some (some (.symbol char), rest)

/-- The tokens of a text. -/
def lex (text : List Char) : List Token := (readAll scan text).reduceOption

example : lex "a1 = 'it''s' + 2.5e-3*$12".toList = [.word "a1".toList, .symbol '=',
    .quoted "it's".toList, .symbol '+', .number "2.5e-3".toList, .symbol '*',
    .placeholder "12".toList] := by
  decide +kernel

end Lexer

section Quoted

variable {char : Char} {chars text rest : List Char}

theorem doubled_cons (char : Char) (text : List Char) : doubled (char :: text) =
    (if char = quote then [quote, quote] else [char]) ++ doubled text := rfl

theorem readQuoted_cons (inside : char ≠ quote) (chars : List Char) :
    readQuoted (char :: chars) =
      (readQuoted chars).map fun found => (char :: found.1, found.2) := by
  cases chars with
  | nil => exact if_neg inside
  | cons next rest => rw [readQuoted, if_neg inside]

theorem readQuoted_quote (ends : rest.head? ≠ some quote) :
    readQuoted (quote :: rest) = some ([], rest) := by
  cases rest with
  | nil => rfl
  | cons next rest =>
      have other : next ≠ quote := fun same => ends (congrArg some same)
      rw [readQuoted, if_pos rfl, if_neg other]

/-- A doubled text is read back up to a quote that is not doubled. -/
theorem readQuoted_doubled (text : List Char) (ends : rest.head? ≠ some quote) :
    readQuoted (doubled text ++ quote :: rest) = some (text, rest) := by
  induction text with
  | nil => exact readQuoted_quote ends
  | cons char text ih =>
      rw [doubled_cons]
      split
      case isTrue same =>
        rw [same, List.append_assoc, List.cons_append, List.cons_append, List.nil_append,
          readQuoted, if_pos rfl, if_pos rfl, ih]
        rfl
      case isFalse inside =>
        rw [List.append_assoc, List.cons_append, List.nil_append, readQuoted_cons inside, ih]
        rfl

/-- **A string is the doubled text of it between its quotes.** -/
theorem readQuoted_eq_some : readQuoted chars = some (text, rest) ↔
    chars = doubled text ++ quote :: rest ∧ rest.head? ≠ some quote := by
  constructor
  · intro found
    induction chars using readQuoted.induct generalizing text with
    | case1 => cases found
    | case2 =>
        rw [readQuoted, if_pos rfl] at found
        cases found
        exact ⟨rfl, nofun⟩
    | case3 char inside =>
        rw [readQuoted, if_neg inside] at found
        cases found
    | case4 more ih =>
        rw [readQuoted, if_pos rfl, if_pos rfl] at found
        obtain ⟨later, read, same⟩ := Option.map_eq_some_iff.mp found
        cases same
        obtain ⟨whole, ends⟩ := ih read
        refine ⟨?_, ends⟩
        rw [whole]
        rfl
    | case5 next more other =>
        rw [readQuoted, if_pos rfl, if_neg other] at found
        cases found
        exact ⟨rfl, fun same => other (Option.some.inj same)⟩
    | case6 char next more inside ih =>
        rw [readQuoted, if_neg inside] at found
        obtain ⟨later, read, same⟩ := Option.map_eq_some_iff.mp found
        cases same
        obtain ⟨whole, ends⟩ := ih read
        refine ⟨?_, ends⟩
        rw [whole, doubled_cons, if_neg inside]
        rfl
  · intro whole
    rw [whole.1]
    exact readQuoted_doubled text whole.2

end Quoted

section Separators

variable {char : Char} {chars rest : List Char} {token : Option Token}

/-- A token, or white space, takes up a beginning of the text. -/
theorem scan_eq_some (scanned : scan chars = some (token, rest)) :
    ∃ text, text ≠ [] ∧ chars = text ++ rest := by
  cases chars with
  | nil => cases scanned
  | cons char more =>
      rw [scan] at scanned
      split at scanned
      · cases scanned
        exact ⟨[char], List.cons_ne_nil _ _, rfl⟩
      · split at scanned
        · split at scanned
          case h_1 text after read =>
            cases scanned
            refine ⟨char :: doubled text ++ [quote], List.cons_ne_nil _ _, ?_⟩
            rw [(readQuoted_eq_some.mp read).1]
            simp
          case h_2 =>
            cases scanned
            exact ⟨char :: more, List.cons_ne_nil _ _, (List.append_nil _).symm⟩
        · split at scanned
          case h_1 state text after matched =>
            cases scanned
            obtain ⟨whole, run, accepted⟩ := longestMatch_eq_some matched
            refine ⟨text, ?_, whole⟩
            intro empty
            rw [empty] at run
            cases run
            cases accepted
          case h_2 =>
            cases scanned
            exact ⟨[char], List.cons_ne_nil _ _, rfl⟩

theorem progress_scan : Progress scan := by
  intro chars token rest scanned
  obtain ⟨text, nonempty, whole⟩ := scan_eq_some scanned
  rw [whole, List.length_append]
  exact Nat.lt_add_of_pos_left (List.length_pos_of_ne_nil nonempty)

theorem lex_of_scan (scanned : scan chars = some (token, rest)) :
    lex chars = token.toList ++ lex rest := by
  rw [lex, readAll_of_some progress_scan scanned]
  cases token with
  | none => exact List.reduceOption_cons_of_none _
  | some token => exact List.reduceOption_cons_of_some _ _

/-- There is a token, or white space, at the head of a text. -/
theorem exists_scan (char : Char) (chars : List Char) :
    ∃ token rest, scan (char :: chars) = some (token, rest) := by
  rw [scan]
  split
  · exact ⟨_, _, rfl⟩
  · split
    · split <;> exact ⟨_, _, rfl⟩
    · split <;> exact ⟨_, _, rfl⟩

/-- No token but a string goes on behind such a character. -/
def IsSeparator (char : Char) : Prop :=
  isWordStart char = false ∧ char.isDigit = false ∧ char ≠ quote ∧ char ≠ '$' ∧ char ≠ '.'

/-- A separator behind a text. A sign may belong to the exponent of a number. -/
def Separates (text : List Char) (char : Char) : Prop :=
  IsSeparator char ∧ ((char = '+' ∨ char = '-') → ∀ last ∈ text.getLast?, last ≠ 'e' ∧ last ≠ 'E')

instance (char : Char) : Decidable (IsSeparator char) :=
  inferInstanceAs (Decidable (_ ∧ _))

instance (text : List Char) (char : Char) : Decidable (Separates text char) :=
  inferInstanceAs (Decidable (_ ∧ _))

theorem IsSeparator.step_start (separator : IsSeparator char) :
    Progressed.step .start char = none := by
  obtain ⟨noWord, noDigit, _, noDollar, _⟩ := separator
  simp [Progressed.step, noWord, noDigit, noDollar]

theorem IsSeparator.ne_exponent (separator : IsSeparator char) : char ≠ 'e' ∧ char ≠ 'E' := by
  constructor
  · intro same
    cases same
    exact absurd separator.1 (by decide)
  · intro same
    cases same
    exact absurd separator.1 (by decide)

/-- A separator ends what is read, unless it is the sign of an exponent. -/
theorem IsSeparator.step (separator : IsSeparator char) {state : Progressed}
    (signed : state = .exponent → char ≠ '+' ∧ char ≠ '-') : state.step char = none := by
  obtain ⟨noLower, noUpper⟩ := separator.ne_exponent
  have noStart := separator.step_start
  obtain ⟨noWord, noDigit, _, _, noPoint⟩ := separator
  cases state with
  | start => exact noStart
  | exponent =>
      obtain ⟨noPlus, noMinus⟩ := signed rfl
      simp [Progressed.step, noDigit, noPlus, noMinus]
  | word => simp [Progressed.step, noWord, noDigit]
  | whole => simp [Progressed.step, noDigit, noPoint, noLower, noUpper]
  | fraction => simp [Progressed.step, noDigit, noLower, noUpper]
  | sign | power | dollar | index => simp [Progressed.step, noDigit]

/-- An exponent begins with its letter. -/
theorem step_eq_exponent {state : Progressed} (moved : state.step char = some .exponent) :
    char = 'e' ∨ char = 'E' := by
  cases state <;> simp only [Progressed.step] at moved <;> split_ifs at moved <;> simp_all

theorem getLast?_of_exponent
    (run : chars.foldlM Progressed.step .start = some .exponent) :
    chars.getLast? = some 'e' ∨ chars.getLast? = some 'E' := by
  rcases List.eq_nil_or_concat chars with empty | ⟨more, last, same⟩
  · rw [empty] at run
    cases run
  · rw [same, List.concat_eq_append, List.foldlM_append] at run
    obtain ⟨state, _, moved⟩ := Option.bind_eq_some_iff.mp run
    have letter : last = 'e' ∨ last = 'E' :=
      @step_eq_exponent last state (by simpa using moved)
    rw [same, List.concat_eq_append, List.getLast?_concat]
    exact letter.imp (congrArg some) (congrArg some)

/-- A separator behind a text stops what is read of the text. -/
theorem Separates.stops (separates : Separates chars char) {state : Progressed}
    (run : chars.foldlM Progressed.step .start = some state) : state.step char = none := by
  apply separates.1.step
  intro exponent
  have letter := getLast?_of_exponent (exponent ▸ run)
  constructor
  · intro plus
    rcases letter with lower | upper
    · exact (separates.2 (.inl plus) 'e' lower).1 rfl
    · exact (separates.2 (.inl plus) 'E' upper).2 rfl
  · intro minus
    rcases letter with lower | upper
    · exact (separates.2 (.inr minus) 'e' lower).1 rfl
    · exact (separates.2 (.inr minus) 'E' upper).2 rfl

theorem Separates.of_append {text : List Char} (separates : Separates (text ++ chars) char) :
    Separates chars char := by
  refine ⟨separates.1, fun signed last ends => separates.2 signed last ?_⟩
  rw [List.getLast?_append, Option.mem_def.mp ends]
  rfl

/-- A token is read alike in front of a separator. -/
theorem scan_append (separates : Separates chars char)
    (scanned : scan chars = some (token, rest)) (closed : token ≠ some .unterminated)
    (more : List Char) : scan (chars ++ char :: more) = some (token, rest ++ char :: more) := by
  cases chars with
  | nil => cases scanned
  | cons first chars =>
      rw [scan] at scanned
      rw [List.cons_append, scan]
      split at scanned
      case isTrue white =>
        cases scanned
        rw [if_pos white]
      case isFalse black =>
        rw [if_neg black]
        split at scanned
        case isTrue quoted =>
          rw [if_pos quoted]
          split at scanned
          case h_1 text after read =>
            cases scanned
            obtain ⟨whole, ends⟩ := readQuoted_eq_some.mp read
            have longer : readQuoted (chars ++ char :: more) =
                some (text, rest ++ char :: more) := by
              apply readQuoted_eq_some.mpr
              refine ⟨by rw [whole, List.append_assoc, List.cons_append], ?_⟩
              cases rest with
              | nil => exact fun same => separates.1.2.2.1 (Option.some.inj same)
              | cons next rest => exact ends
            rw [longer]
          case h_2 =>
            cases scanned
            exact absurd rfl closed
        case isFalse unquoted =>
          rw [if_neg unquoted, ← List.cons_append,
            longestMatch_append fun state run => separates.stops run]
          split at scanned
          case h_1 state text after matched =>
            cases scanned
            rw [matched]
            rfl
          case h_2 unmatched =>
            cases scanned
            rw [unmatched]
            rfl

/-- A separator is white space or a symbol, whatever follows. -/
theorem scan_separator (separator : IsSeparator char) : ∃ token : Option Token,
    (token = none ∨ token = some (.symbol char)) ∧
      ∀ rest, scan (char :: rest) = some (token, rest) := by
  by_cases white : char.isWhitespace = true
  · exact ⟨none, .inl rfl, fun rest => if_pos white⟩
  · refine ⟨some (.symbol char), .inr rfl, fun rest => ?_⟩
    rw [scan, if_neg white, if_neg separator.2.2.1, longestMatch, separator.step_start]
    rfl

theorem placeholder_not_mem_separator (separator : IsSeparator char) (digits : List Char) :
    .placeholder digits ∉ lex [char] := by
  obtain ⟨token, kind, scanned⟩ := scan_separator separator
  rw [lex_of_scan (scanned [])]
  rcases kind with white | symbol
  · rw [white]
    exact List.not_mem_nil
  · rw [symbol]
    exact fun mem => nomatch List.mem_singleton.mp mem

/-- A separator is read on its own. -/
theorem lex_separator (separator : IsSeparator char) (rest : List Char) :
    lex (char :: rest) = lex [char] ++ lex rest := by
  obtain ⟨token, _, scanned⟩ := scan_separator separator
  rw [lex_of_scan (scanned rest), lex_of_scan (scanned [])]
  rw [show lex [] = [] from rfl, List.append_nil]

/-- **Text whose strings are closed is read on its own in front of a separator.** -/
theorem lex_append (separates : Separates chars char) (closed : .unterminated ∉ lex chars)
    (rest : List Char) : lex (chars ++ char :: rest) = lex chars ++ (lex [char] ++ lex rest) := by
  induction size : chars.length using Nat.strong_induction_on generalizing chars with
  | _ n ih =>
    cases chars with
    | nil => exact lex_separator separates.1 rest
    | cons first chars =>
        obtain ⟨token, after, scanned⟩ := exists_scan first chars
        obtain ⟨text, nonempty, whole⟩ := scan_eq_some scanned
        rw [lex_of_scan scanned] at closed ⊢
        have ended : token ≠ some .unterminated := by
          intro same
          apply closed
          rw [same]
          exact List.mem_append_left _ List.mem_cons_self
        have shorter : after.length < n := by
          rw [← size]
          exact progress_scan scanned
        rw [lex_of_scan (scan_append separates scanned ended rest),
          ih after.length shorter (whole ▸ separates).of_append
            (fun mem => closed (List.mem_append_right _ mem)) rfl, List.append_assoc]

end Separators

section Literals

variable {char : Char} {chars text inner : List Char} {more : List Token}

theorem scan_quote (chars : List Char) : scan (quote :: chars) =
    match readQuoted chars with
    | some (text, rest) => some (some (.quoted text), rest)
    | none => some (some .unterminated, []) := rfl

/-- Text without tokens is white space. -/
theorem isWhitespace_of_lex_eq_nil (empty : lex chars = []) :
    ∀ char ∈ chars, char.isWhitespace = true := by
  induction chars with
  | nil => exact nofun
  | cons first chars ih =>
      by_cases white : first.isWhitespace = true
      · have scanned : scan (first :: chars) = some (none, chars) := if_pos white
        rw [lex_of_scan scanned] at empty
        exact List.forall_mem_cons.mpr ⟨white, ih empty⟩
      · exfalso
        obtain ⟨token, rest, scanned⟩ := exists_scan first chars
        rw [lex_of_scan scanned] at empty
        rw [scan, if_neg white] at scanned
        split at scanned
        · split at scanned <;> (cases scanned; cases empty)
        · split at scanned <;> (cases scanned; cases empty)

/-- **Between two quotes stands a string if and only if it is doubled.** -/
theorem lex_quoted_iff : lex (quote :: (inner ++ [quote])) = [.quoted text] ↔
    inner = doubled text := by
  constructor
  · intro lexed
    cases read : readQuoted (inner ++ [quote]) with
    | none =>
        have scanned : scan (quote :: (inner ++ [quote])) = some (some .unterminated, []) := by
          rw [scan_quote, read]
        rw [lex_of_scan scanned] at lexed
        cases lexed
    | some found =>
        obtain ⟨content, rest⟩ := found
        have scanned : scan (quote :: (inner ++ [quote])) = some (some (.quoted content), rest) := by
          rw [scan_quote, read]
        rw [lex_of_scan scanned] at lexed
        injection lexed with same empty
        cases same
        have whole := (readQuoted_eq_some.mp read).1
        rcases List.eq_nil_or_concat rest with none | ⟨front, last, back⟩
        · rw [none] at whole
          exact List.append_cancel_right whole
        · have ends : last = quote := by
            have lasts := congrArg List.getLast? whole
            rw [back, List.concat_eq_append, ← List.cons_append, ← List.append_assoc,
              List.getLast?_concat, List.getLast?_concat] at lasts
            exact (Option.some.inj lasts).symm
          have white : quote.isWhitespace = true := by
            apply isWhitespace_of_lex_eq_nil empty
            rw [back, ends, List.concat_eq_append]
            exact List.mem_append_right _ List.mem_cons_self
          exact absurd white (by decide)
  · intro same
    have read : readQuoted (inner ++ [quote]) = some (text, []) :=
      readQuoted_eq_some.mpr ⟨by rw [same], nofun⟩
    have scanned : scan (quote :: (inner ++ [quote])) = some (some (.quoted text), []) := by
      rw [scan_quote, read]
    rw [lex_of_scan scanned]
    rfl

/-- What begins with a quote is no number. -/
theorem lex_quote_ne_number : lex (quote :: chars) ≠ .number text :: more := by
  intro lexed
  cases read : readQuoted chars with
  | none =>
      have scanned : scan (quote :: chars) = some (some .unterminated, []) := by
        rw [scan_quote, read]
      rw [lex_of_scan scanned] at lexed
      cases lexed
  | some found =>
      have scanned : scan (quote :: chars) = some (some (.quoted found.1), found.2) := by
        rw [scan_quote, read]
      rw [lex_of_scan scanned] at lexed
      cases lexed

/-- The beginning of a number. -/
def Progressed.numeric : Progressed → Bool
  | .start | .whole | .fraction | .exponent | .sign | .power => true
  | .word | .dollar | .index => false

theorem numeric_of_step {state next : Progressed} (moved : state.step char = some next)
    (number : next.numeric = true) : state.numeric = true ∧ char ≠ '$' := by
  have notDigit : ('$').isDigit = false := by decide
  constructor
  · cases state <;> first | rfl | skip
    all_goals
      simp only [Progressed.step] at moved
      split at moved
      · cases moved
        cases number
      · cases moved
  · intro same
    subst same
    cases state <;> simp [Progressed.step, isWordStart, notDigit] at moved
    all_goals
      cases moved
      cases number

/-- There is no dollar sign in a number. -/
theorem dollar_not_mem_of_numeric {state : Progressed}
    (run : chars.foldlM Progressed.step .start = some state) (number : state.numeric = true) :
    '$' ∉ chars := by
  induction chars using List.reverseRecOn generalizing state with
  | nil => exact List.not_mem_nil
  | append_singleton chars last ih =>
      rw [List.foldlM_append] at run
      obtain ⟨before, earlier, moved⟩ := Option.bind_eq_some_iff.mp run
      obtain ⟨numeric, other⟩ := @numeric_of_step last _ _ (by simpa using moved) number
      rw [List.mem_append, List.mem_singleton]
      rintro (inside | same)
      · exact ih earlier numeric inside
      · exact other same.symm

/-- A number stays one. -/
theorem numeric_of_run {state last : Progressed}
    (run : chars.foldlM Progressed.step state = some last)
    (number : state.numeric = true ∧ state ≠ .start) : last.numeric = true ∧ last ≠ .start := by
  induction chars generalizing state with
  | nil =>
      cases run
      exact number
  | cons char chars ih =>
      rw [List.foldlM_cons] at run
      obtain ⟨next, moved, later⟩ := Option.bind_eq_some_iff.mp run
      apply ih later
      obtain ⟨numeric, started⟩ := number
      cases state with
      | word | dollar | index => cases numeric
      | start => exact absurd rfl started
      | whole | fraction | exponent | sign | power =>
          simp only [Progressed.step] at moved
          split_ifs at moved <;> (cases moved; exact ⟨rfl, nofun⟩)

theorem token_of_numeric {state : Progressed} (number : state.numeric = true ∧ state ≠ .start)
    (text : List Char) : state.token text = .number text := by
  cases state with
  | word | dollar | index => cases number.1
  | start | whole | fraction | exponent | sign | power => rfl

/-- A digit is nothing else. -/
theorem scan_digit (digit : char.isDigit = true) : isWordStart char = false ∧
    char.isWhitespace = false ∧ char ≠ quote := by
  have bounds : 48 ≤ char.toNat ∧ char.toNat ≤ 57 := by
    simpa [Char.isDigit, UInt32.le_iff_toNat_le] using digit
  have other : ∀ {character : Char}, character.isDigit = false → char ≠ character := by
    intro character noDigit same
    rw [same, noDigit] at digit
    cases digit
  refine ⟨?_, ?_, other rfl⟩
  · have noUnderscore : char ≠ '_' := other rfl
    have number : char.val.toNat = char.toNat := rfl
    simp [isWordStart, Char.isAlpha, Char.isUpper, Char.isLower, UInt32.le_iff_toNat_le,
      noUnderscore, number]
    omega
  · simp only [Char.isWhitespace, Bool.or_eq_false_iff, decide_eq_false_iff_not]
    exact ⟨⟨⟨other rfl, other rfl⟩, other rfl⟩, other rfl⟩

/-- The letter of an exponent is read in a word or for an exponent. -/
theorem word_or_exponent_of_step {state next : Progressed} (moved : state.step char = some next)
    (letter : char = 'e' ∨ char = 'E') : next = .word ∨ next = .exponent := by
  have facts : ∀ char, char = 'e' ∨ char = 'E' → isWordStart char = true ∧
      char.isDigit = false ∧ char ≠ '.' ∧ char ≠ '+' ∧ char ≠ '-' := by
    intro char letter
    rcases letter with lower | upper
    · rw [lower]
      decide
    · rw [upper]
      decide
  obtain ⟨inWord, noDigit, noSign⟩ := facts char letter
  cases state <;> simp [Progressed.step, inWord, noDigit, noSign] at moved
  case start => exact .inl moved.symm
  case word => exact .inl moved.symm
  case whole => exact .inr moved.2.symm
  case fraction => exact .inr moved.2.symm

/-- A whole number does not end in the letter of an exponent. -/
theorem getLast?_of_complete {state : Progressed}
    (run : chars.foldlM Progressed.step .start = some state) (number : state.numeric = true)
    (complete : state.complete = true) : ∀ last ∈ chars.getLast?, last ≠ 'e' ∧ last ≠ 'E' := by
  rcases List.eq_nil_or_concat chars with empty | ⟨more, final, same⟩
  · rw [empty]
    exact nofun
  · rw [same, List.concat_eq_append, List.foldlM_append] at run
    obtain ⟨before, _, moved⟩ := Option.bind_eq_some_iff.mp run
    have step : before.step final = some state := by simpa using moved
    rw [same, List.concat_eq_append, List.getLast?_concat]
    intro last ends
    cases ends
    by_contra letter
    rcases word_or_exponent_of_step step (by tauto) with word | exponent
    · rw [word] at number
      cases number
    · rw [exponent] at complete
      cases complete

/-- What begins with a digit begins with a number, in which there is no dollar sign
and which does not end in a letter. -/
theorem number_of_lex (digit : char.isDigit = true) {token : Token}
    (lexed : lex (char :: chars) = token :: more) : ∃ text, token = .number text ∧ '$' ∉ text ∧
      ∀ last ∈ text.getLast?, last ≠ 'e' ∧ last ≠ 'E' := by
  obtain ⟨noWord, black, unquoted⟩ := scan_digit digit
  have moved : Progressed.step .start char = some .whole := by
    simp [Progressed.step, noWord, digit]
  obtain ⟨⟨state, text, rest⟩, found⟩ :=
    @exists_longestMatch _ _ Progressed.step Progressed.complete .whole rfl chars
  have matched : longestMatch Progressed.step Progressed.complete .start (char :: chars) =
      some (state, char :: text, rest) := by
    rw [longestMatch, moved]
    dsimp only [Option.bind]
    rw [found]
  have number := numeric_of_run (longestMatch_eq_some found).2.1 ⟨rfl, nofun⟩
  have scanned : scan (char :: chars) = some (some (.number (char :: text)), rest) := by
    rw [scan, if_neg (by simp [black]), if_neg unquoted, matched, ← token_of_numeric number]
  obtain ⟨_, run, complete⟩ := longestMatch_eq_some matched
  rw [lex_of_scan scanned] at lexed
  cases lexed
  exact ⟨char :: text, rfl, dollar_not_mem_of_numeric run number.1,
    getLast?_of_complete run number.1 complete⟩

/-- A dollar sign with digits behind it is a placeholder. -/
theorem lex_placeholder (nonempty : chars ≠ []) (digits : chars.all Char.isDigit = true) :
    lex ('$' :: chars) = [.placeholder chars] := by
  have index : ∀ chars : List Char, chars.all Char.isDigit = true →
      longestMatch Progressed.step Progressed.complete .index chars = some (.index, chars, []) := by
    intro chars digits
    induction chars with
    | nil => rfl
    | cons char chars ih =>
        rw [List.all_cons, Bool.and_eq_true] at digits
        have moved : Progressed.step .index char = some .index := if_pos digits.1
        rw [longestMatch, moved]
        dsimp only [Option.bind]
        rw [ih digits.2]
  have matched : longestMatch Progressed.step Progressed.complete .start ('$' :: chars) =
      some (.index, '$' :: chars, []) := by
    cases chars with
    | nil => exact absurd rfl nonempty
    | cons char chars =>
        have moved : Progressed.step .dollar char = some .index := by
          rw [List.all_cons, Bool.and_eq_true] at digits
          exact if_pos digits.1
        rw [List.all_cons, Bool.and_eq_true] at digits
        have started : Progressed.step .start '$' = some .dollar := by decide
        rw [longestMatch, started]
        dsimp only [Option.bind]
        rw [longestMatch, moved]
        dsimp only [Option.bind]
        rw [index chars digits.2]
  have scanned : scan ('$' :: chars) = some (some (.placeholder chars), []) := by
    rw [scan, if_neg (by decide), if_neg (by decide), matched]
    rfl
  rw [lex_of_scan scanned]
  rfl

end Literals

end Foundation
