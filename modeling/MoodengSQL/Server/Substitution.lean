import MoodengSQL.Evaluation.Literals
import MoodengSQL.Foundation.Tokens
import MoodengSQL.Server.Text

/-!
# What substitution makes of a template

`substitute_params` replaces text by text, the last placeholder first. What it
puts in for a parameter is searched for the placeholders of the parameters before
it, and a quote in a parameter is not doubled; the parameters with which every
template keeps its tokens are told apart from the others.
-/

namespace MoodengSQL

open Foundation

section Replacement

/-- The text of a placeholder. -/
def placeholderText (index : Nat) : List Char := ("$" ++ toString index).toList

/-- `substitute_params` on characters. -/
def withParams (params : List (Option String)) (chars : List Char) : List Char :=
  params.zipIdx.reverse.foldl
    (fun result entry =>
      replaceFrom (placeholderText (entry.2 + 1)) (paramText entry.1).toList 0 result) chars

theorem substituteParams_eq (sql : String) (params : List (Option String)) :
    substituteParams sql params = String.ofList (withParams params sql.toList) := rfl

@[simp] theorem withParams_nil (chars : List Char) : withParams [] chars = chars := rfl

/-- The last parameter comes first. -/
theorem withParams_concat (params : List (Option String)) (param : Option String)
    (chars : List Char) : withParams (params ++ [param]) chars = withParams params
      (replaceFrom (placeholderText (params.length + 1)) (paramText param).toList 0 chars) := by
  unfold withParams
  rw [List.zipIdx_append, List.reverse_append]
  simp

theorem placeholderText_eq (index : Nat) :
    placeholderText index = '$' :: (toString index).toList := by
  rw [placeholderText, String.toList_append]
  rfl

variable {pattern replacement chars rest : List Char}

/-- A pattern does not reach over a character that is not in it. -/
theorem isPrefixOf_append {char : Char} (outside : char ∉ pattern) :
    pattern.isPrefixOf (chars ++ char :: rest) = pattern.isPrefixOf chars := by
  rw [Bool.eq_iff_iff, List.isPrefixOf_iff_prefix, List.isPrefixOf_iff_prefix]
  constructor
  · intro found
    have front : chars ++ [char] <+: chars ++ char :: rest := ⟨rest, by simp⟩
    rcases List.prefix_or_prefix_of_prefix found front with within | beyond
    · rcases List.prefix_concat_iff.mp within with same | within
      · exact absurd (same ▸ List.mem_append_right _ List.mem_cons_self) outside
      · exact within
    · exact absurd (beyond.mem (List.mem_append_right _ List.mem_cons_self)) outside
  · intro found
    exact found.trans (List.prefix_append _ _)

/-- A character that is not in the pattern stays, and the texts before and after it
are searched on their own. -/
theorem replaceFrom_append {char : Char} (nonempty : pattern ≠ []) (outside : char ∉ pattern)
    {skip : Nat} (fits : skip ≤ chars.length) :
    replaceFrom pattern replacement skip (chars ++ char :: rest) =
      replaceFrom pattern replacement skip chars ++
        char :: replaceFrom pattern replacement 0 rest := by
  induction chars generalizing skip with
  | nil =>
      cases Nat.le_zero.mp fits
      obtain ⟨first, more, same⟩ := List.exists_cons_of_ne_nil nonempty
      have other : first ≠ char := by
        intro equal
        apply outside
        rw [same, equal]
        exact List.mem_cons_self
      have absent : ¬ pattern.isPrefixOf (char :: rest) = true := by
        rw [same, List.isPrefixOf_cons_cons, Bool.and_eq_true, beq_iff_eq]
        exact fun found => other found.1
      exact if_neg absent
  | cons first chars ih =>
      cases skip with
      | succ skip =>
          rw [List.cons_append, replaceFrom, replaceFrom]
          exact ih (Nat.le_of_succ_le_succ fits)
      | zero =>
          rw [List.cons_append, replaceFrom, replaceFrom, ← List.cons_append,
            isPrefixOf_append outside]
          split
          case isTrue found =>
            have short := (List.isPrefixOf_iff_prefix.mp found).length_le
            rw [List.length_cons] at short
            rw [ih (by omega), List.append_assoc]
          case isFalse =>
            rw [ih (Nat.zero_le _), List.cons_append]

/-- Where the pattern does not occur, nothing is replaced. -/
theorem replaceFrom_of_not_infix (absent : ¬ pattern <:+: chars) :
    replaceFrom pattern replacement 0 chars = chars := by
  induction chars with
  | nil => rfl
  | cons first chars ih =>
      have noFront : ¬ pattern.isPrefixOf (first :: chars) = true :=
        fun found => absent (List.isPrefixOf_iff_prefix.mp found).isInfix
      rw [replaceFrom, if_neg noFront,
        ih fun inside => absent (inside.trans (List.suffix_cons _ _).isInfix)]

/-- The pattern itself is replaced. -/
theorem replaceFrom_self (nonempty : pattern ≠ []) :
    replaceFrom pattern replacement 0 pattern = replacement := by
  have skipped : ∀ chars : List Char, replaceFrom pattern replacement chars.length chars = [] := by
    intro chars
    induction chars with
    | nil => rfl
    | cons char chars ih => exact ih
  cases pattern with
  | nil => exact absurd rfl nonempty
  | cons first more =>
      have found : (first :: more).isPrefixOf (first :: more) = true :=
        List.isPrefixOf_iff_prefix.mpr List.prefix_rfl
      rw [replaceFrom, if_pos found]
      exact (congrArg (replacement ++ ·) (skipped more)).trans (List.append_nil _)

theorem placeholderText_ne_nil (index : Nat) : placeholderText index ≠ [] := by
  rw [placeholderText_eq]
  exact List.cons_ne_nil _ _

/-- Only a dollar sign or a digit is in a placeholder. -/
theorem not_mem_placeholderText {char : Char} (noDollar : char ≠ '$')
    (noDigit : char.isDigit = false) (index : Nat) : char ∉ placeholderText index := by
  rw [placeholderText_eq, List.mem_cons, not_or]
  exact ⟨noDollar, (isDecimal_toString index).not_mem noDigit⟩

/-- Parameters are put in before and after such a character on their own. -/
theorem withParams_append {char : Char} (noDollar : char ≠ '$') (noDigit : char.isDigit = false)
    (params : List (Option String)) (chars rest : List Char) :
    withParams params (chars ++ char :: rest) =
      withParams params chars ++ char :: withParams params rest := by
  induction params using List.reverseRecOn generalizing chars rest with
  | nil => rfl
  | append_singleton params param ih =>
      rw [withParams_concat, withParams_concat, withParams_concat, replaceFrom_append
        (placeholderText_ne_nil _) (not_mem_placeholderText noDollar noDigit _) (Nat.zero_le _), ih]

/-- Only the parameters whose placeholders occur matter. -/
theorem withParams_take {params : List (Option String)} {chars : List Char} {lower : Nat}
    (absent : ∀ index, lower < index → index ≤ params.length →
      ¬ placeholderText index <:+: chars) :
    withParams params chars = withParams (params.take lower) chars := by
  induction params using List.reverseRecOn with
  | nil => rw [List.take_nil]
  | append_singleton params param ih =>
      rw [List.length_append, List.length_singleton] at absent
      by_cases within : params.length < lower
      · rw [List.take_of_length_le]
        rw [List.length_append, List.length_singleton]
        exact within
      · rw [withParams_concat, replaceFrom_of_not_infix (absent _ (by omega) (Nat.le_refl _)),
          ih fun index above below => absent index above (Nat.le_succ_of_le below),
          List.take_append_of_le_length (by omega)]

/-- Without placeholders nothing is put in. -/
theorem withParams_of_absent {params : List (Option String)} {chars : List Char}
    (absent : ∀ index, 0 < index → index ≤ params.length → ¬ placeholderText index <:+: chars) :
    withParams params chars = chars := by
  rw [withParams_take absent, List.take_zero, withParams_nil]

theorem withParams_of_noDollar (params : List (Option String)) {chars : List Char}
    (noDollar : '$' ∉ chars) : withParams params chars = chars := by
  apply withParams_of_absent
  intro index _ _ inside
  apply noDollar
  apply inside.subset
  rw [placeholderText_eq]
  exact List.mem_cons_self

/-- More digits behind a number make no smaller one. -/
theorem digitsValue_le_append (digits more : List Char) :
    digitsValue digits ≤ digitsValue (digits ++ more) := by
  have grows : ∀ (more : List Char) (acc : Nat),
      acc ≤ more.foldl (fun acc c => acc * 10 + (c.toNat - '0'.toNat)) acc := by
    intro more
    induction more with
    | nil => exact fun acc => Nat.le_refl acc
    | cons char more ih =>
        intro acc
        have step : acc ≤ acc * 10 + (char.toNat - '0'.toNat) := by omega
        exact step.trans (ih _)
  rw [digitsValue, digitsValue, List.foldl_append]
  exact grows more _

/-- A placeholder is not part of one with a smaller number. -/
theorem not_placeholderText_infix {index smaller : Nat} (less : smaller < index) :
    ¬ placeholderText index <:+: placeholderText smaller := by
  rw [placeholderText_eq, placeholderText_eq]
  intro inside
  rcases List.infix_cons_iff.mp inside with front | later
  · obtain ⟨more, same⟩ := (List.cons_prefix_cons.mp front).2
    have value := digitsValue_le_append (toString index).toList more
    rw [same, digitsValue_toString, digitsValue_toString] at value
    omega
  · have dollar : '$' ∈ (toString smaller).toList := later.subset List.mem_cons_self
    exact (isDecimal_toString smaller).not_mem rfl dollar

/-- What is written for a parameter, after the parameters before it are put in. -/
def written (earlier : List (Option String)) (param : Option String) : List Char :=
  withParams earlier (paramText param).toList

/-- A placeholder becomes what is written for its parameter. -/
theorem withParams_placeholderText {params : List (Option String)} {index : Nat}
    {param : Option String} (named : params[index]? = some param) :
    withParams params (placeholderText (index + 1)) = written (params.take index) param := by
  have short : index < params.length := (List.getElem?_eq_some_iff.mp named).1
  rw [withParams_take fun larger above _ => not_placeholderText_infix above,
    List.take_add_one, named, Option.toList_some, withParams_concat, List.length_take,
    Nat.min_eq_left short.le, replaceFrom_self (placeholderText_ne_nil _), written]

end Replacement

section Templates

/-- A part of a template: text without placeholders, or a placeholder. -/
inductive Piece where
  | text (chars : List Char)
  | placeholder (index : Nat)

/-- A template: pieces with a separator between each two of them. -/
inductive Template where
  | last (piece : Piece)
  | next (piece : Piece) (separator : Char) (rest : Template)

/-- The text of a piece, with a text for each placeholder. -/
def Piece.render (fill : Nat → List Char) : Piece → List Char
  | .text chars => chars
  | .placeholder index => fill index

/-- The text of a template, with a text for each placeholder. -/
def Template.render (fill : Nat → List Char) : Template → List Char
  | .last piece => piece.render fill
  | .next piece separator rest => piece.render fill ++ separator :: rest.render fill

/-- The SQL text of a template. -/
def Template.sql (template : Template) : String :=
  String.ofList (template.render placeholderText)

/-- The strings of a text end in it, there is no placeholder among its tokens, and none
of the first ones within its strings. A placeholder is one of the first ones. -/
def Piece.WellFormed (count : Nat) : Piece → Prop
  | .text chars => .unterminated ∉ lex chars ∧ (∀ digits, .placeholder digits ∉ lex chars) ∧
      ∀ index, 0 < index → index ≤ count → ¬ placeholderText index <:+: chars
  | .placeholder index => 0 < index ∧ index ≤ count

/-- The placeholders of a template are among the first ones, stand outside of strings
and are set apart from other text. -/
def Template.WellFormed (count : Nat) : Template → Prop
  | .last piece => piece.WellFormed count
  | .next piece separator rest => piece.WellFormed count ∧
      Separates (piece.render placeholderText) separator ∧ rest.WellFormed count

/-- The placeholders of a template. -/
def Template.placeholders : Template → List Nat
  | .last (.text _) => []
  | .last (.placeholder index) => [index]
  | .next (.text _) _ rest => rest.placeholders
  | .next (.placeholder index) _ rest => index :: rest.placeholders

/-- The token denotes the parameter. -/
def Denotes : Option String → Token → Prop
  | none, token => token = .word "NULL".toList
  | some text, token => token = .number text.toList ∨ token = .quoted text.toList

/-- A token in the place of one of a template: a literal of its parameter in the place
of a placeholder, and the token itself elsewhere. -/
def Fills (params : List (Option String)) : Token → Token → Prop
  | .placeholder digits, token => ∃ index param, digits = (toString (index + 1)).toList ∧
      params[index]? = some param ∧ Denotes param token
  | original, token => token = original

/-- Substitution keeps the tokens of a template and puts one literal that denotes its
parameter in the place of each placeholder. -/
def Template.KeepsTokens (template : Template) (params : List (Option String)) : Prop :=
  List.Forall₂ (Fills params) (lex template.sql.toList)
    (lex (substituteParams template.sql params).toList)

/-- A parameter that cannot change a statement: it is absent, or a number, or a text that
is put in quotes, and in which the parameters before it are put in so that just its quotes
are doubled. -/
def SafeParam (earlier : List (Option String)) : Option String → Prop
  | none => True
  | some text => eqIgnoreAsciiCase text "null" = false ∧
      if text.toList.head?.any Char.isDigit then lex text.toList = [.number text.toList]
      else withParams earlier text.toList = doubled text.toList

/-- A text without quotes and without the placeholders of the parameters before it is safe,
unless it reads as no value or as a number. -/
theorem safeParam_of_plain {earlier : List (Option String)} {text : String}
    (present : eqIgnoreAsciiCase text "null" = false)
    (noDigit : text.toList.head?.any Char.isDigit = false) (noQuote : quote ∉ text.toList)
    (absent : ∀ index, 0 < index → index ≤ earlier.length →
      ¬ placeholderText index <:+: text.toList) : SafeParam earlier (some text) := by
  have single : ∀ chars : List Char, quote ∉ chars → doubled chars = chars := by
    intro chars noQuote
    induction chars with
    | nil => rfl
    | cons char chars ih =>
        rw [List.mem_cons, not_or] at noQuote
        rw [doubled_cons, if_neg (Ne.symm noQuote.1), ih noQuote.2]
        rfl
  refine ⟨present, ?_⟩
  rw [noDigit, if_neg (by decide), withParams_of_absent absent, single _ noQuote]

end Templates

section Literals

variable {earlier : List (Option String)} {text : String}

theorem written_none (earlier : List (Option String)) : written earlier none = "NULL".toList :=
  withParams_of_noDollar earlier (by decide)

/-- A quoted text stays between its quotes. -/
theorem written_quoted (present : eqIgnoreAsciiCase text "null" = false)
    (noDigit : text.toList.head?.any Char.isDigit = false) :
    written earlier (some text) = quote :: (withParams earlier text.toList ++ [quote]) := by
  have literal : (paramText (some text)).toList = [] ++ quote :: (text.toList ++ quote :: []) := by
    rw [paramText, present, if_neg (by decide), noDigit, if_neg (by decide), String.toList_append,
      String.toList_append]
    rfl
  have noDollar : quote ≠ '$' := by decide
  have notDigit : quote.isDigit = false := by decide
  rw [written, literal, withParams_append noDollar notDigit, withParams_append noDollar notDigit,
    withParams_of_noDollar earlier List.not_mem_nil]
  rfl

theorem withParams_cons {char : Char} (noDollar : char ≠ '$') (params : List (Option String))
    (chars : List Char) : withParams params (char :: chars) = char :: withParams params chars := by
  induction params using List.reverseRecOn generalizing chars with
  | nil => rfl
  | append_singleton params param ih =>
      have absent : ¬ (placeholderText (params.length + 1)).isPrefixOf (char :: chars) = true := by
        rw [placeholderText_eq, List.isPrefixOf_cons_cons, Bool.and_eq_true, beq_iff_eq]
        exact fun found => noDollar found.1.symm
      rw [withParams_concat, withParams_concat, replaceFrom, if_neg absent, ih]

theorem written_null (null : eqIgnoreAsciiCase text "null" = true) :
    written earlier (some text) = "NULL".toList := by
  rw [written, paramText, if_pos null]
  exact withParams_of_noDollar earlier (by decide)

theorem written_digit (present : eqIgnoreAsciiCase text "null" = false)
    (digit : text.toList.head?.any Char.isDigit = true) :
    written earlier (some text) = withParams earlier text.toList := by
  rw [written, paramText, present, if_neg (by decide), if_pos digit]

theorem lex_null : lex "NULL".toList = [.word "NULL".toList] := by
  decide +kernel

/-- A text that begins with a digit is written as one literal of it just when it is a
number. -/
theorem lex_written_digit (digit : text.toList.head?.any Char.isDigit = true) :
    lex text.toList = [.number text.toList] ↔ ∃ token,
      lex (withParams earlier text.toList) = [token] ∧ Denotes (some text) token := by
  obtain ⟨char, chars, same⟩ : ∃ char chars, text.toList = char :: chars := by
    cases whole : text.toList with
    | nil =>
        rw [whole] at digit
        cases digit
    | cons char chars => exact ⟨char, chars, rfl⟩
  have first : char.isDigit = true := by
    rw [same] at digit
    exact digit
  have noDollar : char ≠ '$' := by
    intro dollar
    rw [dollar] at first
    cases first
  constructor
  · intro number
    have token := number_of_lex first (same ▸ number)
    obtain ⟨_, whole, free, _⟩ := token
    cases whole
    refine ⟨.number text.toList, ?_, .inl rfl⟩
    rw [same, withParams_of_noDollar earlier free]
    exact same ▸ number
  · rintro ⟨token, alone, denotes⟩
    have begun : lex (char :: withParams earlier chars) = [token] := by
      rw [← withParams_cons noDollar, ← same]
      exact alone
    obtain ⟨_, whole, free, _⟩ := number_of_lex first begun
    rcases denotes with number | quoted
    · cases whole.symm.trans number
      rw [withParams_of_noDollar earlier free, number] at alone
      exact alone
    · rw [quoted] at whole
      cases whole

/-- **A parameter is safe if and only if what is written for it is one literal of it.** -/
theorem safeParam_iff (earlier : List (Option String)) (param : Option String) :
    SafeParam earlier param ↔ ∃ token, lex (written earlier param) = [token] ∧
      Denotes param token := by
  cases param with
  | none =>
      rw [written_none, lex_null]
      exact ⟨fun _ => ⟨_, rfl, rfl⟩, fun _ => trivial⟩
  | some text =>
      by_cases null : eqIgnoreAsciiCase text "null" = true
      · rw [written_null null, lex_null, SafeParam, null]
        constructor
        · intro safe
          cases safe.1
        · rintro ⟨token, word, number | quoted⟩
          · rw [number] at word
            cases word
          · rw [quoted] at word
            cases word
      · rw [Bool.not_eq_true] at null
        rw [SafeParam, null]
        simp only [true_and]
        by_cases digit : text.toList.head?.any Char.isDigit = true
        · rw [if_pos digit, written_digit null digit]
          exact lex_written_digit digit
        · rw [if_neg digit]
          rw [Bool.not_eq_true] at digit
          rw [written_quoted null digit]
          constructor
          · intro same
            exact ⟨_, lex_quoted_iff.mpr same, .inr rfl⟩
          · rintro ⟨token, alone, number | quoted⟩
            · rw [number] at alone
              exact absurd alone lex_quote_ne_number
            · rw [quoted] at alone
              exact lex_quoted_iff.mp alone

/-- A literal does not end in the letter of an exponent. -/
theorem getLast?_written {param : Option String} (safe : SafeParam earlier param) :
    ∀ last ∈ (written earlier param).getLast?, last ≠ 'e' ∧ last ≠ 'E' := by
  cases param with
  | none =>
      have ends : "NULL".toList.getLast? = some 'L' := by decide +kernel
      rw [written_none, ends]
      intro last same
      cases same
      decide
  | some text =>
      obtain ⟨present, literal⟩ := safe
      by_cases digit : text.toList.head?.any Char.isDigit = true
      · rw [if_pos digit] at literal
        rw [written_digit present digit]
        cases same : text.toList with
        | nil =>
            rw [same] at digit
            cases digit
        | cons char chars =>
            rw [same] at literal digit
            obtain ⟨_, whole, free, ends⟩ := number_of_lex digit literal
            cases whole
            rw [withParams_of_noDollar earlier free]
            exact ends
      · rw [Bool.not_eq_true] at digit
        rw [written_quoted present digit, ← List.cons_append, List.getLast?_concat]
        intro last same
        cases same
        decide

end Literals

section Kept

theorem not_denotes_unterminated {param : Option String} : ¬ Denotes param .unterminated := by
  cases param with
  | none => exact nofun
  | some text => exact fun denotes => denotes.elim nofun nofun

variable {params : List (Option String)}

theorem fills_self {tokens : List Token} (noPlaceholder : ∀ digits, .placeholder digits ∉ tokens) :
    List.Forall₂ (Fills params) tokens tokens := by
  apply List.forall₂_same.mpr
  intro token mem
  cases token with
  | placeholder digits => exact absurd mem (noPlaceholder digits)
  | quoted | unterminated | number | word | symbol => rfl

theorem lex_placeholderText (index : Nat) :
    lex (placeholderText index) = [.placeholder (toString index).toList] := by
  rw [placeholderText_eq]
  exact lex_placeholder (isDecimal_toString index).1 (isDecimal_toString index).2

/-- Parameters are put in piece by piece. -/
theorem withParams_render {template : Template} (wellFormed : template.WellFormed params.length) :
    withParams params (template.render placeholderText) =
      template.render fun index => withParams params (placeholderText index) := by
  have piecewise : ∀ {piece : Piece}, piece.WellFormed params.length →
      withParams params (piece.render placeholderText) =
        piece.render fun index => withParams params (placeholderText index) := by
    intro piece wellFormed
    cases piece with
    | text chars => exact withParams_of_absent wellFormed.2.2
    | placeholder index => rfl
  induction template with
  | last piece => exact piecewise wellFormed
  | next piece separator rest ih =>
      obtain ⟨first, separates, later⟩ := wellFormed
      obtain ⟨_, noDigit, _, noDollar, _⟩ := separates.1
      rw [Template.render, withParams_append noDollar noDigit, piecewise first, ih later]
      rfl

/-- The parameters of some placeholders are safe. -/
def AllSafe (params : List (Option String)) (indices : List Nat) : Prop :=
  ∀ index param, index + 1 ∈ indices → params[index]? = some param →
    SafeParam (params.take index) param

/-- A piece in which a safe parameter is put in fills the place of the piece, and ends like it. -/
theorem fills_piece {piece : Piece} (wellFormed : piece.WellFormed params.length)
    (safe : AllSafe params (Template.last piece).placeholders) :
    let filled := piece.render fun index => withParams params (placeholderText index)
    List.Forall₂ (Fills params) (lex (piece.render placeholderText)) (lex filled) ∧
      .unterminated ∉ lex (piece.render placeholderText) ∧ .unterminated ∉ lex filled ∧
      ∀ separator, Separates (piece.render placeholderText) separator →
        Separates filled separator := by
  cases piece with
  | text chars =>
      exact ⟨fills_self wellFormed.2.1, wellFormed.1, wellFormed.1, fun _ separates => separates⟩
  | placeholder place =>
      obtain ⟨index, rfl⟩ := Nat.exists_eq_succ_of_ne_zero wellFormed.1.ne'
      have named := List.getElem?_eq_getElem (Nat.lt_of_succ_le wellFormed.2)
      have literal := safe index _ List.mem_cons_self named
      obtain ⟨token, alone, denotes⟩ := (safeParam_iff _ _).mp literal
      dsimp only [Piece.render]
      rw [withParams_placeholderText named, alone, lex_placeholderText]
      refine ⟨.cons ⟨index, _, rfl, named, denotes⟩ .nil, ?_, ?_, ?_⟩
      · exact fun mem => nomatch List.mem_singleton.mp mem
      · intro mem
        rw [← List.mem_singleton.mp mem] at denotes
        exact not_denotes_unterminated denotes
      · exact fun separator separates => ⟨separates.1, fun _ => getLast?_written literal⟩

theorem AllSafe.of_subset {indices more : List Nat} (safe : AllSafe params more)
    (subset : indices ⊆ more) : AllSafe params indices :=
  fun index param mem named => safe index param (subset mem) named

/-- Safe parameters fill the places of their placeholders. -/
theorem fills_render {template : Template} (wellFormed : template.WellFormed params.length)
    (safe : AllSafe params template.placeholders) :
    List.Forall₂ (Fills params) (lex (template.render placeholderText))
      (lex (template.render fun index => withParams params (placeholderText index))) := by
  induction template with
  | last piece => exact (fills_piece wellFormed safe).1
  | next piece separator rest ih =>
      obtain ⟨first, separates, later⟩ := wellFormed
      have split : (Template.next piece separator rest).placeholders =
          (Template.last piece).placeholders ++ rest.placeholders := by
        cases piece <;> rfl
      rw [split] at safe
      obtain ⟨fills, closed, filledClosed, ends⟩ :=
        fills_piece first (safe.of_subset (List.subset_append_left _ _))
      rw [Template.render, lex_append separates closed, Template.render,
        lex_append (ends separator separates) filledClosed]
      apply List.rel_append fills
      apply List.rel_append
      · exact fills_self (placeholder_not_mem_separator separates.1)
      · exact ih later (safe.of_subset (List.subset_append_right _ _))

theorem keepsTokens_iff {template : Template} (wellFormed : template.WellFormed params.length) :
    template.KeepsTokens params ↔ List.Forall₂ (Fills params)
      (lex (template.render placeholderText))
      (lex (template.render fun index => withParams params (placeholderText index))) := by
  rw [Template.KeepsTokens, substituteParams_eq, Template.sql, String.toList_ofList,
    String.toList_ofList, withParams_render wellFormed]

/-- **Substitution keeps the tokens of every template with some placeholders if and only if
the parameters of these are safe.** -/
theorem substitution_keeps_tokens_iff (params : List (Option String)) (indices : List Nat) :
    (∀ template : Template, template.WellFormed params.length →
      template.placeholders ⊆ indices → template.KeepsTokens params) ↔
      AllSafe params indices := by
  constructor
  · intro keeps index param used named
    have short : index < params.length := (List.getElem?_eq_some_iff.mp named).1
    have wellFormed : (Template.last (.placeholder (index + 1))).WellFormed params.length :=
      ⟨Nat.succ_pos index, short⟩
    have kept := (keepsTokens_iff wellFormed).mp
      (keeps _ wellFormed (List.cons_subset.mpr ⟨used, List.nil_subset _⟩))
    simp only [Template.render, Piece.render] at kept
    rw [lex_placeholderText, withParams_placeholderText named] at kept
    obtain ⟨token, tokens, fills, none, alone⟩ := List.forall₂_cons_left_iff.mp kept
    rw [List.forall₂_nil_left_iff.mp none] at alone
    obtain ⟨index', param', digits, named', denotes⟩ := fills
    have same : index = index' := by
      have value := congrArg digitsValue digits
      rw [digitsValue_toString, digitsValue_toString] at value
      exact Nat.succ.inj value
    rw [← same, named] at named'
    cases named'
    exact (safeParam_iff _ _).mpr ⟨token, alone, denotes⟩
  · intro safe template wellFormed subset
    exact (keepsTokens_iff wellFormed).mpr (fills_render wellFormed (safe.of_subset subset))

/-- `SELECT $1`. -/
def selectTemplate : Template := .next (.text "SELECT".toList) ' ' (.last (.placeholder 1))

theorem selectTemplate_wellFormed : selectTemplate.WellFormed 1 := by
  have tokens : lex "SELECT".toList = [.word "SELECT".toList] := by decide +kernel
  have noDollar : '$' ∉ "SELECT".toList := by decide
  refine ⟨⟨?_, ?_, ?_⟩, by decide, Nat.one_pos, Nat.le_refl 1⟩
  · rw [tokens]
    exact fun mem => nomatch List.mem_singleton.mp mem
  · intro digits
    rw [tokens]
    exact fun mem => nomatch List.mem_singleton.mp mem
  · intro index _ _ inside
    apply noDollar
    apply inside.subset
    rw [placeholderText_eq]
    exact List.mem_cons_self

/-- A text that begins with a digit is put in without quotes. -/
theorem digit_text_adds_tokens : selectTemplate.WellFormed 1 ∧
    ¬ selectTemplate.KeepsTokens [some "1 OR 1=1"] := by
  refine ⟨selectTemplate_wellFormed, fun kept => ?_⟩
  have longer : (lex selectTemplate.sql.toList).length ≠
      (lex (substituteParams selectTemplate.sql [some "1 OR 1=1"]).toList).length := by
    decide +kernel
  exact longer kept.length_eq

end Kept

end MoodengSQL
