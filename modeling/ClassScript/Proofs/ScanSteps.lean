import ClassScript.Proofs.Lexical
import ClassScript.Proofs.Registry

/-! One step of the scanner against the lexical grammar. A step that succeeds takes a piece
of the source that is a filler or the lexeme of the token it gives, reads that token off its
lexeme as the longest one the text after it allows, and moves the line past the piece's
newlines (`step_ok`). A step that fails halts where the grammar says a token cannot be read
(`step_error`). -/
namespace ClassScript

namespace Scan

/-! ### Runs of characters -/

theorem take_length_takeWhile {α : Type} (p : α → Bool) (l : List α) :
    l.take (l.takeWhile p).length = l.takeWhile p := by
  induction l with
  | nil => rfl
  | cons a l ih => by_cases h : p a <;> simp [h, ih]

theorem drop_length_takeWhile {α : Type} (p : α → Bool) (l : List α) :
    l.drop (l.takeWhile p).length = l.dropWhile p := by
  induction l with
  | nil => rfl
  | cons a l ih => by_cases h : p a <;> simp [h, ih]

theorem dropWhile_stops {α : Type} (p : α → Bool) (l : List α) :
    ∀ a ∈ (l.dropWhile p).head?, p a = false := by
  intro a found
  have stops := List.head?_dropWhile_not p l
  rw [Option.mem_def.mp found] at stops
  exact stops

/-! ### Classes of characters -/

theorem alpha_of_digit {c : Char} (digit : isDigit c = true) : isAlpha c = false := by
  simp only [isDigit, Bool.and_eq_true, decide_eq_true_eq] at digit
  simp only [isAlpha, Bool.or_eq_false_iff, Bool.and_eq_false_iff, decide_eq_false_iff_not,
    beq_eq_false_iff_ne]
  obtain ⟨low, high⟩ := digit
  refine ⟨⟨?_, ?_⟩, ?_⟩
  · left; intro h; have := le_trans h high; revert this; decide
  · left; intro h; have := le_trans h high; revert this; decide
  · rintro rfl; revert high; decide

theorem count_newline_of_all {p : Char → Bool} {l : List Char} (all : l.all p = true)
    (newline : p '\n' = false) : l.count '\n' = 0 := by
  rw [List.count_eq_zero]
  intro mem
  have := List.all_eq_true.mp all _ mem
  simp_all

/-- A punctuation character is no newline, is read as its kind, and no text after it makes
a longer token. -/
theorem single_reads {c : Char} {kind : Token.Kind} (single : singleKind c = some kind) :
    c ≠ '\n' ∧ Token.read [c] = some (kind, .none) ∧ ∀ after, kind.extendsInto after = false := by
  unfold singleKind at single
  split at single <;> cases single <;>
    exact ⟨by decide, by decide, fun after => by cases after <;> rfl⟩

/-- An operator character is no newline and is read alone or with an `=` after it; alone,
only an `=` would make it longer. -/
theorem equal_reads {c : Char} {alone withEq : Token.Kind}
    (pair : equalKinds c = some (alone, withEq)) :
    c ≠ '\n' ∧ Token.read [c] = some (alone, .none) ∧
      Token.read [c, '='] = some (withEq, .none) ∧
      (∀ a after, alone.extendsInto (a :: after) = (a == '=')) ∧
      ∀ after, withEq.extendsInto after = false := by
  unfold equalKinds at pair
  split at pair <;> cases pair <;>
    exact ⟨by decide, by decide, by decide, fun a after => rfl, fun after => by cases after <;> rfl⟩

theorem wordKind_isWord (w : String) : (Token.wordKind w).isWord = true := by
  have keywords : ∀ p ∈ Token.keywords, p.2.isWord = true := by decide
  unfold Token.wordKind
  cases found : Token.keywords.lookup w with
  | none => rfl
  | some k => exact keywords (w, k) (mem_of_lookup_eq_some found)

theorem read_word {c : Char} {cs : List Char} (alpha : isAlpha c = true)
    (word : cs.all isWordChar = true) :
    Token.read (c :: cs) = some (Token.wordKind (String.ofList (c :: cs)), .none) := by
  simp [Token.read, alpha, word]

theorem read_int {ds : List Char} {v : Int64} (first : ds ≠ []) (digits : ds.all isDigit = true)
    (ok : Numeral.readInt (String.ofList ds) = .ok v) :
    Token.read ds = some (.int, .int v) := by
  obtain ⟨c, cs, rfl⟩ := List.exists_cons_of_ne_nil first
  have digit : isDigit c = true := by simp_all
  have rest : (c :: cs).dropWhile isDigit = [] := List.dropWhile_eq_nil_iff.mpr (by simpa using digits)
  have number : Token.readNumber (c :: cs) = some (.int, .int v) := by
    rw [Token.readNumber, rest, ok]
    rfl
  simp [Token.read, alpha_of_digit digit, digit, number]

theorem read_real {c : Char} {whole frac : List Char} {v : Real} (digit : isDigit c = true)
    (digits : whole.all isDigit = true) (fracSome : frac ≠ []) (fracDigits : frac.all isDigit = true)
    (ok : Numeral.readReal (String.ofList (c :: (whole ++ '.' :: frac))) = .ok v) :
    Token.read (c :: (whole ++ '.' :: frac)) = some (.real, .real v) := by
  have point : (c :: (whole ++ '.' :: frac)).dropWhile isDigit = '.' :: frac := by
    rw [← List.cons_append, List.dropWhile_append_of_pos (by simpa [digit] using digits)]
    rfl
  have number : Token.readNumber (c :: (whole ++ '.' :: frac)) = some (.real, .real v) := by
    rw [Token.readNumber, point, ok]
    simp [fracSome, fracDigits, Except.toOption]
  simp [Token.read, alpha_of_digit digit, digit, number]

theorem read_string {body v : List Char} (read : unescape body = some v) :
    Token.read ('"' :: (body ++ ['"'])) = some (.string, .string (String.ofList v)) := by
  simp [Token.read, read, show isAlpha '"' = false by decide, show isDigit '"' = false by decide]

/-! ### Numbers -/

theorem int_not_extended {after : List Char} (head : ∀ a ∈ after.head?, isDigit a = false)
    (point : ∀ d more, after = '.' :: d :: more → isDigit d = false) :
    Token.Kind.int.extendsInto after = false := by
  rcases after with _ | ⟨a, _ | ⟨d, more⟩⟩
  · rfl
  · simp [Token.Kind.extendsInto, Token.Kind.isWord, head a rfl]
  · by_cases dot : a = '.'
    · subst dot
      simp [Token.Kind.extendsInto, Token.Kind.isWord, point d more rfl,
        show isDigit '.' = false by decide]
    · simp [Token.Kind.extendsInto, Token.Kind.isWord, head a rfl, dot]

theorem real_not_extended {after : List Char} (head : ∀ a ∈ after.head?, isDigit a = false) :
    Token.Kind.real.extendsInto after = false := by
  rcases after with _ | ⟨a, more⟩
  · rfl
  · simpa [Token.Kind.extendsInto, Token.Kind.isWord] using head a rfl

theorem number_cases (c : Char) (rest : List Char) (line : Nat) :
    (∃ whole after, rest = whole ++ after ∧ whole.all isDigit ∧
      Token.Kind.int.extendsInto after = false ∧
      number c rest line = match Numeral.readInt (String.ofList (c :: whole)) with
        | .ok v => .ok (whole.length, ⟨.int, String.ofList (c :: whole), .int v, line⟩)
        | .error e => .error (.badLiteral e line)) ∨
    (∃ whole frac after, rest = (whole ++ '.' :: frac) ++ after ∧ whole.all isDigit ∧
      frac ≠ [] ∧ frac.all isDigit ∧ Token.Kind.real.extendsInto after = false ∧
      number c rest line =
        match Numeral.readReal (String.ofList (c :: (whole ++ '.' :: frac))) with
        | .ok v => .ok ((whole ++ '.' :: frac).length,
            ⟨.real, String.ofList (c :: (whole ++ '.' :: frac)), .real v, line⟩)
        | .error e => .error (.badLiteral e line)) := by
  have digits := List.all_takeWhile (p := isDigit) (l := rest)
  have stops := dropWhile_stops isDigit rest
  unfold number
  dsimp only
  rw [drop_length_takeWhile]
  split
  · rename_i frac hfrac
    unfold fraction at hfrac
    split at hfrac
    · rename_i d more hafter
      split at hfrac
      · cases hfrac
        rename_i hd
        right
        have hrest : rest = rest.takeWhile isDigit ++ '.' :: d :: more := by
          rw [← hafter, List.takeWhile_append_dropWhile]
        have fracStops := dropWhile_stops isDigit (d :: more)
        have fracDigits := List.all_takeWhile (p := isDigit) (l := d :: more)
        have fracSome : (d :: more).takeWhile isDigit ≠ [] := by simp [hd]
        have split := (List.takeWhile_append_dropWhile (p := isDigit) (l := d :: more)).symm
        clear hafter stops
        generalize rest.takeWhile isDigit = whole at hrest digits ⊢
        subst hrest
        generalize (d :: more).takeWhile isDigit = frac at fracDigits fracSome split ⊢
        generalize (d :: more).dropWhile isDigit = after at fracStops split ⊢
        have size : whole.length + 1 + frac.length = (whole ++ '.' :: frac).length := by
          simp; omega
        rw [split, show whole ++ '.' :: (frac ++ after) = (whole ++ '.' :: frac) ++ after by simp,
          size, List.take_left]
        exact ⟨whole, frac, after, rfl, digits, fracSome, fracDigits,
          real_not_extended fracStops, rfl⟩
      · cases hfrac
    · cases hfrac
  · rename_i hfrac
    left
    have point : ∀ d more, rest.dropWhile isDigit = '.' :: d :: more → isDigit d = false := by
      intro d more hafter
      rw [hafter] at hfrac
      simpa [fraction] using hfrac
    exact ⟨rest.takeWhile isDigit, rest.dropWhile isDigit, List.takeWhile_append_dropWhile.symm,
      digits, int_not_extended stops point, rfl⟩

/-! ### Block comments -/

theorem closer_cons {c : Char} {body : List Char} (inside : ¬ ['*', '/'] <:+: body)
    (first : c = '*' → body.head? ≠ some '/') : ¬ ['*', '/'] <:+: c :: body := by
  rw [List.infix_cons_iff]
  rintro (opens | later)
  · obtain ⟨rfl, head⟩ := List.cons_prefix_cons.mp opens
    cases body with
    | nil => simp at head
    | cons d body => exact first rfl (by simpa using (List.cons_prefix_cons.mp head).1.symm)
  · exact inside later

theorem head_not_closer {c : Char} {cs : List Char}
    (notClose : ∀ tail, c = '*' → cs = '/' :: tail → False) : c = '*' → cs.head? ≠ some '/' := by
  intro star head
  obtain ⟨tail, rfl⟩ := List.head?_eq_some_iff.mp head
  exact notClose tail star rfl

theorem commentBody_some {cs : List Char} {line n taken line' : Nat}
    (h : commentBody cs line n = some (taken, line')) :
    ∃ body after, cs = body ++ '*' :: '/' :: after ∧ ¬ ['*', '/'] <:+: body ∧
      taken = n + body.length + 2 ∧ line' = line + body.count '\n' := by
  fun_induction commentBody cs line n with
  | case1 after line n =>
    cases h
    exact ⟨[], after, rfl, by simp, by simp, by simp⟩
  | case2 cs line n ih =>
    obtain ⟨body, after, rfl, inside, rfl, rfl⟩ := ih h
    refine ⟨'\n' :: body, after, rfl, closer_cons inside (by simp), by simp; omega, by simp; omega⟩
  | case3 c cs line n notClose notNewline ih =>
    obtain ⟨body, after, rfl, inside, rfl, rfl⟩ := ih h
    have first : c = '*' → body.head? ≠ some '/' := by
      intro star head
      apply head_not_closer notClose star
      rw [List.head?_append, head]
      rfl
    refine ⟨c :: body, after, rfl, closer_cons inside first, by simp; omega, ?_⟩
    simpa [List.count_cons] using notNewline
  | case4 => cases h

theorem commentBody_none {cs : List Char} {line n : Nat} (h : commentBody cs line n = none) :
    ¬ ['*', '/'] <:+: cs := by
  fun_induction commentBody cs line n with
  | case1 => cases h
  | case2 cs line n ih => exact closer_cons (ih h) (by simp)
  | case3 c cs line n notClose _ ih => exact closer_cons (ih h) (head_not_closer notClose)
  | case4 => simp

/-! ### String literals -/

theorem unescape_plain {c : Char} {cs : List Char} (quote : c ≠ '"') (escape : c ≠ '\\') :
    unescape (c :: cs) = (unescape cs).map (c :: ·) := by
  cases cs <;> simp [unescape, escape]

theorem unescape_escape {e c : Char} {cs : List Char} (h : escapeOf e = some c) :
    unescape ('\\' :: e :: cs) = (unescape cs).map (c :: ·) := by
  simp [unescape, h]

/-- A backslash with nothing or anything after it is a lone one or an escape: a character
that is neither stands for itself. -/
theorem not_backslash {c : Char} {cs : List Char} (notLone : c = '\\' → cs = [] → False)
    (notEscape : ∀ e more, c = '\\' → cs = e :: more → False) : c ≠ '\\' := by
  intro back
  cases cs with
  | nil => exact notLone back rfl
  | cons e more => exact notEscape e more back rfl

theorem escapeOf_ne_newline {e c : Char} (h : escapeOf e = some c) : e ≠ '\n' := by
  rintro rfl
  simp [escapeOf] at h

theorem stringBody_ok {lead : Char → Char} {start line n taken line' : Nat} {cs acc chars : List Char}
    (h : stringBody lead start cs line acc n = .ok (chars, taken, line')) :
    ∃ body after v, cs = body ++ '"' :: after ∧ unescape body = some v ∧
      chars = acc.reverse ++ v ∧ taken = n + body.length + 1 ∧ line' = line + body.count '\n' := by
  fun_induction stringBody _ start cs line acc n with
  | case1 => cases h
  | case2 after line acc n =>
    cases h
    exact ⟨[], after, [], rfl, rfl, by simp, rfl, by simp⟩
  | case3 cs line acc n ih =>
    obtain ⟨body, after, v, rfl, read, rfl, rfl, rfl⟩ := ih h
    refine ⟨'\n' :: body, after, '\n' :: v, rfl, ?_, by simp, by simp; omega, by simp; omega⟩
    rw [unescape_plain (by decide) (by decide), read]
    rfl
  | case4 => cases h
  | case5 e cs line acc n c found ih =>
    obtain ⟨body, after, v, rfl, read, rfl, rfl, rfl⟩ := ih h
    refine ⟨'\\' :: e :: body, after, c :: v, rfl, ?_, by simp, by simp; omega, ?_⟩
    · rw [unescape_escape found, read]
      rfl
    · simp [escapeOf_ne_newline found]
  | case6 => cases h
  | case7 c cs line acc n notQuote notNewline notLone notEscape ih =>
    obtain ⟨body, after, v, rfl, read, rfl, rfl, rfl⟩ := ih h
    refine ⟨c :: body, after, c :: v, rfl, ?_, by simp, by simp; omega, ?_⟩
    · rw [unescape_plain notQuote (not_backslash notLone notEscape), read]
      rfl
    · simpa [List.count_cons] using notNewline

theorem Unclosed.plain {c : Char} {cs : List Char} (quote : c ≠ '"') (escape : c ≠ '\\')
    (h : Unclosed cs) : Unclosed (c :: cs) := by
  rcases h with whole | ⟨b, rfl, part⟩
  · left
    simpa [unescape_plain quote escape] using whole
  · right
    exact ⟨c :: b, rfl, by simpa [unescape_plain quote escape] using part⟩

theorem Unclosed.escape {e c : Char} {cs : List Char} (found : escapeOf e = some c)
    (h : Unclosed cs) : Unclosed ('\\' :: e :: cs) := by
  rcases h with whole | ⟨b, rfl, part⟩
  · left
    simpa [unescape_escape found] using whole
  · right
    exact ⟨'\\' :: e :: b, rfl, by simpa [unescape_escape found] using part⟩

theorem stringBody_error {start line n : Nat} {cs acc : List Char} {e : ScanError}
    (h : stringBody leadByte start cs line acc n = .error e) :
    (e = .unterminated .string start ∧ Unclosed cs) ∨
      ∃ body x more v, cs = body ++ '\\' :: x :: more ∧ unescape body = some v ∧
        escapeOf x = none ∧ e = .badEscape (leadByte x) (line + body.count '\n') := by
  fun_induction stringBody _ start cs line acc n with
  | case1 =>
    cases h
    exact .inl ⟨rfl, .inl rfl⟩
  | case2 => cases h
  | case3 cs line acc n ih =>
    rcases ih h with ⟨rfl, unclosed⟩ | ⟨body, x, more, v, rfl, read, bad, rfl⟩
    · exact .inl ⟨rfl, unclosed.plain (by decide) (by decide)⟩
    · refine .inr ⟨'\n' :: body, x, more, '\n' :: v, rfl, ?_, bad, by simp; omega⟩
      rw [unescape_plain (by decide) (by decide), read]
      rfl
  | case4 =>
    cases h
    exact .inl ⟨rfl, .inr ⟨[], rfl, rfl⟩⟩
  | case5 e cs line acc n c found ih =>
    rcases ih h with ⟨rfl, unclosed⟩ | ⟨body, x, more, v, rfl, read, bad, rfl⟩
    · exact .inl ⟨rfl, unclosed.escape found⟩
    · refine .inr ⟨'\\' :: e :: body, x, more, c :: v, rfl, ?_, bad, ?_⟩
      · rw [unescape_escape found, read]
        rfl
      · simp [escapeOf_ne_newline found]
  | case6 e cs line acc n bad =>
    cases h
    exact .inr ⟨[], e, cs, [], rfl, rfl, bad, by simp⟩
  | case7 c cs line acc n notQuote notNewline notLone notEscape ih =>
    have plain := not_backslash notLone notEscape
    rcases ih h with ⟨rfl, unclosed⟩ | ⟨body, x, more, v, rfl, read, bad, rfl⟩
    · exact .inl ⟨rfl, unclosed.plain notQuote plain⟩
    · refine .inr ⟨c :: body, x, more, c :: v, rfl, ?_, bad, ?_⟩
      · rw [unescape_plain notQuote plain, read]
        rfl
      · simpa [List.count_cons] using notNewline

/-! ### One step of the scan -/

/-- What a step that takes the text `piece`, followed by `after`, may give: no token, for a
filler, or a token whose lexeme is the piece, read off it as the longest token. -/
def Yields (piece after : List Char) : Option Token → Prop
  | none => Filler piece after
  | some t => t.lexeme.toList = piece ∧ t.Reads after

@[simp] theorem yields_none {piece after : List Char} :
    Yields piece after none ↔ Filler piece after := Iff.rfl

@[simp] theorem yields_some {piece after : List Char} {t : Token} :
    Yields piece after (some t) ↔ t.lexeme.toList = piece ∧ t.Reads after := Iff.rfl

/-- What a successful step at `c :: rest` does: it takes `c` and `taken` more characters,
which it yields as a filler or as a token; the line moves past their newlines, and a token
ends on the line it moves to. -/
structure Advances (c : Char) (rest : List Char) (line taken : Nat) (tok : Option Token)
    (line' : Nat) : Prop where
  within : taken ≤ rest.length
  lines : line' = line + (c :: rest.take taken).count '\n'
  ends : ∀ t ∈ tok, t.line = line'
  yields : Yields (c :: rest.take taken) (rest.drop taken) tok

section Branches

variable {lead : Char → Char} {c : Char} {rest : List Char} {line : Nat}

theorem Advances.of_piece {piece after : List Char} {tok : Option Token} {line' : Nat}
    (lines : line' = line + (c :: piece).count '\n') (ends : ∀ t ∈ tok, t.line = line')
    (yields : Yields (c :: piece) after tok) :
    Advances c (piece ++ after) line piece.length tok line' := by
  refine ⟨by simp, ?_, ends, ?_⟩
  · rw [List.take_left]
    exact lines
  · rw [List.take_left, List.drop_left]
    exact yields

theorem Advances.of_char {tok : Option Token} {line' : Nat}
    (lines : line' = line + [c].count '\n') (ends : ∀ t ∈ tok, t.line = line')
    (yields : Yields [c] rest tok) : Advances c rest line 0 tok line' :=
  (Advances.of_piece lines ends yields : Advances c ([] ++ rest) line ([] : List Char).length tok line')

theorem advances_single {kind : Token.Kind} (single : singleKind c = some kind) :
    Advances c rest line 0 (some ⟨kind, String.ofList (c :: rest.take 0), .none, line⟩) line := by
  obtain ⟨notNewline, read, longest⟩ := single_reads single
  exact .of_char (by simp [notNewline]) (by simp) (by simp [Token.Reads, read, longest])

theorem advances_withEqual {alone withEq : Token.Kind} {more : List Char}
    (pair : equalKinds c = some (alone, withEq)) :
    Advances c ('=' :: more) line 1
      (some ⟨withEq, String.ofList (c :: ('=' :: more).take 1), .none, line⟩) line := by
  obtain ⟨notNewline, -, read, -, longest⟩ := equal_reads pair
  show Advances c (['='] ++ more) line ['='].length
    (some ⟨withEq, String.ofList (c :: (['='] ++ more).take 1), .none, line⟩) line
  exact .of_piece (by simp [notNewline]) (by simp) (by simp [Token.Reads, read, longest])

theorem advances_alone {alone withEq : Token.Kind} (pair : equalKinds c = some (alone, withEq))
    (noEqual : ∀ more, rest = '=' :: more → False) :
    Advances c rest line 0 (some ⟨alone, String.ofList (c :: rest.take 0), .none, line⟩) line := by
  obtain ⟨notNewline, read, -, longest, -⟩ := equal_reads pair
  have stops : alone.extendsInto rest = false := by
    rcases rest with _ | ⟨a, more⟩
    · cases alone <;> rfl
    · have : a ≠ '=' := fun same => noEqual more (by rw [same])
      simpa [longest] using this
  exact .of_char (by simp [notNewline]) (by simp) (by simp [Token.Reads, read, stops])

theorem advances_slash (noLine : ∀ more, rest = '/' :: more → False)
    (noBlock : ∀ more, rest = '*' :: more → False) :
    Advances '/' rest line 0 (some ⟨.slash, String.ofList ('/' :: rest.take 0), .none, line⟩)
      line := by
  have stops : Token.Kind.slash.extendsInto rest = false := by
    rcases rest with _ | ⟨a, more⟩
    · rfl
    · have notLine : a ≠ '/' := fun same => noLine more (by rw [same])
      have notBlock : a ≠ '*' := fun same => noBlock more (by rw [same])
      simp [Token.Kind.extendsInto, Token.Kind.isWord, notLine, notBlock]
  exact .of_char (by simp) (by simp)
    (by simp [Token.Reads, stops, show Token.read ['/'] = some (.slash, .none) by decide])

theorem advances_lineComment (more : List Char) :
    Advances '/' ('/' :: more) line (1 + (more.takeWhile (· ≠ '\n')).length) none line := by
  have inside : '\n' ∉ more.takeWhile (· ≠ '\n') := by
    intro mem
    simpa using List.all_eq_true.mp List.all_takeWhile _ mem
  have boundary : ∀ a ∈ (more.dropWhile (· ≠ '\n')).head?, a = '\n' := by
    intro a found
    simpa using dropWhile_stops _ more a found
  have split : '/' :: more = ('/' :: more.takeWhile (· ≠ '\n')) ++ more.dropWhile (· ≠ '\n') := by
    simp
  rw [split, Nat.add_comm]
  have none : ('/' :: '/' :: more.takeWhile (· ≠ '\n')).count '\n' = 0 :=
    List.count_eq_zero.mpr (List.not_mem_cons_of_ne_of_not_mem (by decide)
      (List.not_mem_cons_of_ne_of_not_mem (by decide) inside))
  exact .of_piece (by rw [none]; rfl) (by simp) (.lineComment inside boundary)

theorem advances_blockComment {more : List Char} {taken line' : Nat}
    (found : commentBody more line 0 = some (taken, line')) :
    Advances '/' ('*' :: more) line (1 + taken) none line' := by
  obtain ⟨body, after, rfl, inside, rfl, rfl⟩ := commentBody_some found
  have split : '*' :: (body ++ '*' :: '/' :: after) = ('*' :: body ++ ['*', '/']) ++ after := by
    simp
  have size : 1 + (0 + body.length + 2) = ('*' :: body ++ ['*', '/']).length := by
    simp; omega
  rw [split, size]
  exact .of_piece (by simp) (by simp) (.blockComment inside)

theorem advances_blank (blank : c = ' ' ∨ c = '\t' ∨ c = '\r') :
    Advances c rest line 0 none line := by
  have notNewline : c ≠ '\n' := by rcases blank with rfl | rfl | rfl <;> decide
  exact .of_char (by simp [notNewline]) (by simp) (.blank (by tauto))

theorem advances_newline : Advances '\n' rest line 0 none (line + 1) :=
  .of_char (by simp) (by simp) (.blank (by simp))

theorem advances_string {chars : List Char} {taken line' : Nat}
    (found : stringBody lead line rest line [] 0 = .ok (chars, taken, line')) :
    Advances '"' rest line taken
      (some ⟨.string, String.ofList ('"' :: rest.take taken), .string (String.ofList chars), line'⟩)
      line' := by
  obtain ⟨body, after, v, rfl, read, rfl, rfl, rfl⟩ := stringBody_ok found
  have size : 0 + body.length + 1 = (body ++ ['"']).length := by simp
  rw [size, show body ++ '"' :: after = (body ++ ['"']) ++ after by simp, List.take_left]
  refine .of_piece (by simp) (by simp) ?_
  simp only [yields_some, String.toList_ofList, Token.Reads, true_and]
  exact ⟨by simpa using read_string read, by cases after <;> rfl⟩

theorem advances_number {taken : Nat} {t : Token} (digit : isDigit c = true)
    (found : number c rest line = .ok (taken, t)) : Advances c rest line taken (some t) line := by
  rcases number_cases c rest line with
    ⟨whole, after, rfl, digits, stops, eq⟩ |
    ⟨whole, frac, after, rfl, digits, fracSome, fracDigits, stops, eq⟩
  · rw [eq] at found
    split at found
    · rename_i v ok
      cases found
      have all : (c :: whole).all isDigit = true := by simp [digit, digits]
      refine .of_piece (by rw [count_newline_of_all all (by decide)]; rfl) (by simp)
        ⟨by simp, ?_, stops⟩
      dsimp only
      rw [String.toList_ofList]
      exact read_int (by simp) all ok
    · cases found
  · rw [eq] at found
    split at found
    · rename_i v ok
      cases found
      have all : (c :: (whole ++ '.' :: frac)).all (fun a => isDigit a || a == '.') = true := by
        simp_all [List.all_eq_true]
      refine .of_piece (by rw [count_newline_of_all all (by decide)]; rfl) (by simp)
        ⟨by simp, ?_, stops⟩
      dsimp only
      rw [String.toList_ofList]
      exact read_real digit digits fracSome fracDigits ok
    · cases found

theorem advances_word (alpha : isAlpha c = true) :
    Advances c rest line (rest.takeWhile isWordChar).length
      (some ⟨Token.wordKind (String.ofList (c :: rest.take (rest.takeWhile isWordChar).length)),
        String.ofList (c :: rest.take (rest.takeWhile isWordChar).length), .none, line⟩) line := by
  have all : (c :: rest.takeWhile isWordChar).all isWordChar = true := by
    simp [isWordChar, alpha, List.all_takeWhile]
  have stops : (Token.wordKind (String.ofList (c :: rest.takeWhile isWordChar))).extendsInto
      (rest.dropWhile isWordChar) = false := by
    rcases after : rest.dropWhile isWordChar with _ | ⟨a, more⟩
    · rfl
    · have notWord := dropWhile_stops isWordChar rest a (by simp [after])
      simp [Token.Kind.extendsInto, wordKind_isWord, notWord]
  rw [take_length_takeWhile]
  conv => arg 2; rw [← List.takeWhile_append_dropWhile (p := isWordChar) (l := rest)]
  refine .of_piece (by rw [count_newline_of_all all (by decide)]; rfl) (by simp)
    ⟨by simp, ?_, stops⟩
  dsimp only
  rw [String.toList_ofList]
  exact read_word alpha List.all_takeWhile

end Branches

theorem number_error {c : Char} {rest : List Char} {line : Nat} {e : ScanError}
    (digit : isDigit c = true) (h : number c rest line = .error e) : ∃ f k, Halts (c :: rest) f k ∧ e = f (line + k) := by
  rcases number_cases c rest line with
    ⟨whole, after, rfl, digits, stops, eq⟩ |
    ⟨whole, frac, after, rfl, digits, fracSome, fracDigits, stops, eq⟩
  · rw [eq] at h
    split at h
    · cases h
    · cases h
      rename_i err bad
      have all : (c :: whole).all isDigit = true := by simp [digit, digits]
      exact ⟨_, 0, (.badInt (by simp) all stops bad : Halts ((c :: whole) ++ after) _ 0), rfl⟩
  · rw [eq] at h
    split at h
    · cases h
    · cases h
      rename_i err bad
      have all : (c :: whole).all isDigit = true := by simp [digit, digits]
      exact ⟨_, 0, (.badReal (by simp) all fracSome fracDigits stops bad :
        Halts (((c :: whole) ++ '.' :: frac) ++ after) _ 0), rfl⟩

theorem step_ok {lead : Char → Char} {c : Char} {rest : List Char} {line taken line' : Nat} {tok : Option Token}
    (h : step lead c rest line = .ok (taken, tok, line')) : Advances c rest line taken tok line' := by
  unfold step at h
  dsimp only at h
  split at h
  · cases h
    exact advances_single ‹_›
  · split at h
    · split at h
      · cases h
        exact advances_withEqual ‹_›
      · cases h
        exact advances_alone ‹_› ‹_›
    · split at h
      · subst c
        split at h
        · cases h
          exact advances_lineComment _
        · split at h
          · cases h
            exact advances_blockComment ‹_›
          · cases h
        · cases h
          exact advances_slash ‹_› ‹_›
      · split at h
        · cases h
          exact advances_blank ‹_›
        · split at h
          · cases h
            subst c
            exact advances_newline
          · split at h
            · subst c
              split at h
              · cases h
                exact advances_string ‹_›
              · cases h
            · split at h
              · split at h
                · cases h
                  exact advances_number ‹_› ‹_›
                · cases h
              · split at h
                · cases h
                  exact advances_word ‹_›
                · cases h

/-- A step that fails halts at the start of the token it reads. -/
theorem step_error {c : Char} {rest : List Char} {line : Nat} {e : ScanError}
    (h : step leadByte c rest line = .error e) : ∃ f k, Halts (c :: rest) f k ∧ e = f (line + k) := by
  unfold step at h
  dsimp only at h
  split at h
  · cases h
  · split at h
    · split at h <;> cases h
    · split at h
      · subst c
        split at h
        · cases h
        · split at h
          · cases h
          · cases h
            exact ⟨_, 0, .openComment (commentBody_none ‹_›), rfl⟩
        · cases h
      · split at h
        · cases h
        · split at h
          · cases h
          · split at h
            · subst c
              split at h
              · cases h
              · cases h
                rcases stringBody_error ‹_› with
                  ⟨rfl, unclosed⟩ | ⟨body, x, more, v, rfl, read, bad, rfl⟩
                · exact ⟨_, 0, .openString unclosed, rfl⟩
                · exact ⟨_, body.count '\n', .badEscape read bad, rfl⟩
            · split at h
              · split at h
                · cases h
                · cases h
                  exact number_error ‹_› ‹_›
              · split at h
                · cases h
                · cases h
                  refine ⟨_, 0, .unknown ?_, rfl⟩
                  simp_all [starts]

end Scan

end ClassScript
