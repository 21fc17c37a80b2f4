import ClassScript.Proofs.Bytes

/-! Whole scans against the lexical grammar. A source that scans is spelled by its tokens,
each the longest one its lexeme allows; a scan that fails names the line of what it cannot
read. The literal written for any bytes, or any text, scans back to them. -/
namespace ClassScript

namespace Scan

/-! ### Whole scans -/

theorem Advances.counted {c : Char} {rest : List Char} {line taken : Nat} {tok : Option Token}
    {line' : Nat} (adv : Advances c rest line taken tok line') {before : List Char}
    (counted : line = 1 + before.count '\n') :
    line' = 1 + (before ++ c :: rest.take taken).count '\n' := by
  rw [adv.lines, counted, List.count_append]
  omega

/-- A step spells its piece, a filler or the lexeme of its token, in front of what the rest of
the scan spells. -/
theorem Advances.spells {c : Char} {rest : List Char} {line taken : Nat} {tok : Option Token}
    {line' : Nat} (adv : Advances c rest line taken tok line') {before post : List Char}
    {ts : List Token} (counted : line = 1 + before.count '\n')
    (spelled : Spelled Fits (before ++ c :: rest.take taken) (rest.drop taken) ts post) :
    Spelled Fits before (c :: rest) (tok.toList ++ ts) post := by
  rw [show c :: rest = (c :: rest.take taken) ++ rest.drop taken by simp]
  cases tok with
  | none => exact .filler adv.yields spelled
  | some t =>
    obtain ⟨lexeme, reads⟩ := adv.yields
    rw [← lexeme]
    refine .token ⟨reads, ?_⟩ (by rw [lexeme]; exact spelled)
    rw [adv.ends t rfl, adv.counted counted, lexeme]

/-- A scan of the source after `before`, started on the line that `before` ends on, that
succeeds spells that text with the tokens it adds, and ends them with an `Eof` on the
source's last line. -/
theorem run_ok {lead : Char → Char} {cs before : List Char} {line : Nat} {acc toks : List Token}
    (counted : line = 1 + before.count '\n') (h : run lead cs line acc = .ok toks) :
    ∃ ts, toks = acc.reverse ++ ts ++ [⟨.eof, "", .none, 1 + (before ++ cs).count '\n'⟩] ∧
      Spelled Fits before cs ts [] := by
  fun_induction run lead cs line acc generalizing before with
  | case1 line acc =>
    cases h
    exact ⟨[], by simp [counted], .stop⟩
  | case2 => simp at h
  | case3 line acc c rest taken tok line' found _ ih =>
    have adv := step_ok found
    obtain ⟨ts, rfl, spelled⟩ := ih (adv.counted counted) h
    refine ⟨tok.toList ++ ts, ?_, adv.spells counted spelled⟩
    have whole : before ++ c :: rest.take taken ++ rest.drop taken = before ++ c :: rest := by
      simp
    cases tok <;> simp [whole]

theorem run_error {cs before : List Char} {line : Nat} {acc : List Token} {e : ScanError}
    (counted : line = 1 + before.count '\n') (h : run leadByte cs line acc = .error e) :
    ∃ ts mid post f k, cs = mid ++ post ∧ Spelled Fits before cs ts post ∧ Halts post f k ∧
      e = f (1 + (before ++ mid).count '\n' + k) := by
  fun_induction run leadByte cs line acc generalizing before with
  | case1 => cases h
  | case2 line acc c rest e' found =>
    obtain ⟨f, k, halts, rfl⟩ := step_error found
    cases h
    exact ⟨[], [], c :: rest, f, k, rfl, .stop, halts, by simp [counted]⟩
  | case3 line acc c rest taken tok line' found _ ih =>
    have adv := step_ok found
    obtain ⟨ts, mid, post, f, k, parts, spelled, halts, rfl⟩ := ih (adv.counted counted) h
    have whole : c :: rest = (c :: rest.take taken ++ mid) ++ post := by
      rw [List.append_assoc, ← parts]
      simp
    exact ⟨tok.toList ++ ts, c :: rest.take taken ++ mid, post, f, k, whole,
      adv.spells counted spelled, halts, by simp⟩

end Scan

/-- A source that scans is fillers and the lexemes of its tokens, in order, followed by
`Eof`: each token is read off its lexeme alone, and is the longest token that the text after
it allows. -/
theorem Token.scan_spells_source {source : String} {tokens : List Token}
    (scanned : Token.scan source = .ok tokens) :
    ∃ ts line, tokens = ts ++ [⟨.eof, "", .none, line⟩] ∧
      Scan.Spelled (fun _ t after => t.Reads after) [] source.toList ts [] := by
  rw [Token.scan_eq_run] at scanned
  obtain ⟨ts, rfl, spelled⟩ := Scan.run_ok (show 1 = 1 + ([] : List Char).count '\n' from rfl) scanned
  exact ⟨ts, 1 + source.toList.count '\n', by simp, spelled.mono fun _ _ _ fits => fits.1⟩

theorem commented_source_spelled :
    Token.scan "/* one\ntwo */ x // tail\ny" =
        .ok [⟨.identifier, "x", .none, 2⟩, ⟨.identifier, "y", .none, 3⟩, ⟨.eof, "", .none, 3⟩] ∧
      ∃ ts line, [⟨.identifier, "x", .none, 2⟩, ⟨.identifier, "y", .none, 3⟩,
          ⟨.eof, "", .none, 3⟩] = ts ++ [⟨.eof, "", .none, line⟩] ∧
        Scan.Spelled (fun _ t after => t.Reads after) [] "/* one\ntwo */ x // tail\ny".toList ts [] :=
  ⟨by cbv, Token.scan_spells_source (by cbv)⟩

/-- Lines count newlines: every token ends on the line after the newlines up to the end of
its lexeme, and a fault is reported on the line after the newlines before what it names. -/
theorem Token.scan_lines_count_newlines (source : String) :
    (∀ tokens, Token.scan source = .ok tokens →
      ∃ ts, tokens = ts ++ [⟨.eof, "", .none, 1 + source.toList.count '\n'⟩] ∧
        Scan.Spelled Scan.Fits [] source.toList ts []) ∧
    (∀ e, Token.scan source = .error e →
      ∃ ts pre post f k, source.toList = pre ++ post ∧
        Scan.Spelled (fun _ t after => t.Reads after) [] source.toList ts post ∧
        Scan.Halts post f k ∧ e = f (1 + pre.count '\n' + k)) := by
  constructor
  · intro tokens scanned
    rw [Token.scan_eq_run] at scanned
    obtain ⟨ts, rfl, spelled⟩ := Scan.run_ok (show 1 = 1 + ([] : List Char).count '\n' from rfl) scanned
    exact ⟨ts, by simp, spelled⟩
  · intro e failed
    rw [Token.scan_eq_run] at failed
    obtain ⟨ts, pre, post, f, k, parts, spelled, halts, rfl⟩ :=
      Scan.run_error (show 1 = 1 + ([] : List Char).count '\n' from rfl) failed
    exact ⟨ts, pre, post, f, k, parts, spelled.mono fun _ _ _ fits => fits.1, halts, by simp⟩

theorem lines_of_comments_and_open_comment :
    (Token.scan "/* one\ntwo */ x // tail\ny" =
        .ok [⟨.identifier, "x", .none, 2⟩, ⟨.identifier, "y", .none, 3⟩, ⟨.eof, "", .none, 3⟩] ∧
      ∃ ts, [⟨.identifier, "x", .none, 2⟩, ⟨.identifier, "y", .none, 3⟩, ⟨.eof, "", .none, 3⟩] =
          ts ++ [⟨.eof, "", .none, 1 + "/* one\ntwo */ x // tail\ny".toList.count '\n'⟩] ∧
        Scan.Spelled Scan.Fits [] "/* one\ntwo */ x // tail\ny".toList ts []) ∧
    (Token.scan "a\n/* never closed\n" = .error (.unterminated .comment 2) ∧
      ∃ ts pre post f k, "a\n/* never closed\n".toList = pre ++ post ∧
        Scan.Spelled (fun _ t after => t.Reads after) [] "a\n/* never closed\n".toList ts post ∧
        Scan.Halts post f k ∧ ScanError.unterminated .comment 2 = f (1 + pre.count '\n' + k)) :=
  ⟨⟨by cbv, (Token.scan_lines_count_newlines _).1 _ (by cbv)⟩,
    ⟨by cbv, (Token.scan_lines_count_newlines _).2 _ (by cbv)⟩⟩

namespace Token

variable {lead : Char → Char}

theorem stringBody_literalChar (start line n : Nat) (c : Char) (acc rest : List Char) :
    Scan.stringBody lead start (literalChar c ++ rest) line acc n =
      Scan.stringBody lead start rest line (c :: acc) (n + (literalChar c).length) := by
  by_cases back : c = '\\'
  · subst back; rfl
  by_cases quote : c = '"'
  · subst quote; rfl
  by_cases newline : c = '\n'
  · subst newline; rfl
  by_cases tab : c = '\t'
  · subst tab; rfl
  by_cases cr : c = '\r'
  · subst cr; rfl
  have plain : literalChar c = [c] := by
    unfold literalChar
    split <;> simp_all
  rw [plain]
  simp [Scan.stringBody, back]

theorem stringBody_literal (start line : Nat) (after : List Char) (v : List Char) :
    ∀ (acc : List Char) (n : Nat),
      Scan.stringBody lead start (v.flatMap literalChar ++ '"' :: after) line acc n =
        .ok (acc.reverse ++ v, n + (v.flatMap literalChar).length + 1, line) := by
  induction v with
  | nil => intro acc n; simp [Scan.stringBody]
  | cons c v ih =>
    intro acc n
    rw [List.flatMap_cons, List.append_assoc, stringBody_literalChar, ih]
    simp only [List.reverse_cons, List.append_assoc, List.cons_append, List.nil_append,
      List.length_append]
    congr 3
    omega

/-- The literal written for the units `w` scans as one string token holding them, on line 1,
and then `Eof`, however a unit that cannot be read would be named. -/
theorem run_quoted (w : List Char) :
    Scan.run lead ('"' :: (w.flatMap literalChar ++ ['"'])) 1 [] =
      .ok [⟨.string, String.ofList ('"' :: (w.flatMap literalChar ++ ['"'])),
        .string (String.ofList w), 1⟩, ⟨.eof, "", .none, 1⟩] := by
  generalize written : w.flatMap literalChar ++ ['"'] = text
  have body : Scan.stringBody lead 1 text 1 [] 0 = .ok (w, text.length, 1) := by
    rw [← written, stringBody_literal]
    simp
  have quoted : Scan.step lead '"' text 1 =
      .ok (text.length, some ⟨.string, String.ofList ('"' :: text), .string (String.ofList w), 1⟩, 1) := by
    unfold Scan.step
    simp only [show Scan.singleKind '"' = none from rfl, show Scan.equalKinds '"' = none from rfl]
    rw [if_neg (by decide), if_neg (by decide), if_neg (by decide), if_pos trivial, body]
    dsimp only
    rw [List.take_length]
  rw [Scan.run, quoted]
  dsimp only
  rw [List.drop_length, Scan.run]
  rfl

theorem ofUInt8_toUInt8 {x : Char} (small : x.toNat < 0x100) : Char.ofUInt8 x.toUInt8 = x := by
  apply Char.toNat_inj.mp
  rw [Scan.toNat_ofUInt8, Char.toUInt8, UInt32.toNat_toUInt8, Char.toNat_val, Nat.mod_eq_of_lt small]

theorem map_quoteBytes (v : List UInt8) :
    (quoteBytes v).map Char.ofUInt8 =
      '"' :: ((v.map Char.ofUInt8).flatMap literalChar ++ ['"']) := by
  have byte (b : UInt8) : (literalByte b).map Char.ofUInt8 = literalChar (Char.ofUInt8 b) := by
    have small : (Char.ofUInt8 b).toNat < 0x100 := by
      rw [Scan.toNat_ofUInt8]
      exact b.toNat_lt
    rw [literalByte, List.map_map]
    unfold literalChar
    split <;> simp [ofUInt8_toUInt8 small] <;> decide
  simp [quoteBytes, List.map_flatMap, byte, List.flatMap_map]
  decide

/-- String literals read back exactly. The literal written for any bytes, valid UTF-8 or not,
scans as one string token, whose lexeme is that literal and whose text is those bytes, on
line 1, and then `Eof`; the literal written for any text scans back to that text. -/
theorem scan_quoted :
    (∀ v : List UInt8, Token.scanBytes (quoteBytes v) =
      .ok [⟨.string, bytesText (quoteBytes v), .string (bytesText v), 1⟩, ⟨.eof, "", .none, 1⟩]) ∧
    ∀ v : String, Token.scan (stringLexeme v) =
      .ok [⟨.string, stringLexeme v, .string v, 1⟩, ⟨.eof, "", .none, 1⟩] := by
  constructor
  · intro v
    rw [Token.scanBytes, bytesText, map_quoteBytes, run_quoted, bytesText]
  · intro v
    rw [Token.scan_eq_run, stringLexeme, String.toList_ofList, run_quoted, String.ofList_toList]

end Token

end ClassScript
