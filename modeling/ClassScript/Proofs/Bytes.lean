import ClassScript.Proofs.ScanSteps

/-! Bytes and characters. The scanner reads the UTF-8 bytes of a source one at a time. Every
byte of a character beyond ASCII lies above `0x7F`, where no token and no filler starts, so
such a character is read whole inside a string literal or a comment and refused anywhere
else, by its first byte. Scanning the characters of a text instead, with a character that
cannot be read named by its first byte, therefore finds the same tokens, their lexemes and
strings read back as text (`Token.scan_eq_run`). -/
namespace ClassScript

namespace Scan

/-! ### Units -/

/-- The units the scanner reads for a character: one for each byte of its UTF-8 form. -/
def unitsOf (c : Char) : List Char := (String.utf8EncodeChar c).map Char.ofUInt8

def units (cs : List Char) : List Char := cs.flatMap unitsOf

@[simp] theorem units_nil : units [] = [] := rfl

@[simp] theorem units_cons (c : Char) (cs : List Char) :
    units (c :: cs) = unitsOf c ++ units cs := rfl

@[simp] theorem units_append (as bs : List Char) : units (as ++ bs) = units as ++ units bs :=
  List.flatMap_append

theorem toNat_ofUInt8 (b : UInt8) : (Char.ofUInt8 b).toNat = b.toNat := by
  simp [Char.ofUInt8, Char.toNat]

theorem toUInt8_ofUInt8 (b : UInt8) : (Char.ofUInt8 b).toUInt8 = b := by
  apply UInt8.toNat_inj.mp
  simp [Char.toUInt8, Char.ofUInt8]

theorem toNat_ofNat_of_lt {n : Nat} (small : n < 0xd800) : (Char.ofNat n).toNat = n := by
  unfold Char.ofNat
  rw [dif_pos (Or.inl small)]
  rfl

theorem toNat_unit {n : Nat} (small : n < 0x100) : (Char.ofUInt8 (UInt8.ofNat n)).toNat = n := by
  rw [toNat_ofUInt8, UInt8.toNat_ofNat', Nat.mod_eq_of_lt small]

theorem toNat_lt (c : Char) : c.toNat < 0x110000 := by
  rcases c.valid with h | ⟨_, h⟩ <;> simp only [Char.toNat] at * <;> omega

/-- A character of ASCII is one unit, itself. -/
theorem unitsOf_ascii {c : Char} (ascii : c.toNat < 0x80) : unitsOf c = [c] := by
  have small : c.toNat ≤ 0x7f := by omega
  simp only [unitsOf, String.utf8EncodeChar, Char.toNat_val, if_pos small, List.map_cons,
    List.map_nil, List.cons.injEq, and_true]
  exact Char.toNat_inj.mp (toNat_unit (by omega))

theorem unit_eq_ofNat {n m : Nat} (small : n < 0x100) (same : n = m) :
    Char.ofUInt8 (UInt8.ofNat n) = Char.ofNat m := by
  subst same
  apply Char.toNat_inj.mp
  rw [toNat_unit small, toNat_ofNat_of_lt (by omega)]

theorem head_unitsOf (c : Char) : (unitsOf c).head? = some (leadByte c) := by
  have bound := toNat_lt c
  simp only [unitsOf, String.utf8EncodeChar, leadByte, Char.toNat_val]
  split_ifs <;> simp only [List.map_cons, List.head?_cons, Option.some.injEq] <;>
    exact unit_eq_ofNat (by omega) (by omega)

/-- Every unit of a character beyond ASCII lies above it. -/
theorem high_of_mem_unitsOf {c u : Char} (high : 0x80 ≤ c.toNat) (mem : u ∈ unitsOf c) :
    0x80 ≤ u.toNat := by
  have bound := toNat_lt c
  obtain ⟨b, byte, rfl⟩ := List.mem_map.mp mem
  rw [toNat_ofUInt8]
  simp only [String.utf8EncodeChar, Char.toNat_val] at byte
  split_ifs at byte <;> simp only [List.mem_cons, List.not_mem_nil, or_false] at byte <;>
    rcases byte with rfl | rfl | rfl | rfl <;> simp only [UInt8.toNat_ofNat'] <;> omega

theorem unitsOf_eq (c : Char) : ∃ more, unitsOf c = leadByte c :: more :=
  List.head?_eq_some_iff.mp (head_unitsOf c)

theorem units_cons_lead (c : Char) (cs : List Char) :
    ∃ more, units (c :: cs) = leadByte c :: (more ++ units cs) := by
  obtain ⟨more, hc⟩ := unitsOf_eq c
  exact ⟨more, by rw [units_cons, hc, List.cons_append]⟩

theorem leadByte_ascii {c : Char} (ascii : c.toNat < 0x80) : leadByte c = c := by
  simp [leadByte, ascii]

theorem leadByte_high {c : Char} (high : 0x80 ≤ c.toNat) : 0x80 ≤ (leadByte c).toNat := by
  obtain ⟨more, units⟩ := unitsOf_eq c
  exact high_of_mem_unitsOf high (by rw [units]; exact List.mem_cons_self)

theorem ne_of_high {u x : Char} (high : 0x80 ≤ u.toNat) (ascii : x.toNat < 0x80) : u ≠ x := by
  rintro rfl
  omega

/-- A lead byte is a character of ASCII exactly when its character is that one. -/
theorem leadByte_eq_iff {c x : Char} (ascii : x.toNat < 0x80) : leadByte c = x ↔ c = x := by
  rcases Nat.lt_or_ge c.toNat 0x80 with small | high
  · rw [leadByte_ascii small]
  · exact iff_of_false (ne_of_high (leadByte_high high) ascii) (ne_of_high high ascii)

theorem units_ascii {cs : List Char} (ascii : ∀ x ∈ cs, x.toNat < 0x80) : units cs = cs := by
  induction cs with
  | nil => rfl
  | cons c cs ih =>
    rw [units_cons, unitsOf_ascii (ascii c List.mem_cons_self), ih fun x mem => ascii x (List.mem_cons_of_mem c mem)]
    rfl

theorem head?_units (cs : List Char) : (units cs).head? = cs.head?.map leadByte := by
  cases cs with
  | nil => rfl
  | cons c cs =>
    obtain ⟨more, units⟩ := unitsOf_eq c
    simp [units]

/-! ### Units above ASCII -/

section High

variable {u : Char} (high : 0x80 ≤ u.toNat)
include high

theorem isDigit_high : isDigit u = false := by
  simp [isDigit, Char.le_def, UInt32.le_iff_toNat_le]
  omega

theorem isAlpha_high : isAlpha u = false := by
  simp only [isAlpha, Bool.or_eq_false_iff, Bool.and_eq_false_iff, decide_eq_false_iff_not,
    Char.le_def, UInt32.le_iff_toNat_le, Char.toNat_val, beq_eq_false_iff_ne]
  exact ⟨⟨.inr (by simpa using show ¬ u.toNat ≤ 122 by omega),
    .inr (by simpa using show ¬ u.toNat ≤ 90 by omega)⟩, ne_of_high high (by decide)⟩

theorem singleKind_high : singleKind u = none := by
  unfold singleKind
  split <;> simp_all

theorem equalKinds_high : equalKinds u = none := by
  unfold equalKinds
  split <;> simp_all

theorem escapeOf_high : escapeOf u = none := by
  unfold escapeOf
  split <;> simp_all

/-- A unit above ASCII starts no token and no filler: the scan refuses it. -/
theorem step_high (lead : Char → Char) (rest : List Char) (line : Nat) :
    step lead u rest line = .error (.unknownChar (lead u) line) := by
  have ne (x : Char) (ascii : x.toNat < 0x80) : u ≠ x := ne_of_high high ascii
  unfold step
  simp [singleKind_high high, equalKinds_high high, isDigit_high high, isAlpha_high high,
    ne '/' (by decide), ne ' ' (by decide), ne '\t' (by decide), ne '\r' (by decide),
    ne '\n' (by decide), ne '"' (by decide)]

end High

theorem isWordChar_high {u : Char} (high : 0x80 ≤ u.toNat) : isWordChar u = false := by
  simp [isWordChar, isAlpha_high high, isDigit_high high]

/-! ### Runs of units -/

section Runs

variable {p : Char → Bool} (stops : ∀ u : Char, 0x80 ≤ u.toNat → p u = false)
include stops

/-- A run of a class of ASCII characters, such as digits, is the same over the units of a
text as over its characters. -/
theorem takeWhile_units (cs : List Char) : (units cs).takeWhile p = cs.takeWhile p := by
  induction cs with
  | nil => rfl
  | cons c cs ih =>
    rcases Nat.lt_or_ge c.toNat 0x80 with ascii | high
    · rw [units_cons, unitsOf_ascii ascii]
      by_cases hp : p c <;> simp [hp, ih]
    · obtain ⟨more, hu⟩ := units_cons_lead c cs
      rw [hu]
      simp [stops _ (leadByte_high high), stops _ high]

theorem dropWhile_units (cs : List Char) : (units cs).dropWhile p = units (cs.dropWhile p) := by
  induction cs with
  | nil => rfl
  | cons c cs ih =>
    rcases Nat.lt_or_ge c.toNat 0x80 with ascii | high
    · rw [units_cons, unitsOf_ascii ascii]
      by_cases hp : p c <;> simp [hp, ih, unitsOf_ascii ascii]
    · obtain ⟨more, hu⟩ := units_cons_lead c cs
      rw [hu]
      simp [stops _ (leadByte_high high), stops _ high, hu]

theorem ascii_of_mem_takeWhile {cs : List Char} {x : Char} (mem : x ∈ cs.takeWhile p) :
    x.toNat < 0x80 := by
  have inClass := List.mem_takeWhile_imp mem
  by_contra high
  simp [stops x (by omega)] at inClass

end Runs

theorem takeWhile_units_ne_newline (cs : List Char) :
    (units cs).takeWhile (· ≠ '\n') = units (cs.takeWhile (· ≠ '\n')) := by
  induction cs with
  | nil => rfl
  | cons c cs ih =>
    rcases Nat.lt_or_ge c.toNat 0x80 with ascii | high
    · rw [units_cons, unitsOf_ascii ascii, List.singleton_append]
      by_cases newline : c = '\n'
      · subst newline
        simp
      · rw [List.takeWhile_cons_of_pos (by simpa using newline),
          List.takeWhile_cons_of_pos (by simpa using newline), ih, units_cons,
          unitsOf_ascii ascii, List.singleton_append]
    · have plain : ∀ u ∈ unitsOf c, decide (u ≠ '\n') = true :=
        fun u mem => by simpa using ne_of_high (high_of_mem_unitsOf high mem) (by decide)
      rw [units_cons, List.takeWhile_append_of_pos plain, ih,
        List.takeWhile_cons_of_pos (by simpa using ne_of_high high (by decide)), units_cons]

theorem units_split (cs : List Char) (k : Nat) :
    units cs = units (cs.take k) ++ units (cs.drop k) := by
  rw [← units_append, List.take_append_drop]

theorem take_units (cs : List Char) (k : Nat) :
    (units cs).take (units (cs.take k)).length = units (cs.take k) := by
  rw [units_split cs k, List.take_left]

theorem drop_units (cs : List Char) (k : Nat) :
    (units cs).drop (units (cs.take k)).length = units (cs.drop k) := by
  rw [units_split cs k, List.drop_left]

/-! ### Comments -/

theorem commentBody_cons {c : Char} {cs : List Char} (notClose : c = '*' → cs.head? ≠ some '/')
    (line n : Nat) :
    commentBody (c :: cs) line n = commentBody cs (if c = '\n' then line + 1 else line) (n + 1) := by
  by_cases newline : c = '\n'
  · subst newline
    rfl
  · rw [if_neg newline]
    exact commentBody.eq_3 _ _ _ _ (fun _ star rest => notClose star (by simp [rest])) newline

theorem commentBody_shift (cs : List Char) : ∀ (line n : Nat),
    commentBody cs line n = (commentBody cs line 0).map fun r => (n + r.1, r.2) := by
  induction cs with
  | nil => intro line n; rfl
  | cons c cs ih =>
    intro line n
    by_cases close : c = '*' ∧ cs.head? = some '/'
    · obtain ⟨rfl, head⟩ := close
      obtain ⟨after, rfl⟩ := List.head?_eq_some_iff.mp head
      simp [commentBody]
    have notClose : c = '*' → cs.head? ≠ some '/' := fun star head => close ⟨star, head⟩
    rw [commentBody_cons notClose, commentBody_cons notClose, ih _ (n + 1), ih _ 1, Option.map_map]
    congr 1
    funext r
    simp only [Function.comp_apply, Prod.mk.injEq, and_true]
    omega

theorem commentBody_highs {us : List Char} (high : ∀ u ∈ us, 0x80 ≤ u.toNat) (xs : List Char)
    (line n : Nat) : commentBody (us ++ xs) line n = commentBody xs line (n + us.length) := by
  induction us generalizing n with
  | nil => rfl
  | cons u us ih =>
    have highU := high u List.mem_cons_self
    rw [List.cons_append, commentBody_cons (fun star => absurd star (ne_of_high highU (by decide))),
      if_neg (ne_of_high highU (by decide)), ih (fun v mem => high v (List.mem_cons_of_mem u mem)),
      List.length_cons]
    congr 1
    omega

/-- A character that does not start the closing `*/` is taken with all its units. -/
theorem commentBody_unitsOf {c : Char} {cs : List Char} (notClose : c = '*' → cs.head? ≠ some '/')
    (line n : Nat) :
    commentBody (unitsOf c ++ units cs) line n =
      commentBody (units cs) (if c = '\n' then line + 1 else line) (n + (unitsOf c).length) := by
  rcases Nat.lt_or_ge c.toNat 0x80 with ascii | high
  · have unitsNotClose : c = '*' → (units cs).head? ≠ some '/' := by
      intro star head
      rw [head?_units] at head
      obtain ⟨d, first, lead⟩ := Option.map_eq_some_iff.mp head
      exact notClose star (by rw [first, (leadByte_eq_iff (by decide)).mp lead])
    rw [unitsOf_ascii ascii, List.singleton_append, commentBody_cons unitsNotClose]
    rfl
  · rw [if_neg (ne_of_high high (by decide))]
    exact commentBody_highs (fun u mem => high_of_mem_unitsOf high mem) _ _ _

/-- A block comment over the units of a text ends where it ends over the characters, on the
same line, having taken the units of what it takes. -/
theorem commentBody_units (cs : List Char) : ∀ (line n : Nat),
    commentBody (units cs) line n =
      (commentBody cs line 0).map fun r => (n + (units (cs.take r.1)).length, r.2) := by
  induction cs with
  | nil => intro line n; rfl
  | cons c cs ih =>
    intro line n
    by_cases close : c = '*' ∧ cs.head? = some '/'
    · obtain ⟨rfl, head⟩ := close
      obtain ⟨after, rfl⟩ := List.head?_eq_some_iff.mp head
      simp [commentBody, unitsOf_ascii (show ('*' : Char).toNat < 0x80 by decide),
        unitsOf_ascii (show ('/' : Char).toNat < 0x80 by decide)]
    have notClose : c = '*' → cs.head? ≠ some '/' := fun star head => close ⟨star, head⟩
    rw [units_cons, commentBody_unitsOf notClose, ih, commentBody_cons notClose,
      commentBody_shift cs _ 1, Option.map_map]
    congr 1
    funext r
    simp [Nat.add_comm 1 r.1]
    omega

/-! ### String literals -/

section Strings

variable {lead : Char → Char} {start : Nat}

theorem stringBody_cons {c : Char} {cs : List Char} (quote : c ≠ '"') (back : c ≠ '\\')
    (line : Nat) (acc : List Char) (n : Nat) :
    stringBody lead start (c :: cs) line acc n =
      stringBody lead start cs (if c = '\n' then line + 1 else line) (c :: acc) (n + 1) := by
  by_cases newline : c = '\n'
  · subst newline
    rfl
  · rw [if_neg newline]
    exact stringBody.eq_6 _ _ _ _ _ _ _ quote newline (fun h => absurd h back)
      (fun _ _ h => absurd h back)

theorem stringBody_highs {us : List Char} (high : ∀ u ∈ us, 0x80 ≤ u.toNat) (xs : List Char)
    (line : Nat) (acc : List Char) (n : Nat) :
    stringBody lead start (us ++ xs) line acc n =
      stringBody lead start xs line (us.reverse ++ acc) (n + us.length) := by
  induction us generalizing acc n with
  | nil => rfl
  | cons u us ih =>
    have highU := high u List.mem_cons_self
    rw [List.cons_append, stringBody_cons (ne_of_high highU (by decide)) (ne_of_high highU (by decide)),
      if_neg (ne_of_high highU (by decide)), ih (fun v mem => high v (List.mem_cons_of_mem u mem))]
    simp only [List.reverse_cons, List.append_assoc, List.singleton_append, List.length_cons]
    congr 1
    omega

theorem stringBody_unitsOf {c : Char} (quote : c ≠ '"') (back : c ≠ '\\') (xs : List Char)
    (line : Nat) (acc : List Char) (n : Nat) :
    stringBody lead start (unitsOf c ++ xs) line acc n =
      stringBody lead start xs (if c = '\n' then line + 1 else line) ((unitsOf c).reverse ++ acc)
        (n + (unitsOf c).length) := by
  rcases Nat.lt_or_ge c.toNat 0x80 with ascii | high
  · rw [unitsOf_ascii ascii, List.singleton_append, stringBody_cons quote back]
    rfl
  · rw [if_neg (ne_of_high high (by decide))]
    exact stringBody_highs (fun u mem => high_of_mem_unitsOf high mem) _ _ _ _

theorem escapeOf_ascii {e c : Char} (h : escapeOf e = some c) :
    e.toNat < 0x80 ∧ c.toNat < 0x80 := by
  unfold escapeOf at h
  split at h <;> cases h <;> decide

/-- The units of the text of a string literal whose escapes are sound are collected as the
units of what the text stands for, on the line after its newlines. -/
theorem stringBody_escaped {body v : List Char} (read : unescape body = some v) (xs : List Char)
    (line : Nat) (acc : List Char) (n : Nat) :
    stringBody lead start (units body ++ xs) line acc n =
      stringBody lead start xs (line + body.count '\n') ((units v).reverse ++ acc)
        (n + (units body).length) := by
  fun_induction unescape body generalizing v line acc n with
  | case1 =>
    cases read
    rfl
  | case2 => cases read
  | case3 e cs ih =>
    obtain ⟨c, found, rest⟩ := Option.bind_eq_some_iff.mp read
    obtain ⟨w, readRest, rfl⟩ := Option.map_eq_some_iff.mp rest
    obtain ⟨eAscii, cAscii⟩ := escapeOf_ascii found
    rw [units_cons, units_cons, unitsOf_ascii (by decide), unitsOf_ascii eAscii]
    simp only [List.cons_append, List.nil_append]
    rw [stringBody.eq_5, found]
    dsimp only
    rw [ih readRest]
    simp [escapeOf_ne_newline found, unitsOf_ascii cAscii]
    congr 1
    omega
  | case4 => cases read
  | case5 c cs notQuote notEscape notLone ih =>
    obtain ⟨w, readRest, rfl⟩ := Option.map_eq_some_iff.mp read
    rw [units_cons, List.append_assoc, stringBody_unitsOf notQuote (not_backslash notLone notEscape),
      ih readRest]
    by_cases newline : c = '\n'
    · simp [newline]
      congr 1 <;> omega
    · simp [newline]
      rw [Nat.add_assoc]

/-- A string literal over the units of a text reads what it reads over the characters, as
units, up to the same line, having taken the units of what it takes; it fails where it fails,
with the same fault. -/
theorem stringBody_units (start line : Nat) (rest : List Char) :
    stringBody id start (units rest) line [] 0 =
      (stringBody leadByte start rest line [] 0).map fun r =>
        (units r.1, (units (rest.take r.2.1)).length, r.2.2) := by
  have backslash : unitsOf '\\' = ['\\'] := unitsOf_ascii (by decide)
  cases found : stringBody leadByte start rest line [] 0 with
  | ok r =>
    obtain ⟨chars, taken, line'⟩ := r
    obtain ⟨body, after, v, rfl, read, rfl, rfl, rfl⟩ := stringBody_ok found
    have taken : (body ++ '"' :: after).take (body.length + 1) = body ++ ['"'] := by
      rw [show body ++ '"' :: after = (body ++ ['"']) ++ after by simp, List.take_left' (by simp)]
    rw [units_append, units_cons, unitsOf_ascii (by decide), List.singleton_append,
      stringBody_escaped read]
    simp [stringBody, Except.map, taken, unitsOf_ascii (show ('"' : Char).toNat < 0x80 by decide)]
  | error e =>
    rcases stringBody_error found with ⟨rfl, unclosed⟩ | ⟨body, x, more, v, rfl, read, bad, rfl⟩
    · -- the source ends inside the literal, perhaps after a lone backslash
      rcases unclosed with whole | ⟨b, rfl, part⟩
      · obtain ⟨v, read⟩ := Option.isSome_iff_exists.mp whole
        rw [← List.append_nil (units rest), stringBody_escaped read]
        rfl
      · obtain ⟨v, read⟩ := Option.isSome_iff_exists.mp part
        rw [units_append, units_cons, backslash, stringBody_escaped read]
        rfl
    · -- a backslash before a character that starts no escape, named by its lead byte
      obtain ⟨tail, hx⟩ := units_cons_lead x more
      have noEscape : escapeOf (leadByte x) = none := by
        rcases Nat.lt_or_ge x.toNat 0x80 with ascii | high
        · rwa [leadByte_ascii ascii]
        · exact escapeOf_high (leadByte_high high)
      rw [units_append, units_cons, backslash, hx, stringBody_escaped read,
        List.singleton_append, stringBody.eq_5, noEscape]
      rfl

end Strings

/-! ### Numbers -/

theorem ascii_of_digit {d : Char} (digit : isDigit d = true) : d.toNat < 0x80 := by
  by_contra high
  rw [isDigit_high (by omega)] at digit
  cases digit

theorem isDigit_leadByte (c : Char) : isDigit (leadByte c) = isDigit c := by
  rcases Nat.lt_or_ge c.toNat 0x80 with ascii | high
  · rw [leadByte_ascii ascii]
  · rw [isDigit_high (leadByte_high high), isDigit_high high]

theorem fraction_cons_of_ne {x : Char} {xs : List Char} (notPoint : x ≠ '.') :
    fraction (x :: xs) = none :=
  fraction.eq_2 _ fun _ _ same => notPoint (List.cons.inj same).1

theorem fraction_some {cs frac : List Char} (h : fraction cs = some frac) :
    ∃ post, cs = '.' :: frac ++ post ∧ ∀ x ∈ frac, isDigit x = true := by
  unfold fraction at h
  split at h
  · rename_i d more
    split at h
    · cases h
      exact ⟨(d :: more).dropWhile isDigit, by simp, fun x mem => List.mem_takeWhile_imp mem⟩
    · cases h
  · cases h

theorem fraction_units (cs : List Char) : fraction (units cs) = fraction cs := by
  cases cs with
  | nil => rfl
  | cons c cs =>
    by_cases point : c = '.'
    · subst point
      rw [units_cons, unitsOf_ascii (by decide), List.singleton_append]
      cases cs with
      | nil => rfl
      | cons d ds =>
        by_cases digit : isDigit d = true
        · have ascii := ascii_of_digit digit
          rw [units_cons, unitsOf_ascii ascii, List.singleton_append]
          simp only [fraction, digit, if_true]
          rw [show d :: units ds = units (d :: ds) by rw [units_cons, unitsOf_ascii ascii]; rfl,
            takeWhile_units (fun _ high => isDigit_high high)]
        · obtain ⟨tail, hd⟩ := units_cons_lead d ds
          rw [hd]
          simp [fraction, isDigit_leadByte, digit]
    · obtain ⟨more, hc⟩ := units_cons_lead c cs
      rw [hc, fraction_cons_of_ne ((leadByte_eq_iff (by decide)).not.mpr point), fraction_cons_of_ne point]

/-- A number reads the same over units as over characters: its digits are ASCII. -/
theorem number_units (c : Char) (rest : List Char) (line : Nat) :
    number c (units rest) line = number c rest line := by
  have digitsStop : ∀ u : Char, 0x80 ≤ u.toNat → isDigit u = false := fun _ high => isDigit_high high
  unfold number
  dsimp only
  rw [drop_length_takeWhile, drop_length_takeWhile, dropWhile_units digitsStop, fraction_units,
    takeWhile_units digitsStop]
  cases hfrac : fraction (rest.dropWhile isDigit) with
  | none => rfl
  | some frac =>
    obtain ⟨post, split, digits⟩ := fraction_some hfrac
    have ascii : ∀ x ∈ rest.takeWhile isDigit ++ '.' :: frac, x.toNat < 0x80 := by
      intro x mem
      simp only [List.mem_append, List.mem_cons] at mem
      rcases mem with inWhole | rfl | inFrac
      · exact ascii_of_mem_takeWhile digitsStop inWhole
      · decide
      · exact ascii_of_digit (digits x inFrac)
    have whole : rest = (rest.takeWhile isDigit ++ '.' :: frac) ++ post :=
      calc rest = rest.takeWhile isDigit ++ rest.dropWhile isDigit := List.takeWhile_append_dropWhile.symm
        _ = (rest.takeWhile isDigit ++ '.' :: frac) ++ post := by rw [split]; simp
    generalize rest.takeWhile isDigit = w at ascii whole ⊢
    have size : w.length + 1 + frac.length = (w ++ '.' :: frac).length := by
      simp only [List.length_append, List.length_cons]
      omega
    dsimp only
    rw [size, whole, units_append, units_ascii ascii, List.take_left, List.take_left]

/-! ### Reading units back -/

theorem map_toUInt8_units (cs : List Char) :
    (units cs).map Char.toUInt8 = cs.flatMap String.utf8EncodeChar := by
  simp [units, unitsOf, List.map_flatMap, Function.comp_def, toUInt8_ofUInt8]

theorem decode_units (cs : List Char) : decode (String.ofList (units cs)) = String.ofList cs := by
  rw [decode, String.toList_ofList, map_toUInt8_units]
  simp only [String.fromUTF8?]
  have valid : (cs.flatMap String.utf8EncodeChar).toByteArray.IsValidUTF8 :=
    ByteArray.isValidUTF8_utf8Encode
  rw [dif_pos valid]
  rfl

end Scan

namespace Token

/-- A token as the scanner reads it from the bytes of its text: its lexeme and the text of
its string as units. -/
def asUnits (t : Token) : Token :=
  { t with
    lexeme := String.ofList (Scan.units t.lexeme.toList)
    literal := match t.literal with
      | .string s => .string (String.ofList (Scan.units s.toList))
      | l => l }

@[simp] theorem asText_asUnits (t : Token) : t.asUnits.asText = t := by
  obtain ⟨kind, lexeme, literal, line⟩ := t
  cases literal <;> simp [asUnits, asText, Scan.decode_units]

theorem asUnits_of_ascii {t : Token} (ascii : ∀ x ∈ t.lexeme.toList, x.toNat < 0x80)
    (notString : ∀ s, t.literal ≠ .string s) : t.asUnits = t := by
  obtain ⟨kind, lexeme, literal, line⟩ := t
  cases literal <;> simp_all [asUnits, Scan.units_ascii ascii]

end Token

namespace Scan

/-- A number takes ASCII digits and a point, one unit each, and its token is its own
units. -/
theorem number_ascii {c : Char} {rest : List Char} {line taken : Nat} {t : Token}
    (digit : isDigit c = true) (h : number c rest line = .ok (taken, t)) :
    (units (rest.take taken)).length = taken ∧ t.asUnits = t := by
  have digitsAscii : ∀ ds : List Char, ds.all isDigit = true → ∀ x ∈ ds, x.toNat < 0x80 :=
    fun ds all x mem => ascii_of_digit (List.all_eq_true.mp all x mem)
  rcases number_cases c rest line with
    ⟨whole, after, rfl, digits, -, found⟩ | ⟨whole, frac, after, rfl, digits, -, fracDigits, -, found⟩
  · rw [found] at h
    split at h
    · cases h
      refine ⟨by rw [List.take_left, units_ascii (digitsAscii whole digits)],
        Token.asUnits_of_ascii ?_ (by simp)⟩
      simpa [ascii_of_digit digit] using digitsAscii whole digits
    · cases h
  · rw [found] at h
    split at h
    · cases h
      have ascii : ∀ x ∈ whole ++ '.' :: frac, x.toNat < 0x80 := by
        intro x mem
        simp only [List.mem_append, List.mem_cons] at mem
        rcases mem with inWhole | rfl | inFrac
        · exact digitsAscii whole digits x inWhole
        · decide
        · exact digitsAscii frac fracDigits x inFrac
      refine ⟨by rw [List.take_left, units_ascii ascii], Token.asUnits_of_ascii ?_ (by simp)⟩
      simpa [ascii_of_digit digit] using ascii
    · cases h

/-- One step at a character of ASCII reads over the units of the rest what it reads over the
characters: it takes the units of what it takes, gives its token as units, and ends on the
same line, or fails with the same fault. -/
theorem step_units {c : Char} (ascii : c.toNat < 0x80) (rest : List Char) (line : Nat) :
    step id c (units rest) line =
      (step leadByte c rest line).map fun r =>
        ((units (rest.take r.1)).length, r.2.1.map Token.asUnits, r.2.2) := by
  have unitsAscii : ∀ x : Char, x.toNat < 0x80 → unitsOf x = [x] := fun _ => unitsOf_ascii
  unfold step
  dsimp only
  cases hsingle : singleKind c with
  | some kind =>
    simp [Except.map]
    exact (Token.asUnits_of_ascii (by simpa using ascii) (by simp)).symm
  | none =>
  cases pair : equalKinds c with
  | some p =>
    obtain ⟨alone, withEq⟩ := p
    dsimp only
    cases rest with
    | nil =>
      simp [Except.map]
      exact (Token.asUnits_of_ascii (by simpa using ascii) (by simp)).symm
    | cons d more =>
      by_cases eq : d = '='
      · subst eq
        rw [units_cons, unitsAscii '=' (by decide), List.singleton_append]
        simp [Except.map, unitsAscii '=' (by decide)]
        exact (Token.asUnits_of_ascii (by simp [ascii]) (by simp)).symm
      · obtain ⟨tail, hd⟩ := units_cons_lead d more
        rw [hd]
        simp [Except.map, (leadByte_eq_iff (by decide)).not.mpr eq, eq]
        exact (Token.asUnits_of_ascii (by simpa using ascii) (by simp)).symm
  | none =>
  dsimp only
  split_ifs with slash blank newline quote digit alpha
  · -- a comment or `/`
    subst slash
    cases rest with
    | nil => simp [Except.map, Token.asUnits, unitsAscii '/' (by decide)]
    | cons d more =>
      by_cases second : d = '/'
      · subst second
        rw [units_cons, unitsAscii '/' (by decide), List.singleton_append]
        simp only [takeWhile_units_ne_newline, Except.map]
        rw [Nat.add_comm 1 (more.takeWhile _).length, List.take_succ_cons, take_length_takeWhile]
        simp [unitsAscii '/' (by decide), Nat.add_comm]
      by_cases star : d = '*'
      · subst star
        rw [units_cons, unitsAscii '*' (by decide), List.singleton_append]
        simp only [commentBody_units more line 0]
        cases commentBody more line 0 with
        | none => rfl
        | some r =>
          simp [Except.map, Nat.add_comm 1 r.1, unitsAscii '*' (by decide)]
          omega
      · obtain ⟨tail, hd⟩ := units_cons_lead d more
        rw [hd]
        simp [Except.map, (leadByte_eq_iff (by decide)).not.mpr second,
          (leadByte_eq_iff (by decide)).not.mpr star, second, star, Token.asUnits,
          unitsAscii '/' (by decide)]
  · simp [Except.map]
  · simp [Except.map]
  · -- a string literal
    subst quote
    rw [stringBody_units]
    cases stringBody leadByte line rest line [] 0 with
    | error e => rfl
    | ok r =>
      obtain ⟨chars, taken, line'⟩ := r
      simp [Except.map, take_units, Token.asUnits, unitsAscii '"' (by decide)]
  · -- a number
    rw [number_units]
    cases found : number c rest line with
    | error e => rfl
    | ok r =>
      obtain ⟨taken, t⟩ := r
      obtain ⟨size, self⟩ := number_ascii digit found
      simp [Except.map, self, size]
  · -- a word
    have wordStop : ∀ u : Char, 0x80 ≤ u.toNat → isWordChar u = false :=
      fun _ high => isWordChar_high high
    rw [take_length_takeWhile, takeWhile_units wordStop]
    simp only [Except.map, Option.map_some, take_length_takeWhile]
    rw [units_ascii fun x mem => ascii_of_mem_takeWhile wordStop mem, Token.asUnits_of_ascii (by simpa [ascii] using fun x mem => ascii_of_mem_takeWhile wordStop mem) (by simp)]
  · simp [Except.map, leadByte_ascii ascii]

/-- A scan over the units of a text finds, as units, the tokens that a scan over its
characters finds, or fails with the same fault. -/
theorem run_units (cs : List Char) (line : Nat) (acc : List Token) :
    run id (units cs) line (acc.map Token.asUnits) =
      (run leadByte cs line acc).map (List.map Token.asUnits) := by
  fun_induction run leadByte cs line acc with
  | case1 line acc =>
    simp [run, Except.map, Token.asUnits]
  | case2 line acc c rest e found =>
    rcases Nat.lt_or_ge c.toNat 0x80 with ascii | high
    · rw [units_cons, unitsOf_ascii ascii, List.singleton_append, run, step_units ascii, found]
      rfl
    · -- a character beyond ASCII is refused by its lead byte in both scans
      obtain ⟨tail, hc⟩ := units_cons_lead c rest
      rw [step_high high] at found
      cases found
      rw [hc, run, step_high (leadByte_high high)]
      rfl
  | case3 line acc c rest taken tok line' found _ ih =>
    have ascii : c.toNat < 0x80 := by
      by_contra high
      rw [step_high (by omega)] at found
      cases found
    have mapOk : ∀ (g : Nat × Option Token × Nat → Nat × Option Token × Nat) x,
        Except.map g (.ok x : Except ScanError _) = .ok (g x) := fun _ _ => rfl
    rw [units_cons, unitsOf_ascii ascii, List.singleton_append, run, step_units ascii, found, mapOk]
    dsimp only
    rw [drop_units, ← ih]
    cases tok <;> rfl

end Scan

/-- Scanning the UTF-8 bytes of a text and reading each token back as text is scanning its
characters, with a character that cannot be read named by its lead byte. -/
theorem Token.scan_eq_run (source : String) :
    Token.scan source = Scan.run Scan.leadByte source.toList 1 [] := by
  have bridge := Scan.run_units source.toList 1 []
  have bytes : (source.toList.flatMap String.utf8EncodeChar).map Char.ofUInt8 =
      Scan.units source.toList := by
    simp only [Scan.units, List.map_flatMap]
    rfl
  rw [List.map_nil] at bridge
  rw [Token.scan, Token.scanBytes, bytes, bridge]
  cases Scan.run Scan.leadByte source.toList 1 [] <;> simp [Except.map, Function.comp_def]

end ClassScript
