import ClassScript.Proofs.Grammar

/-! The parser's primitive reads as equations on the tokens. Each primitive is stated
followed by the rest of a `do` block, so a proof steps through a parser one read at a
time; the recursive calls are run with `bind_of_ok` and taken apart with `bind_eq_ok`. -/
namespace ClassScript

namespace Parse

open Grammar
open Alg (tree)

variable {α β : Type} {ts ts' ts'' : List Token} {f : α → Parser β}

theorem cons_of_peek {k : Token.Kind} (h : (peekAt ts 0).kind = k) (hk : k ≠ .eof) :
    ∃ t rest, ts = t :: rest ∧ t.kind = k := by
  cases ts with
  | nil => exact absurd h.symm (by simpa [peekAt] using hk)
  | cons t rest => exact ⟨t, rest, rfl, h⟩

theorem bind_eq_ok {x : Parser α} {b : β} (h : (x >>= f).run ts = .ok b ts'') :
    ∃ a ts', x.run ts = .ok a ts' ∧ (f a).run ts' = .ok b ts'' := by
  rw [EStateM.run_bind] at h
  cases hx : x.run ts with
  | ok a ts' => exact ⟨a, ts', rfl, by rwa [hx] at h⟩
  | error e ts' => rw [hx] at h; cases h

theorem bind_of_ok {x : Parser α} {a : α} (h : x.run ts = .ok a ts') :
    (x >>= f).run ts = (f a).run ts' := by
  rw [EStateM.run_bind, h]

theorem map_eq_ok {g : α → β} {x : Parser α} {b : β} (h : (g <$> x).run ts = .ok b ts'') :
    ∃ a, x.run ts = .ok a ts'' ∧ b = g a := by
  change EStateM.map g x ts = _ at h
  simp only [EStateM.map] at h
  cases hx : x ts with
  | ok a s => rw [hx] at h; cases h; exact ⟨a, hx, rfl⟩
  | error e s => rw [hx] at h; cases h

theorem map_of_ok {g : α → β} {x : Parser α} {a : α} (h : x.run ts = .ok a ts') :
    (g <$> x).run ts = .ok (g a) ts' := by
  change EStateM.map g x ts = _
  simp only [EStateM.map]
  rw [show x ts = _ from h]

@[simp] theorem pure_bind (a : α) : (pure a >>= f).run ts = (f a).run ts := rfl

@[simp] theorem get_bind (f : List Token → Parser β) : (get >>= f).run ts = (f ts).run ts := rfl

@[simp] theorem set_bind (f : PUnit → Parser β) :
    (set ts' >>= f).run ts = (f ⟨⟩).run ts' := rfl

@[simp] theorem peek_bind (f : Token → Parser β) :
    (peek >>= f).run ts = (f (peekAt ts 0)).run ts := rfl

theorem advance_run (h : (peekAt ts 0).kind ≠ .eof) : advance.run ts = .ok ⟨⟩ ts.tail := by
  cases ts with
  | nil => simp [peekAt] at h
  | cons t rest =>
    simp only [peekAt_cons_zero] at h
    simp [advance, h]

theorem advance_bind (f : PUnit → Parser β) (h : (peekAt ts 0).kind ≠ .eof) :
    (advance >>= f).run ts = (f ⟨⟩).run ts.tail :=
  bind_of_ok (advance_run h)

theorem advance_cons {t : Token} (f : PUnit → Parser β) (ht : t.kind ≠ .eof) :
    (advance >>= f).run (t :: ts) = (f ⟨⟩).run ts :=
  advance_bind f ht

theorem check_bind {k : Token.Kind} (f : Bool → Parser β) (hk : k ≠ .eof) :
    (check k >>= f).run ts = (f (decide ((peekAt ts 0).kind = k))).run ts := by
  have step : (check k >>= f).run ts =
      (f (decide ((peekAt ts 0).kind ≠ .eof ∧ (peekAt ts 0).kind = k))).run ts := rfl
  rw [step]
  by_cases same : (peekAt ts 0).kind = k <;> simp [same, hk]

theorem check_if {k : Token.Kind} (A B : Parser β) (hk : k ≠ .eof) :
    (check k >>= fun b => if b = true then A else B).run ts =
      if (peekAt ts 0).kind = k then A.run ts else B.run ts := by
  rw [check_bind _ hk]
  by_cases same : (peekAt ts 0).kind = k <;> simp [same]

theorem atEnd_bind (f : Bool → Parser β) :
    (atEnd >>= f).run ts = (f (decide ((peekAt ts 0).kind = .eof))).run ts := rfl

/-- `accept k` consumes the token ahead when it has kind `k`. -/
theorem accept_bind {k : Token.Kind} (f : Bool → Parser β) (hk : k ≠ .eof) :
    (accept k >>= f).run ts =
      if (peekAt ts 0).kind = k then (f true).run ts.tail else (f false).run ts := by
  by_cases same : (peekAt ts 0).kind = k
  · have ne : (peekAt ts 0).kind ≠ .eof := same ▸ hk
    simp [accept, check_bind _ hk, same, advance_bind _ ne]
  · simp [accept, check_bind _ hk, same]

theorem accept_if {k : Token.Kind} (A B : Parser β) (hk : k ≠ .eof) :
    (accept k >>= fun b => if b = true then A else B).run ts =
      if (peekAt ts 0).kind = k then A.run ts.tail else B.run ts := by
  rw [accept_bind _ hk]
  by_cases same : (peekAt ts 0).kind = k <;> simp [same]

theorem accept_cons_if {k : Token.Kind} {t : Token} (A B : Parser β) (hk : k ≠ .eof) :
    (accept k >>= fun b => if b = true then A else B).run (t :: ts) =
      if t.kind = k then A.run ts else B.run (t :: ts) :=
  accept_if A B hk

/-- `expect k r` consumes and gives the token ahead when it has kind `k`, and fails with
`r` at its line otherwise. -/
theorem expect_run {k : Token.Kind} {r : SyntaxError.Reason} (hk : k ≠ .eof) :
    (expect k r).run ts =
      if (peekAt ts 0).kind = k then .ok (peekAt ts 0) ts.tail
      else .error ⟨(peekAt ts 0).line, r⟩ ts := by
  have step : (expect k r).run ts =
      (if (peekAt ts 0).kind ≠ .eof ∧ (peekAt ts 0).kind = k then
        (fun _ => peekAt ts 0) <$> advance
      else throw ⟨(peekAt ts 0).line, r⟩ : Parser Token).run ts := rfl
  rw [step]
  by_cases same : (peekAt ts 0).kind = k
  · have ne : (peekAt ts 0).kind ≠ .eof := same ▸ hk
    rw [if_pos ⟨ne, same⟩, if_pos same]
    show EStateM.map (fun _ => peekAt ts 0) advance ts = _
    simp only [EStateM.map]
    rw [show advance ts = _ from advance_run ne]
  · rw [if_neg (fun h => same h.2), if_neg same]
    rfl

theorem expect_bind {k : Token.Kind} {r : SyntaxError.Reason} (f : Token → Parser β)
    (hk : k ≠ .eof) :
    (expect k r >>= f).run ts =
      if (peekAt ts 0).kind = k then (f (peekAt ts 0)).run ts.tail
      else .error ⟨(peekAt ts 0).line, r⟩ ts := by
  rw [EStateM.run_bind, expect_run hk]
  by_cases same : (peekAt ts 0).kind = k
  · rw [if_pos same, if_pos same]
  · rw [if_neg same, if_neg same]

theorem expect_ok {k : Token.Kind} {r : SyntaxError.Reason} {f : Token → Parser β} {b : β}
    (h : (expect k r >>= f).run ts = .ok b ts'') (hk : k ≠ .eof) :
    ∃ t rest, ts = t :: rest ∧ t.kind = k ∧ (f t).run rest = .ok b ts'' := by
  rw [expect_bind _ hk] at h
  split at h
  · obtain ⟨t, rest, rfl, ht⟩ := cons_of_peek ‹_› hk
    exact ⟨t, rest, rfl, ht, h⟩
  · cases h

theorem expect_cons {k : Token.Kind} {r : SyntaxError.Reason} {t : Token} (f : Token → Parser β)
    (ht : t.kind = k) (hk : k ≠ .eof) : (expect k r >>= f).run (t :: ts) = (f t).run ts := by
  rw [expect_bind _ hk, peekAt_cons_zero, if_pos ht]
  rfl

theorem closes_if {k : Token.Kind} (A B : Parser β) (hk : k ≠ .eof) :
    (check k >>= fun a => atEnd >>= fun b => if (a || b) = true then A else B).run ts =
      if (peekAt ts 0).kind = k ∨ (peekAt ts 0).kind = .eof then A.run ts else B.run ts := by
  rw [check_bind _ hk, atEnd_bind]
  by_cases close : (peekAt ts 0).kind = k ∨ (peekAt ts 0).kind = .eof <;> simp [close]

/-- Whether a typed declaration comes next, as `atVarDeclaration` reads it: a type
keyword, or two names. -/
def varAhead (ts : List Token) : Bool :=
  if (peekAt ts 0).kind = .identifier then decide ((peekAt ts 1).kind = .identifier)
  else (peekAt ts 0).kind.isType

theorem varAhead_isType (h : varAhead ts = true) : (peekAt ts 0).kind.isType = true := by
  unfold varAhead at h
  split at h
  · rename_i name
    simp [name, Token.Kind.isType]
  · exact h

theorem atVarDeclaration_bind (f : Bool → Parser β) :
    (atVarDeclaration >>= f).run ts = (f (varAhead ts)).run ts := by
  by_cases name : (peekAt ts 0).kind = .identifier
  · simp [atVarDeclaration, varAhead, name]
  · simp [atVarDeclaration, varAhead, name]

theorem atVarDeclaration_if (A B : Parser β) :
    (atVarDeclaration >>= fun b => if b = true then A else B).run ts =
      if varAhead ts = true then A.run ts else B.run ts := by
  rw [atVarDeclaration_bind]
  split <;> rfl

@[simp] theorem fail_run {r : SyntaxError.Reason} :
    (fail r : Parser α).run ts = .error ⟨(peekAt ts 0).line, r⟩ ts := rfl

@[simp] theorem exhausted_run : (exhausted : Parser α).run ts = .error ⟨(peekAt ts 0).line, .unexpected ""⟩ ts :=
  rfl

/-! ### The header of a `for` loop

The parser reads the three parts of a `for` header in one `do` block, which repeats the
rest of the block after each way a part can be read. As three parsers of their own, the
parts are read one after another. -/

section For

variable {E S : Type} (A : Alg E S)

def forInit (n : Nat) : Parser (Option S) := do
  if ← accept .semicolon then pure none
  else if ← atVarDeclaration then some <$> varDeclaration A n
  else some <$> expressionStatement A n

def forCond (n : Nat) : Parser E := do
  if ← check .semicolon then pure (A.literal (.bool true)) else expression A n

def forIncr (n : Nat) : Parser (Option E) := do
  if ← check .rightParen then pure none else some <$> expression A n

theorem forInit_bind (n : Nat) (K : Option S → Parser β) :
    (accept .semicolon >>= fun a => atVarDeclaration >>= fun b =>
      if a = true then pure none >>= K
      else if b = true then some <$> varDeclaration A n >>= K
      else some <$> expressionStatement A n >>= K) = forInit A n >>= K := by
  funext ts
  show EStateM.run _ ts = EStateM.run _ ts
  simp only [forInit, bind_assoc]
  rw [accept_bind _ (by decide), accept_bind _ (by decide)]
  by_cases same : (peekAt ts 0).kind = .semicolon
  · rw [if_pos same, if_pos same, atVarDeclaration_bind]
    rfl
  · -- the declaration test is read before the `;` test and changes nothing
    rw [if_neg same, if_neg same]
    simp only [bind_assoc, atVarDeclaration_bind, Bool.false_eq_true, if_false]
    split <;> rfl

theorem forCond_bind (n : Nat) (K : E → Parser β) :
    (check .semicolon >>= fun a =>
      if a = true then pure (A.literal (.bool true)) >>= K else expression A n >>= K) =
      forCond A n >>= K := by
  funext ts
  show EStateM.run _ ts = EStateM.run _ ts
  simp only [forCond, bind_assoc]
  rw [check_bind _ (by decide), check_bind _ (by decide)]
  split <;> rfl

theorem forIncr_bind (n : Nat) (K : Option E → Parser β) :
    (check .rightParen >>= fun a =>
      if a = true then pure none >>= K else some <$> expression A n >>= K) =
      forIncr A n >>= K := by
  funext ts
  show EStateM.run _ ts = EStateM.run _ ts
  simp only [forIncr, bind_assoc]
  rw [check_bind _ (by decide), check_bind _ (by decide)]
  split <;> rfl

/-- A `for` loop after its keyword reads its three header parts one after another. -/
theorem forStatement_eq (n : Nat) : forStatement A (n + 1) = do
    let _ ← expect .leftParen .forOpen
    let init ← forInit A n
    let cond ← forCond A n
    let _ ← expect .semicolon .loopConditionEnd
    let incr ← forIncr A n
    let _ ← expect .rightParen .forClose
    let body ← statement A n
    return forLoop A init cond incr body := by
  simp only [forStatement, forInit_bind, forCond_bind, forIncr_bind]

end For

end Parse

end ClassScript
