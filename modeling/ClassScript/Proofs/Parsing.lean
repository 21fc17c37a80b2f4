import ClassScript.Proofs.ParserSound
import ClassScript.Proofs.ParserComplete

/-! The parser accepts exactly the grammar. The loop over declarations gives no error
exactly when the tokens before `Eof` are declarations of the grammar, and then gives the
trees of their derivation, which are therefore unique. The grammar reads a `(` right after
`new C` as part of the `new`, as the parser does: `new C(1);`, which the grammar without
that reading derives as a call of `new C`, is a syntax error. -/
namespace ClassScript

namespace Parse

open Grammar
open Alg (tree)

/-- The loop never drops an error: its errors start with those it was given. -/
theorem declarations_errors : ∀ (n : Nat) (ts : List Token) (stmts : List Stmt)
    (errs : List SyntaxError), ∃ more, (declarations tree n ts stmts errs).2 = errs.reverse ++ more
  | 0, _, _, errs => ⟨[], by rw [List.append_nil]; rfl⟩
  | n + 1, ts, stmts, errs => by
    simp only [declarations]
    split
    · exact ⟨[], by simp⟩
    · split
      · exact declarations_errors n _ _ errs
      · rename_i e rest _
        obtain ⟨more, h⟩ := declarations_errors n (synchronize rest) stmts (e :: errs)
        exact ⟨e :: more, by simp [h]⟩

section Loop

variable {eof : Token} (heof : eof.kind = .eof)
include heof

/-- A run of the loop with no error read declarations up to `Eof`, each with enough
fuel, one iteration for each. -/
theorem declarations_sound : ∀ {n : Nat} {body : List Token} {acc stmts : List Stmt},
    (∀ t ∈ body, t.kind ≠ .eof) → body.length < n →
    declarations tree n (body ++ [eof]) acc [] = (stmts, []) →
    ∃ ss, stmts = acc.reverse ++ ss ∧ Declarations (body ++ [eof]) ss [eof]
  | 0, _, _, _, _, fuel, _ => absurd fuel (Nat.not_lt_zero _)
  | n + 1, body, acc, stmts, hbody, fuel, h => by
    simp only [declarations] at h
    split at h
    · -- `Eof` ahead: nothing is left before it
      rename_i atEof
      cases body with
      | nil =>
        cases h
        exact ⟨[], by simp, .done⟩
      | cons t body => exact absurd atEof (hbody t (by simp))
    · split at h
      · rename_i s rest ok
        have d := (stmtSound _).declaration ok
        obtain ⟨body', rfl, shorter, hbody'⟩ := d.skips.of_eof heof hbody
        obtain ⟨ss, rfl, ds⟩ := declarations_sound hbody' (by omega) h
        exact ⟨s :: ss, by simp, .next d ds⟩
      · rename_i e rest _
        obtain ⟨more, errs⟩ := declarations_errors n (synchronize rest) acc [e]
        simp [h] at errs

/-- Declarations up to `Eof` are read by the loop, one iteration each, with no error. -/
theorem declarations_complete (acc : List Stmt) : ∀ {n : Nat} {body : List Token} {ss : List Stmt},
    (∀ t ∈ body, t.kind ≠ .eof) → body.length < n → Declarations (body ++ [eof]) ss [eof] →
    declarations tree n (body ++ [eof]) acc [] = (acc.reverse ++ ss, [])
  | 0, _, _, _, fuel, _ => absurd fuel (Nat.not_lt_zero _)
  | n + 1, body, ss, hbody, fuel, ds => by
    generalize whole : body ++ [eof] = ts at ds
    cases ds with
    | done =>
      have : body = [] := by simpa using whole
      subst this
      cases whole
      simp [declarations, heof]
    | next d ds =>
      rename_i ts₁ s ss
      subst whole
      obtain ⟨t, ts', split, ne, -⟩ := d.skips
      obtain ⟨body', rfl, shorter, hbody'⟩ := d.skips.of_eof heof hbody
      have first : (peekAt (body ++ [eof]) 0).kind ≠ .eof := by simp [split, ne]
      have fits : 12 * (body ++ [eof]).length + 16 ≤ budget (body ++ [eof]) := by
        simp only [budget]
        omega
      simp only [declarations, if_neg first, (stmtComplete _).declaration d fits]
      rw [declarations_complete (s :: acc) hbody' (by omega) ds]
      simp

end Loop

/-- For tokens that end with their only `Eof`, parsing gives no syntax error exactly when
the tokens before `Eof` are declarations of the grammar, and then gives their trees. -/
theorem parseAll_eq_iff_program {body : List Token} {eof : Token} (heof : eof.kind = .eof)
    (hbody : ∀ t ∈ body, t.kind ≠ .eof) (stmts : List Stmt) :
    Stmt.parseAll (body ++ [eof]) = (stmts, []) ↔ Program body eof stmts := by
  have fuel : body.length < (body ++ [eof]).length + 1 := by
    simp only [List.length_append, List.length_singleton]
    omega
  constructor
  · intro h
    obtain ⟨ss, rfl, ds⟩ := declarations_sound heof hbody fuel h
    simpa [Program] using ds
  · intro ds
    exact declarations_complete heof [] hbody fuel ds

/-- The grammar gives a program one tree at most. -/
theorem program_trees_unique {body : List Token} {eof : Token} (heof : eof.kind = .eof)
    (hbody : ∀ t ∈ body, t.kind ≠ .eof) {s₁ s₂ : List Stmt} (h₁ : Program body eof s₁)
    (h₂ : Program body eof s₂) : s₁ = s₂ := by
  have run₁ := declarations_complete heof [] hbody (Nat.lt_succ_self _) h₁
  rw [declarations_complete heof [] hbody (Nat.lt_succ_self _) h₂] at run₁
  simpa using run₁.symm

/-- The parser accepts exactly the grammar: parsing reports no error exactly when the tokens
before `Eof` derive declarations, whose trees it then gives, and a derivation is unique. -/
theorem parses_exactly_the_grammar {body : List Token} {eof : Token} (heof : eof.kind = .eof)
    (hbody : ∀ t ∈ body, t.kind ≠ .eof) :
    (∀ stmts, Stmt.parseAll (body ++ [eof]) = (stmts, []) ↔ Program body eof stmts) ∧
      ∀ s₁ s₂, Program body eof s₁ → Program body eof s₂ → s₁ = s₂ :=
  ⟨parseAll_eq_iff_program heof hbody, fun _ _ => program_trees_unique heof hbody⟩

/-- The tokens of `f(1,);`: a call with a trailing comma. -/
def trailingCommaCall : List Token :=
  [⟨.identifier, "f", .none, 1⟩, ⟨.leftParen, "(", .none, 1⟩, ⟨.int, "1", .int 1, 1⟩,
    ⟨.comma, ",", .none, 1⟩, ⟨.rightParen, ")", .none, 1⟩, ⟨.semicolon, ";", .none, 1⟩]

theorem trailing_comma_call_is_program :
    (⟨.eof, "", .none, 1⟩ : Token).kind = .eof ∧ (∀ t ∈ trailingCommaCall, t.kind ≠ .eof) ∧
      (Stmt.parseAll (trailingCommaCall ++ [⟨.eof, "", .none, 1⟩]) =
          ([.expr (.call (.var ⟨"f", 1⟩) 1 [.literal (.int 1)])], []) ↔
        Program trailingCommaCall ⟨.eof, "", .none, 1⟩
          [.expr (.call (.var ⟨"f", 1⟩) 1 [.literal (.int 1)])]) :=
  ⟨rfl, by decide, (parses_exactly_the_grammar rfl (by decide)).1 _⟩

/-- The tokens of `new C(1);`. -/
def newThenCall : List Token :=
  [⟨.newKw, "new", .none, 1⟩, ⟨.identifier, "C", .none, 1⟩, ⟨.leftParen, "(", .none, 1⟩,
    ⟨.int, "1", .int 1, 1⟩, ⟨.rightParen, ")", .none, 1⟩, ⟨.semicolon, ";", .none, 1⟩,
    ⟨.eof, "", .none, 1⟩]

/-- `new C(1);` is a syntax error, not a call of `new C` with the argument `1`: the `(`
after `new C` is read as the start of `new C()`, which must close at once. -/
theorem new_then_call_rejected :
    Stmt.parseAll newThenCall = ([], [⟨1, .newClose "C"⟩]) ∧
      Stmt.parseAll newThenCall ≠ ([.expr (.call (.new ⟨"C", 1⟩) 1 [.literal (.int 1)])], []) := by
  have parsed : Stmt.parseAll newThenCall = ([], [⟨1, .newClose "C"⟩]) := rfl
  exact ⟨parsed, by simp [parsed]⟩

end Parse

end ClassScript
