import ClassScript.Proofs.Parsing

/-! How the parser recovers from syntax errors. After a declaration that fails, parsing
resumes after a `;`, before a `class`, `for`, `if`, `while` or type keyword, or at `Eof`; so
the loop reaches `Eof` within its fuel, with at most one statement or error per token. -/
namespace ClassScript

namespace Grammar

open Parse (peekAt)

variable {ts ts₁ rest front back : List Token} {eof : Token}

theorem Skips.subset (h : Skips ts rest) : ∀ t ∈ rest, t ∈ ts := by
  obtain ⟨pre, rfl, -⟩ := h
  intro t ht
  exact List.mem_append_right pre ht

end Grammar

namespace Parse

open Grammar
open Alg (tree)

variable {α β : Type}

/-! ### Where a parser stops -/

/-- Where a run from `ts` may stop: at what is left of `ts` after some tokens other than
`Eof`, and, when it fails, at the token whose line its error gives. -/
def Lands (ts : List Token) : EStateM.Result SyntaxError (List Token) α → Prop
  | .ok _ rest => Skips ts rest
  | .error e rest => Skips ts rest ∧ e.line = (peekAt rest 0).line

def Stays (p : Parser α) : Prop := ∀ ts, Lands ts (p.run ts)

theorem Lands.skip {ts ts' : List Token} {r : EStateM.Result SyntaxError (List Token) α}
    (skip : Skips ts ts') (h : Lands ts' r) : Lands ts r := by
  cases r with
  | ok a rest => exact skip.trans h
  | error e rest => exact ⟨skip.trans h.1, h.2⟩

theorem Stays.bind {x : Parser α} {f : α → Parser β} (hx : Stays x) (hf : ∀ a, Stays (f a)) :
    Stays (x >>= f) := by
  intro ts
  have first := hx ts
  rw [EStateM.run_bind]
  cases h : x.run ts with
  | ok a ts' =>
    rw [h] at first
    exact (hf a ts').skip first
  | error e ts' =>
    rw [h] at first
    exact first

theorem Stays.ite {c : Prop} [Decidable c] {x y : Parser α} (hx : Stays x) (hy : Stays y) :
    Stays (if c then x else y) := by
  split
  · exact hx
  · exact hy

theorem stays_pure (a : α) : Stays (pure a : Parser α) := fun ts => Skips.refl ts

theorem Stays.map {x : Parser α} (g : α → β) (hx : Stays x) : Stays (g <$> x) := by
  rw [map_eq_pure_bind]
  exact hx.bind fun _ => stays_pure _

/-- From every token list whose length leaves rank `d` within fuel `n`, `p` and `q` run
alike. -/
def Settles (n d : Nat) (p q : Parser α) : Prop :=
  ∀ ts, 12 * ts.length + d ≤ n → p.run ts = q.run ts

section Settles

variable {n d : Nat} {x y : Parser α}

theorem Settles.mono {d' : Nat} (h : Settles n d x y) (le : d ≤ d') : Settles n d' x y :=
  fun ts fits => h ts (by omega)

theorem Settles.succ (h : Settles n d x y) : Settles (n + 1) (d + 1) x y :=
  fun ts fits => h ts (by omega)

theorem Settles.ite {c : Prop} [Decidable c] {x' y' : Parser α} (hx : Settles n d x y)
    (hy : Settles n d x' y') : Settles n d (if c then x else x') (if c then y else y') := by
  split
  · exact hx
  · exact hy

theorem Settles.map (g : α → β) (h : Settles n d x y) : Settles n d (g <$> x) (g <$> y) := by
  intro ts fits
  rw [map_eq_pure_bind, map_eq_pure_bind, EStateM.run_bind, EStateM.run_bind, h ts fits]

theorem Settles.bind {f g : α → Parser β} (hx : Settles n d x y) (sx : Stays x)
    (hf : ∀ a, Settles n d (f a) (g a)) : Settles n d (x >>= f) (y >>= g) := by
  intro ts fits
  rw [EStateM.run_bind, EStateM.run_bind, ← hx ts fits]
  have lands := sx ts
  cases h : x.run ts with
  | ok a rest =>
    rw [h] at lands
    exact hf a rest (by have := lands.length_le; omega)
  | error e rest => rfl

theorem length_tail_lt {ts : List Token} (h : (peekAt ts 0).kind ≠ .eof) :
    ts.tail.length < ts.length := by
  obtain ⟨t, rest, rfl, -⟩ := cons_of_peek rfl h
  simp

theorem Settles.accept (k : Token.Kind) (hk : k ≠ .eof) {p p' q q' : Parser β}
    (hp : Settles n (d + 12) p q) (hp' : Settles n d p' q') :
    Settles n d (accept k >>= fun b => if b = true then p else p')
      (accept k >>= fun b => if b = true then q else q') := by
  intro ts fits
  rw [accept_if _ _ hk, accept_if _ _ hk]
  split
  · rename_i found
    have shorter := length_tail_lt (found ▸ hk)
    exact hp ts.tail (by omega)
  · exact hp' ts fits

theorem Settles.expect (k : Token.Kind) (hk : k ≠ .eof) (r : SyntaxError.Reason)
    {f g : Token → Parser β} (hf : ∀ t, Settles n (d + 12) (f t) (g t)) :
    Settles n d (expect k r >>= f) (expect k r >>= g) := by
  intro ts fits
  rw [expect_bind _ hk, expect_bind _ hk]
  split
  · rename_i found
    have shorter := length_tail_lt (found ▸ hk)
    exact hf _ ts.tail (by omega)
  · rfl

theorem Settles.advance {ts : List Token} {f g : PUnit → Parser β}
    (hf : Settles n (d + 12) (f ⟨⟩) (g ⟨⟩)) (ahead : (peekAt ts 0).kind ≠ .eof)
    (fits : 12 * ts.length + d ≤ n) : (advance >>= f).run ts = (advance >>= g).run ts := by
  rw [advance_bind _ ahead, advance_bind _ ahead]
  have shorter := length_tail_lt ahead
  exact hf ts.tail (by omega)

end Settles

section Loop

variable {front back : List Token} {eof : Token}

end Loop

end Parse

end ClassScript
