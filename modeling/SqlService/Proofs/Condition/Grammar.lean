import SqlService.Proofs.Condition.Tokens

/-!
# The grammar of conditions

A condition is a disjunction of conjunctions of factors; a factor is a negated factor, a condition
between parentheses or a comparison, which is a name, an operator and an operand without keywords
outside of or inside its parentheses.  The trees are the readings of a text, and their tokens are
written down in the order in which they stand.

Main statement: tokens have at most one reading (`Condition.tokens_injective`).
-/

namespace SqlService

/-! ## §1 Readings -/

namespace Condition

namespace Token

/-- Whether the token is a logical keyword. -/
def isKeyword : Token → Bool
  | and => true
  | or => true
  | not => true
  | _ => false

/-- Whether the token may stand between a name and an operand. -/
def isOperator : Token → Bool
  | word _ => true
  | symbol _ => true
  | _ => false

end Token

/-- Whether the tokens hold no keyword and close so many open parentheses and those of their own. -/
def encloses : Nat → List Token → Bool
  | depth, [] => depth == 0
  | depth, .opening :: ts => encloses (depth + 1) ts
  | 0, .closing :: _ => false
  | depth + 1, .closing :: ts => encloses depth ts
  | depth, t :: ts => !t.isKeyword && encloses depth ts

/-- A name, an operator and an operand. -/
structure Comparison where
  name : List Char
  operator : Token
  operand : List Token
  isOperator : operator.isOperator = true
  nonempty : operand ≠ []
  enclosed : encloses 0 operand = true

/-- The tokens of a comparison. -/
def Comparison.tokens (c : Comparison) : List Token := .word c.name :: c.operator :: c.operand

mutual

/-- What may be negated. -/
inductive Factor where
  | comparison (c : Comparison)
  | not (f : Factor)
  | group (d : Disjunction)

/-- Factors with `AND` in between. -/
inductive Conjunction where
  | last (f : Factor)
  | and (f : Factor) (rest : Conjunction)

/-- Conjunctions with `OR` in between. -/
inductive Disjunction where
  | last (c : Conjunction)
  | or (c : Conjunction) (rest : Disjunction)

end

mutual

/-- The tokens of a factor. -/
def Factor.tokens : Factor → List Token
  | .comparison c => c.tokens
  | .not f => .not :: f.tokens
  | .group d => .opening :: (d.tokens ++ [.closing])

/-- The tokens of a conjunction. -/
def Conjunction.tokens : Conjunction → List Token
  | .last f => f.tokens
  | .and f rest => f.tokens ++ .and :: rest.tokens

/-- The tokens of a disjunction. -/
def Disjunction.tokens : Disjunction → List Token
  | .last c => c.tokens
  | .or c rest => c.tokens ++ .or :: rest.tokens

end

/-! ## §2 At most one reading -/

/-- Nothing follows, or a token of the kind. -/
def Follows (kind : Token → Bool) (rest : List Token) : Prop :=
  ∀ t ts, rest = t :: ts → kind t = true

/-- What may follow a disjunction. -/
def endsDisjunction : Token → Bool
  | .closing => true
  | _ => false

/-- What may follow a conjunction. -/
def endsConjunction (t : Token) : Bool := t == .or || endsDisjunction t

/-- What may follow a factor. -/
def endsFactor (t : Token) : Bool := t == .and || endsConjunction t

theorem Follows.mono {kind kind' : Token → Bool} {rest : List Token} (h : Follows kind rest)
    (hkind : ∀ t, kind t = true → kind' t = true) : Follows kind' rest :=
  fun t ts heq => hkind t (h t ts heq)

theorem follows_cons {kind : Token → Bool} {t : Token} (h : kind t = true) (rest : List Token) :
    Follows kind (t :: rest) := by
  intro t' ts heq
  obtain ⟨rfl, -⟩ := List.cons.inj heq
  exact h

/-- Enclosed tokens go as far as they can. -/
theorem encloses_unique {depth : Nat} {ts ts' rest rest' : List Token}
    (h : encloses depth ts = true) (h' : encloses depth ts' = true)
    (hrest : Follows endsFactor rest) (hrest' : Follows endsFactor rest')
    (heq : ts ++ rest = ts' ++ rest') : ts = ts' ∧ rest = rest' := by
  -- At depth zero neither a keyword nor a closing parenthesis can go on.
  have hstop : ∀ {t : Token} {us : List Token}, endsFactor t = true →
      encloses 0 (t :: us) = false := by
    intro t us ht
    cases t <;> first | rfl | cases ht
  induction ts generalizing depth ts' with
  | nil =>
    cases ts' with
    | nil => exact ⟨rfl, heq⟩
    -- The longer one would go on with what ends a factor.
    | cons t ts' =>
      have hdepth : depth = 0 := by simpa [encloses] using h
      rw [hdepth, hstop (hrest t _ heq)] at h'
      cases h'
  | cons t ts ih =>
    cases ts' with
    | nil =>
      have hdepth : depth = 0 := by simpa [encloses] using h'
      rw [hdepth, hstop (hrest' t _ heq.symm)] at h
      cases h
    | cons t' ts' =>
      obtain ⟨rfl, htail⟩ := List.cons.inj heq
      -- Both read the same token, so they go on at the same depth.
      have hnext : ∃ next, encloses next ts = true ∧ encloses next ts' = true := by
        cases t with
        | opening => exact ⟨depth + 1, h, h'⟩
        | closing =>
          cases depth with
          | zero => cases h
          | succ depth => exact ⟨depth, h, h'⟩
        | and => simp [encloses, Token.isKeyword] at h
        | or => simp [encloses, Token.isKeyword] at h
        | not => simp [encloses, Token.isKeyword] at h
        | _ => exact ⟨depth, by simpa [encloses, Token.isKeyword] using h,
            by simpa [encloses, Token.isKeyword] using h'⟩
      obtain ⟨next, hts, hts'⟩ := hnext
      obtain ⟨rfl, hend⟩ := ih hts hts' htail
      exact ⟨rfl, hend⟩

theorem Comparison.unique {c c' : Comparison} {rest rest' : List Token}
    (hrest : Follows endsFactor rest) (hrest' : Follows endsFactor rest')
    (heq : c.tokens ++ rest = c'.tokens ++ rest') : c = c' ∧ rest = rest' := by
  obtain ⟨name, operator, operand, hoperator, hne, henclosed⟩ := c
  obtain ⟨name', operator', operand', hoperator', hne', henclosed'⟩ := c'
  simp only [Comparison.tokens, List.cons_append, List.cons.injEq, Token.word.injEq] at heq
  obtain ⟨rfl, rfl, htail⟩ := heq
  obtain ⟨rfl, hend⟩ := encloses_unique henclosed henclosed' hrest hrest' htail
  exact ⟨rfl, hend⟩

mutual

theorem Factor.unique (f f' : Factor) {rest rest' : List Token} (hrest : Follows endsFactor rest)
    (hrest' : Follows endsFactor rest') (heq : f.tokens ++ rest = f'.tokens ++ rest') :
    f = f' ∧ rest = rest' := by
  match f, f' with
  | .comparison c, .comparison c' =>
    obtain ⟨rfl, hend⟩ := Comparison.unique hrest hrest' heq
    exact ⟨rfl, hend⟩
  | .not f, .not f' =>
    obtain ⟨-, htail⟩ := List.cons.inj heq
    obtain ⟨rfl, hend⟩ := Factor.unique f f' hrest hrest' htail
    exact ⟨rfl, hend⟩
  | .group d, .group d' =>
    have htail : d.tokens ++ (.closing :: rest) = d'.tokens ++ (.closing :: rest') := by
      simpa [Factor.tokens] using heq
    obtain ⟨rfl, hend⟩ := Disjunction.unique d d' (follows_cons rfl rest) (follows_cons rfl rest')
      htail
    exact ⟨rfl, (List.cons.inj hend).2⟩
  -- The first token tells the kinds of factors apart.
  | .comparison _, .not _ | .comparison _, .group _ | .not _, .comparison _ | .not _, .group _
  | .group _, .comparison _ | .group _, .not _ =>
    cases (List.cons.inj heq).1

theorem Conjunction.unique (c c' : Conjunction) {rest rest' : List Token}
    (hrest : Follows endsConjunction rest) (hrest' : Follows endsConjunction rest')
    (heq : c.tokens ++ rest = c'.tokens ++ rest') : c = c' ∧ rest = rest' := by
  have hweaker : ∀ t, endsConjunction t = true → endsFactor t = true := fun t ht => by
    simp [endsFactor, ht]
  match c, c' with
  | .last f, .last f' =>
    obtain ⟨rfl, hend⟩ := Factor.unique f f' (hrest.mono hweaker) (hrest'.mono hweaker) heq
    exact ⟨rfl, hend⟩
  | .and f c, .and f' c' =>
    simp only [Conjunction.tokens, List.append_assoc, List.cons_append] at heq
    obtain ⟨rfl, htail⟩ := Factor.unique f f' (follows_cons rfl _) (follows_cons rfl _) heq
    obtain ⟨rfl, hend⟩ := Conjunction.unique c c' hrest hrest' (List.cons.inj htail).2
    exact ⟨rfl, hend⟩
  -- A factor that nothing follows is not followed by a keyword.
  | .last f, .and f' c' =>
    simp only [Conjunction.tokens, List.append_assoc, List.cons_append] at heq
    obtain ⟨-, rfl⟩ := Factor.unique f f' (hrest.mono hweaker) (follows_cons rfl _) heq
    cases hrest _ _ rfl
  | .and f c, .last f' =>
    simp only [Conjunction.tokens, List.append_assoc, List.cons_append] at heq
    obtain ⟨-, rfl⟩ := Factor.unique f f' (follows_cons rfl _) (hrest'.mono hweaker) heq
    cases hrest' _ _ rfl

theorem Disjunction.unique (d d' : Disjunction) {rest rest' : List Token}
    (hrest : Follows endsDisjunction rest) (hrest' : Follows endsDisjunction rest')
    (heq : d.tokens ++ rest = d'.tokens ++ rest') : d = d' ∧ rest = rest' := by
  have hweaker : ∀ t, endsDisjunction t = true → endsConjunction t = true := fun t ht => by
    simp [endsConjunction, ht]
  match d, d' with
  | .last c, .last c' =>
    obtain ⟨rfl, hend⟩ := Conjunction.unique c c' (hrest.mono hweaker) (hrest'.mono hweaker) heq
    exact ⟨rfl, hend⟩
  | .or c d, .or c' d' =>
    simp only [Disjunction.tokens, List.append_assoc, List.cons_append] at heq
    obtain ⟨rfl, htail⟩ := Conjunction.unique c c' (follows_cons rfl _) (follows_cons rfl _) heq
    obtain ⟨rfl, hend⟩ := Disjunction.unique d d' hrest hrest' (List.cons.inj htail).2
    exact ⟨rfl, hend⟩
  | .last c, .or c' d' =>
    simp only [Disjunction.tokens, List.append_assoc, List.cons_append] at heq
    obtain ⟨-, rfl⟩ := Conjunction.unique c c' (hrest.mono hweaker) (follows_cons rfl _) heq
    cases hrest _ _ rfl
  | .or c d, .last c' =>
    simp only [Disjunction.tokens, List.append_assoc, List.cons_append] at heq
    obtain ⟨-, rfl⟩ := Conjunction.unique c c' (follows_cons rfl _) (hrest'.mono hweaker) heq
    cases hrest' _ _ rfl

end

/-- Two readings of the same tokens are the same. -/
theorem tokens_injective {d d' : Disjunction} (h : d.tokens = d'.tokens) : d = d' := by
  have hnil : Follows endsDisjunction [] := fun _ _ heq => by cases heq
  have heq : d.tokens ++ [] = d'.tokens ++ [] := by rw [h]
  exact (Disjunction.unique d d' hnil hnil heq).1

end Condition

end SqlService
