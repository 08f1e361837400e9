import SqlService.Statement.Scan

/-!
# Texts between quotes

A quoted region is read one character at a time: a character that means nothing there is taken, a
doubled quote and an escaped character are taken as two, and a quote that is not doubled is the last
one.

Main statement: a text without quotes and without escapes is read up to the quote behind it
(`quoted_plain`).
-/

namespace SqlService.Statement

/-- Whether a backslash that stands here escapes the next character. -/
def escapes (backslash : Bool) (c : Char) : Bool := backslash && c == '\\'

variable {backslash : Bool} {quote c : Char}

theorem quoted_take (hquote : c ≠ quote) (hescape : escapes backslash c = false) (cs : List Char) :
    quoted backslash quote (c :: cs) =
      (c :: (quoted backslash quote cs).1, (quoted backslash quote cs).2) := by
  unfold escapes at hescape
  cases cs with
  | nil => rfl
  | cons d cs => simp [quoted, hescape, hquote]

theorem quoted_escape (hescape : escapes backslash c = true) (d : Char) (cs : List Char) :
    quoted backslash quote (c :: d :: cs) =
      (c :: d :: (quoted backslash quote cs).1, (quoted backslash quote cs).2) := by
  unfold escapes at hescape
  simp only [quoted, hescape, if_true]

theorem quoted_double (hquote : escapes backslash quote = false) (cs : List Char) :
    quoted backslash quote (quote :: quote :: cs) =
      (quote :: quote :: (quoted backslash quote cs).1, (quoted backslash quote cs).2) := by
  unfold escapes at hquote
  simp only [quoted, hquote, beq_self_eq_true, if_true, Bool.false_eq_true, if_false]

theorem quoted_close (hquote : escapes backslash quote = false) {rest : List Char}
    (hrest : rest.head? ≠ some quote) :
    quoted backslash quote (quote :: rest) = ([quote], rest) := by
  unfold escapes at hquote
  cases rest with
  | nil => rfl
  | cons e rest =>
    have he : (e == quote) = false := by simpa using hrest
    simp only [quoted, hquote, he, beq_self_eq_true, if_true, Bool.false_eq_true, if_false]

/-- Between quotes, a text without quotes and escapes is followed by the quote that ends it. -/
theorem quoted_plain (hquote : escapes backslash quote = false) {cs rest : List Char}
    (hcs : ∀ c ∈ cs, c ≠ quote ∧ escapes backslash c = false) (hrest : rest.head? ≠ some quote) :
    quoted backslash quote (cs ++ quote :: rest) = (cs ++ [quote], rest) := by
  induction cs with
  | nil => exact quoted_close hquote hrest
  | cons c cs ih =>
    have hc := hcs c List.mem_cons_self
    have htail := ih fun e he => hcs e (List.mem_cons_of_mem _ he)
    rw [List.cons_append, quoted_take hc.1 hc.2, htail]
    rfl

end SqlService.Statement
