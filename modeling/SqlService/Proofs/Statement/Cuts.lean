import SqlService.Proofs.Statement.Closed
import SqlService.Proofs.Text.Utf8
import SqlService.Statement.Cuts

/-!
# Cuts are between characters

Quotes, word characters and the characters of a mark are characters up to `0x7F`, whose bytes no
other character has.  So a piece ends on the bytes where it ends in the text, also where a backslash
passes over the first byte of a longer character: the bytes that continue it are no quotes and no
backslashes.  Since an end does not depend on the bytes in front, this holds from every position
between characters, and the scan of the bytes only reaches such positions.

Main statements: `pieceEnd?_utf8`, `exists_end_of_isBoundary`, `Reached.isBoundary` and `scan?_utf8`.
-/

namespace SqlService.Statement

open Text (utf8 slice? find? isBoundary nextBoundary?)

/-! ## §1 Quotes -/

section

variable {quote : UInt8} {backslash : Bool}

theorem quotedEnd_append (front bytes : List UInt8) (i : Nat) :
    quotedEnd (front ++ bytes) quote backslash (front.length + i) =
      front.length + quotedEnd bytes quote backslash i := by
  have hlt : ∀ i, front.length + i < (front ++ bytes).length ↔ i < bytes.length := by simp
  have hnext : ∀ i : Nat, (front ++ bytes)[front.length + i + 1]? = bytes[i + 1]? := fun i =>
    Text.getElem?_behind front bytes (i + 1)
  -- By the recursion of the scan: each of its tests looks at bytes at or behind the position only.
  fun_induction quotedEnd bytes quote backslash i with
  | case1 i h hskip ih =>
    rw [quotedEnd, dif_pos ((hlt i).mpr h), if_pos (by simpa using hskip)]
    exact ih
  | case2 i h hskip hclose hdouble ih =>
    rw [quotedEnd, dif_pos ((hlt i).mpr h), if_neg (by simpa using hskip),
      if_pos (by simpa using hclose), if_pos (by simpa [hnext] using hdouble)]
    exact ih
  | case3 i h hskip hclose hdouble =>
    rw [quotedEnd, dif_pos ((hlt i).mpr h), if_neg (by simpa using hskip),
      if_pos (by simpa using hclose), if_neg (by simpa [hnext] using hdouble), Nat.add_assoc]
  | case4 i h hskip hclose ih =>
    rw [quotedEnd, dif_pos ((hlt i).mpr h), if_neg (by simpa using hskip),
      if_neg (by simpa using hclose)]
    exact ih
  | case5 i h =>
    rw [quotedEnd, dif_neg (mt (hlt i).mp h), List.length_append]

theorem quotedEnd_nil (i : Nat) : quotedEnd [] quote backslash i = 0 := by
  rw [quotedEnd, dif_neg (by simp)]
  rfl

/-- The backslash passes over the byte behind it, if there is one. -/
theorem quotedEnd_skip (x : UInt8) (bytes : List UInt8) :
    quotedEnd ('\\'.toUInt8 :: x :: bytes) quote true 0 = 2 + quotedEnd bytes quote true 0 := by
  rw [quotedEnd, dif_pos (by simp), if_pos (by simp)]
  exact quotedEnd_append ['\\'.toUInt8, x] bytes 0

theorem quotedEnd_double (bytes : List UInt8) (h : backslash = true → quote ≠ '\\'.toUInt8) :
    quotedEnd (quote :: quote :: bytes) quote backslash 0 =
      2 + quotedEnd bytes quote backslash 0 := by
  rw [quotedEnd, dif_pos (by simp), if_neg (by simpa using h), if_pos (by simp), if_pos (by simp)]
  exact quotedEnd_append [quote, quote] bytes 0

theorem quotedEnd_close {bytes : List UInt8} (h : backslash = true → quote ≠ '\\'.toUInt8)
    (hnext : bytes[0]? ≠ some quote) : quotedEnd (quote :: bytes) quote backslash 0 = 1 := by
  rw [quotedEnd, dif_pos (by simp), if_neg (by simpa using h), if_pos (by simp),
    if_neg (by simpa using hnext)]

/-- Other bytes are passed over one by one. -/
theorem quotedEnd_run {run : List UInt8} (bytes : List UInt8)
    (hskip : ∀ x ∈ run, backslash = true → x ≠ '\\'.toUInt8) (hquote : ∀ x ∈ run, x ≠ quote) :
    quotedEnd (run ++ bytes) quote backslash 0 = run.length + quotedEnd bytes quote backslash 0 := by
  -- By induction on the run, one byte of it at a time.
  induction run with
  | nil => simp
  | cons x run ih =>
    have htail := ih (fun y hy => hskip y (List.mem_cons_of_mem x hy))
      fun y hy => hquote y (List.mem_cons_of_mem x hy)
    have hx := hskip x List.mem_cons_self
    rw [List.cons_append, quotedEnd, dif_pos (by simp), if_neg (by simpa using hx),
      if_neg (by simpa using hquote x List.mem_cons_self)]
    refine (quotedEnd_append [x] (run ++ bytes) 0).trans ?_
    rw [htail, List.length_cons, List.length_cons, List.length_nil]
    omega

end

/-- Quotes end on the bytes where they end in the text: a backslash may pass over the first byte of
a character only, but the others are no quotes and no backslashes. -/
theorem quotedEnd_utf8 (backslash : Bool) {quote : Char} (hquote : quote.toNat < 0x80)
    (cs : List Char) :
    quotedEnd (utf8 cs) quote.toUInt8 backslash 0 =
      (utf8 (quoted backslash quote cs).1).length := by
  have hmark : ∀ {c}, ¬ (backslash && c == '\\') = true → (c == quote) = true →
      backslash = true → quote.toUInt8 ≠ '\\'.toUInt8 := by
    intro c hskip hclose hback heq
    rw [Text.toUInt8_inj hquote (by decide)] at heq
    rw [beq_iff_eq.mp hclose, heq, hback] at hskip
    exact hskip rfl
  have hother : ∀ c bytes, ¬ (backslash && c == '\\') = true → ¬ (c == quote) = true →
      quotedEnd (String.utf8EncodeChar c ++ bytes) quote.toUInt8 backslash 0 =
        (String.utf8EncodeChar c).length + quotedEnd bytes quote.toUInt8 backslash 0 := by
    intro c bytes hskip hclose
    refine quotedEnd_run bytes (fun x hx hback heq => ?_) fun x hx heq => ?_
    -- No byte of another character is the backslash or the quote.
    · have hc : c ≠ '\\' := by simpa [hback] using hskip
      exact Text.toUInt8_not_mem_utf8EncodeChar (by decide) hc (heq ▸ hx)
    · exact Text.toUInt8_not_mem_utf8EncodeChar hquote (by simpa using hclose) (heq ▸ hx)
  fun_induction quoted backslash quote cs with
  | case1 => exact quotedEnd_nil 0
  | case2 c =>
    -- A backslash at the end passes over a byte beyond the text, where the quotes end as well.
    rw [Text.utf8_cons, Text.utf8_nil]
    by_cases hskip : (backslash && c == '\\') = true
    · obtain ⟨rfl, rfl⟩ : backslash = true ∧ c = '\\' := by simpa using hskip
      rw [Text.utf8EncodeChar_of_lt (by decide), quotedEnd, dif_pos (by simp), if_pos (by simp),
        quotedEnd, dif_neg (by simp)]
    -- Otherwise the last character closes the quotes, or it is passed over.
    · by_cases hclose : (c == quote) = true
      · rw [beq_iff_eq.mp hclose, Text.utf8EncodeChar_of_lt hquote]
        exact quotedEnd_close (hmark hskip hclose) (by simp)
      · rw [hother c [] hskip hclose, quotedEnd_nil, List.append_nil, Nat.add_zero]
  | case3 c d rest hskip ih =>
    obtain ⟨rfl, rfl⟩ : backslash = true ∧ c = '\\' := by simpa using hskip
    obtain ⟨first, more, hbytes, -, hmore⟩ := Text.exists_utf8EncodeChar d
    -- After its first byte the rest of the character is passed over.
    have hrun : quotedEnd (more ++ utf8 rest) quote.toUInt8 true 0 =
        more.length + quotedEnd (utf8 rest) quote.toUInt8 true 0 :=
      quotedEnd_run _ (fun x hx _ => Text.ne_toUInt8_of_continues (hmore x hx) (by decide))
        fun x hx => Text.ne_toUInt8_of_continues (hmore x hx) hquote
    rw [Text.utf8_cons, Text.utf8_cons, Text.utf8EncodeChar_of_lt (by decide), hbytes,
      List.singleton_append, List.cons_append, quotedEnd_skip, hrun, ih]
    simp [Text.utf8EncodeChar_of_lt, hbytes]
    omega
  | case4 c d rest hskip hclose hdouble ih =>
    obtain rfl := beq_iff_eq.mp hclose
    obtain rfl := beq_iff_eq.mp hdouble
    rw [Text.utf8_cons, Text.utf8_cons, Text.utf8EncodeChar_of_lt hquote, List.singleton_append,
      List.singleton_append, quotedEnd_double _ (hmark hskip hclose), ih]
    simp [Text.utf8EncodeChar_of_lt hquote]
    omega
  | case5 c d rest hskip hclose hdouble =>
    obtain rfl := beq_iff_eq.mp hclose
    -- A quote that is not doubled closes, as the next byte is none either.
    have hnext : (utf8 (d :: rest))[0]? ≠ some c.toUInt8 := by
      rw [ne_eq, Text.getElem?_utf8_zero_iff hquote]
      simpa using hdouble
    rw [Text.utf8_cons, Text.utf8EncodeChar_of_lt hquote, List.singleton_append,
      quotedEnd_close (hmark hskip hclose) hnext]
    simp [Text.utf8EncodeChar_of_lt hquote]
  | case6 c d rest hskip hclose ih =>
    rw [Text.utf8_cons, hother c _ hskip hclose, ih]
    simp

/-- The same behind the opening quote. -/
theorem quotedEnd_utf8_one (backslash : Bool) {quote : Char} (hquote : quote.toNat < 0x80)
    (cs : List Char) :
    quotedEnd (utf8 (quote :: cs)) quote.toUInt8 backslash 1 =
      (utf8 (quote :: (quoted backslash quote cs).1)).length := by
  rw [Text.utf8_cons_of_lt hquote, Text.utf8_cons_of_lt hquote, List.length_cons,
    ← quotedEnd_utf8 backslash hquote, Nat.add_comm]
  exact quotedEnd_append [quote.toUInt8] (utf8 cs) 0

/-! ## §2 Words -/

theorem wordEnd_append (front bytes : List UInt8) (i : Nat) :
    wordEnd (front ++ bytes) (front.length + i) = front.length + wordEnd bytes i := by
  have hlt : ∀ i, front.length + i < (front ++ bytes).length ↔ i < bytes.length := by simp
  fun_induction wordEnd bytes i with
  | case1 i h hword ih =>
    rw [wordEnd, dif_pos ((hlt i).mpr h), if_pos (by simpa using hword)]
    exact ih
  | case2 i h hword => rw [wordEnd, dif_pos ((hlt i).mpr h), if_neg (by simpa using hword)]
  | case3 i h => rw [wordEnd, dif_neg (mt (hlt i).mp h)]

/-- A word ends on the bytes where it ends in the text. -/
theorem wordEnd_utf8 (cs : List Char) : wordEnd (utf8 cs) 0 = (utf8 (word cs).1).length := by
  induction cs with
  | nil =>
    rw [wordEnd, dif_neg (by simp)]
    rfl
  | cons c cs ih =>
    by_cases hc : Text.isWordChar c = true
    -- A word character is a single byte.
    · have hlow : c.toNat < 0x80 := Nat.lt_of_le_of_lt (Text.toNat_of_isWordChar hc).2 (by decide)
      rw [Text.utf8_cons, Text.utf8EncodeChar_of_lt hlow, List.singleton_append, wordEnd,
        dif_pos (by simp), if_pos (by simpa [Text.toNat_toUInt8 hlow] using hc)]
      refine (wordEnd_append [c.toUInt8] (utf8 cs) 0).trans ?_
      rw [ih]
      simp [word, List.takeWhile_cons_of_pos hc, Text.utf8EncodeChar_of_lt hlow, Nat.add_comm]
    -- Any other character ends the word with its first byte, which is no word character.
    · obtain ⟨first, rest, hbytes, -⟩ := Text.exists_utf8EncodeChar c
      have hfirst : Text.isWordChar (Char.ofNat first.toNat) = false :=
        Text.not_isWordChar_of_mem_utf8EncodeChar (hbytes ▸ List.mem_cons_self) (by simpa using hc)
      rw [Text.utf8_cons, hbytes, List.cons_append, wordEnd, dif_pos (by simp),
        if_neg (by simp [hfirst])]
      simp [word, List.takeWhile_cons_of_neg hc]

/-! ## §3 Comments -/

theorem lineEnd?_append (front bytes : List UInt8) (i : Nat) :
    lineEnd? (front ++ bytes) (front.length + i) = (lineEnd? bytes i).map (front.length + ·) := by
  rw [lineEnd?, lineEnd?, List.length_append, Text.slice?_append, Option.map_map]
  congr 1
  funext rest
  rw [Function.comp_apply]
  cases find? ['\n'.toUInt8] rest with
  | none => rfl
  | some n => simp [Nat.add_assoc]

theorem blockEnd?_append (front bytes : List UInt8) (i : Nat) :
    blockEnd? (front ++ bytes) (front.length + i) = (blockEnd? bytes i).map (front.length + ·) := by
  rw [blockEnd?, blockEnd?, List.length_append, Nat.add_assoc, Text.slice?_append, Option.map_map]
  congr 1
  funext rest
  rw [Function.comp_apply]
  cases find? ['*'.toUInt8, '/'.toUInt8] rest with
  | none => rfl
  | some n => simp [Nat.add_assoc]

theorem lineEnd?_utf8 (cs : List Char) :
    lineEnd? (utf8 cs) 0 = some (utf8 (lineComment cs).1).length := by
  -- The rest of the text is cut out, and the end of the line is searched in it.
  have hslice : slice? (utf8 cs) 0 (utf8 cs).length = some (utf8 cs) := Text.slice?_utf8_length [] cs
  have hfind : find? ['\n'.toUInt8] (utf8 cs) =
      (Text.cut? ['\n'] cs).map fun p => (utf8 p.1).length :=
    Text.find?_utf8 '\n' [] (by simp) cs
  rw [lineEnd?, hslice, Option.map_some, hfind, lineComment, ← Text.cut?_singleton]
  cases Text.cut? ['\n'] cs with
  | none => rfl
  | some p => simp

theorem blockEnd?_utf8 (cs : List Char) :
    blockEnd? (utf8 ('/' :: '*' :: cs)) 0 = some (2 + (utf8 (blockComment cs).1).length) := by
  have hopening : (utf8 ['/', '*']).length = 2 := rfl
  have hclosing : (utf8 ['*', '/']).length = 2 := rfl
  -- The search starts behind the two opening characters, and a comment without an end runs to the
  -- end.
  have hslice : slice? (utf8 ('/' :: '*' :: cs)) 2 (utf8 ('/' :: '*' :: cs)).length =
      some (utf8 cs) := Text.slice?_utf8_length ['/', '*'] cs
  have hfind : find? ['*'.toUInt8, '/'.toUInt8] (utf8 cs) =
      (Text.cut? ['*', '/'] cs).map fun p => (utf8 p.1).length :=
    Text.find?_utf8 '*' ['/'] (by simp) cs
  rw [blockEnd?, hslice, Option.map_some, hfind, blockComment]
  cases Text.cut? ['*', '/'] cs with
  | none =>
    show some (utf8 (['/', '*'] ++ cs)).length = some (2 + (utf8 cs).length)
    rw [Text.utf8_append, List.length_append, hopening]
  | some p =>
    show some (0 + 2 + (utf8 p.1).length + 2) = some (2 + (utf8 (p.1 ++ ['*', '/'])).length)
    rw [Text.utf8_append, List.length_append, hclosing, Nat.zero_add, Nat.add_assoc]

/-! ## §4 Pieces -/

/-- The end of a piece does not depend on the bytes in front of it. -/
theorem pieceEnd?_append (backslash : Bool) (front bytes : List UInt8) (i : Nat) :
    pieceEnd? backslash (front ++ bytes) (front.length + i) =
      (pieceEnd? backslash bytes i).map (front.length + ·) := by
  simp only [pieceEnd?, Nat.add_assoc, Text.getElem?_behind]
  cases bytes[i]? with
  | none => rfl
  | some x =>
    simp only [quotedEnd_append, wordEnd_append, lineEnd?_append, blockEnd?_append,
      Text.nextBoundary?_append]
    repeat' split
    all_goals rfl

/-- A single `@` ends with the word behind it. -/
theorem pieceEnd?_utf8_at (backslash : Bool) {cs : List Char} (h : ∀ rest, cs ≠ '@' :: rest) :
    pieceEnd? backslash (utf8 ('@' :: cs)) 0 = some (utf8 ('@' :: (word cs).1)).length := by
  -- The second byte tells that there is no second sign.
  have hsecond : (utf8 cs)[0]? ≠ some '@'.toUInt8 := by
    rw [ne_eq, Text.getElem?_utf8_zero_iff (by decide)]
    intro hhead
    obtain ⟨rest, rfl⟩ := List.head?_eq_some_iff.mp hhead
    exact h rest rfl
  have hword : wordEnd ('@'.toUInt8 :: utf8 cs) 1 = (utf8 ('@' :: (word cs).1)).length := by
    rw [Text.utf8_cons_of_lt (by decide), List.length_cons, ← wordEnd_utf8, Nat.add_comm]
    exact wordEnd_append ['@'.toUInt8] (utf8 cs) 0
  rw [← hword, Text.utf8_cons_of_lt (by decide)]
  exact if_neg (by simpa using hsecond)

/-- Where no mark starts in the text, its bytes start none, and the piece is one character. -/
theorem pieceEnd?_utf8_other (backslash : Bool) {c : Char} {cs : List Char} (hsingle : c ≠ '\x27')
    (hdouble : c ≠ '"') (hgrave : c ≠ '\x60') (hat : c ≠ '@')
    (hline : ∀ rest, c :: cs ≠ '-' :: '-' :: rest)
    (hblock : ∀ rest, c :: cs ≠ '/' :: '*' :: rest) :
    pieceEnd? backslash (utf8 (c :: cs)) 0 = some (String.utf8EncodeChar c).length := by
  obtain ⟨first, more, hbytes, -⟩ := Text.exists_utf8EncodeChar c
  have hzero : (utf8 (c :: cs))[0]? = some first := by simp [hbytes]
  -- No byte of the character is a mark, and no two bytes are a mark of two characters.
  have hfirst : ∀ {mark : Char}, mark.toNat < 0x80 → c ≠ mark → first ≠ mark.toUInt8 := by
    rintro mark hmark hne rfl
    exact Text.toUInt8_not_mem_utf8EncodeChar hmark hne (hbytes ▸ List.mem_cons_self)
  have hpair : ∀ {mark second : Char}, mark.toNat < 0x80 → second.toNat < 0x80 →
      (∀ rest, c :: cs ≠ mark :: second :: rest) →
      ¬ (first == mark.toUInt8 && (utf8 (c :: cs))[1]? == some second.toUInt8) = true := by
    intro mark second hmark hsecond hne hboth
    rw [Bool.and_eq_true, beq_iff_eq, beq_iff_eq, ← Option.some.injEq, ← hzero,
      Text.getElem?_utf8_pair_iff hmark hsecond] at hboth
    obtain ⟨rest, heq⟩ := hboth
    exact hne rest heq
  have hsign := hfirst (by decide) hat
  rw [← Text.nextBoundary?_utf8 c cs, pieceEnd?, hzero]
  show (if _ then _ else _) = _
  -- So none of the cases of the scan applies but the last one.
  rw [if_neg (by simp [hfirst (by decide) hsingle, hfirst (by decide) hdouble]),
    if_neg (by simp [hfirst (by decide) hgrave]),
    if_neg (hpair (by decide) (by decide) hline), if_neg (hpair (by decide) (by decide) hblock),
    if_neg (by simp [hsign]), if_neg (by simp [hsign])]

/-- A piece ends on the bytes where it ends in the text. -/
theorem pieceEnd?_utf8 (backslash : Bool) (c : Char) (cs : List Char) :
    pieceEnd? backslash (utf8 (c :: cs)) 0 =
      some (utf8 (next backslash c cs).1.text).length := by
  unfold next
  -- The three kinds of quotes, of which the last knows no backslash.
  split
  · exact congrArg some (quotedEnd_utf8_one backslash (by decide) cs)
  · exact congrArg some (quotedEnd_utf8_one backslash (by decide) cs)
  · exact congrArg some (quotedEnd_utf8_one false (by decide) cs)
  · next rest => exact lineEnd?_utf8 ('-' :: '-' :: rest)
  · next rest =>
    -- The end of the block comment counts from its opening, the word from both signs.
    refine (blockEnd?_utf8 rest).trans ?_
    show _ = some (utf8 (['/', '*'] ++ (blockComment rest).1)).length
    rw [Text.utf8_append, List.length_append]
    rfl
  · next rest =>
    show some (wordEnd (utf8 (['@', '@'] ++ rest)) (2 + 0)) =
      some (utf8 (['@', '@'] ++ (word rest).1)).length
    rw [Text.utf8_append, Text.utf8_append, List.length_append, ← wordEnd_utf8]
    exact congrArg some (wordEnd_append (utf8 ['@', '@']) (utf8 rest) 0)
  · next hsystem =>
    -- The sign with a word behind it or without one.
    rw [pieceEnd?_utf8_at backslash fun rest heq => hsystem rest heq]
    split <;>
    · next hw =>
      rw [hw]
      rfl
  · next hsingle hdouble hgrave hat hline hblock _ =>
    have hother := pieceEnd?_utf8_other backslash hsingle hdouble hgrave hat
      (fun rest heq => hline rest (List.cons.inj heq).1 (List.cons.inj heq).2)
      fun rest heq => hblock rest (List.cons.inj heq).1 (List.cons.inj heq).2
    rw [hother, Piece.text, Text.utf8_cons, Text.utf8_nil, List.append_nil]

/-! ## §5 Cuts -/

/-- A piece as it is cut out of the bytes. -/
def Piece.cut : Piece → Cut
  | plain text => .plain (utf8 text)
  | name word => .name (utf8 word)

theorem cutOut?_append (front bytes : List UInt8) (i stop : Nat) :
    cutOut? (front ++ bytes) (front.length + i) (front.length + stop) = cutOut? bytes i stop := by
  simp only [cutOut?, Nat.add_assoc, Text.getElem?_behind, Text.slice?_append]

/-- Whether a byte starts a live parameter can be told from it and the next one. -/
theorem opensName_utf8_iff (c : Char) (cs : List Char) :
    ((utf8 (c :: cs))[0]? == some '@'.toUInt8 && (utf8 (c :: cs))[1]? != some '@'.toUInt8) = true ↔
      c = '@' ∧ ∀ rest, cs ≠ '@' :: rest := by
  rw [Bool.and_eq_true, beq_iff_eq, Text.getElem?_utf8_zero_iff (by decide), List.head?_cons,
    Option.some.injEq, bne_iff_ne]
  refine and_congr_right fun hc => ?_
  rw [hc, Text.utf8_cons_of_lt (by decide), List.getElem?_cons_succ, ne_eq,
    Text.getElem?_utf8_zero_iff (by decide), List.head?_eq_some_iff]
  exact not_exists

theorem exists_plain_next (backslash : Bool) {c : Char} {cs : List Char}
    (h : ¬ (c = '@' ∧ ∀ rest, cs ≠ '@' :: rest)) :
    ∃ text, (next backslash c cs).1 = .plain text := by
  unfold next
  split
  case h_7 hsystem => exact absurd ⟨rfl, hsystem⟩ h
  all_goals exact ⟨_, rfl⟩

/-- Every piece can be cut out of the bytes. -/
theorem cutOut?_utf8 (backslash : Bool) (c : Char) (cs : List Char) :
    cutOut? (utf8 (c :: cs)) 0 (utf8 (next backslash c cs).1.text).length =
      some (next backslash c cs).1.cut := by
  -- The piece is the front of the text.
  have hslice : slice? (utf8 (c :: cs)) 0 (utf8 (next backslash c cs).1.text).length =
      some (utf8 (next backslash c cs).1.text) := by
    have hall := Text.slice?_utf8 [] (next backslash c cs).1.text (next backslash c cs).2
    rw [List.nil_append, next_append] at hall
    simpa using hall
  have hsign := opensName_utf8_iff c cs
  rw [cutOut?, hslice]
  show (if _ then _ else _) = _
  by_cases hname : c = '@' ∧ ∀ rest, cs ≠ '@' :: rest
  · rw [if_pos (hsign.mpr hname)]
    obtain ⟨rfl, hsystem⟩ := hname
    -- The name is what is left of the piece without its sign, and none if no word follows.
    have hword : slice? (utf8 ('@' :: cs)) (0 + 1) (1 + (utf8 (word cs).1).length) =
        some (utf8 (word cs).1) := by
      have hall := Text.slice?_utf8 ['@'] (word cs).1 (word cs).2
      rwa [word_append] at hall
    cases hw : word cs with
    | mk w rest =>
      rw [hw] at hword
      -- Without a word the sign is a plain piece, and an empty name is cut out.
      cases w with
      | nil =>
        have hnext : next backslash '@' cs = (.plain ['@'], cs) := by
          refine next_at hsystem fun e tail hcs => ?_
          cases hchar : Text.isWordChar e with
          | false => rfl
          | true => simp [hcs, word, hchar] at hw
        have hempty : slice? (utf8 ('@' :: cs)) (0 + 1) (1 + 0) = some [] := hword
        rw [hnext]
        show (slice? (utf8 ('@' :: cs)) (0 + 1) (1 + 0)).bind _ = _
        rw [hempty]
        rfl
      | cons x w =>
        -- With one the name is what the word has.
        have hlength : (utf8 ('@' :: x :: w)).length = 1 + (utf8 (x :: w)).length := by
          rw [Text.utf8_cons_of_lt (by decide), List.length_cons, Nat.add_comm]
        have hname : slice? (utf8 ('@' :: cs)) (0 + 1) (1 + (utf8 (x :: w)).length) =
            some (utf8 (x :: w)) := hword
        obtain ⟨first, more, hbytes, -⟩ := Text.exists_utf8EncodeChar x
        have hsome : (utf8 (x :: w)).isEmpty = false := by simp [hbytes]
        rw [next_name hw]
        show (slice? (utf8 ('@' :: cs)) (0 + 1) (utf8 ('@' :: x :: w)).length).bind _ = _
        rw [hlength, hname, Option.bind_some, hsome]
        rfl
  -- A piece that does not start with a sign is cut out as it is.
  · obtain ⟨text, hplain⟩ := exists_plain_next backslash hname
    rw [if_neg (mt hsign.mp hname), hplain]
    rfl

/-! ## §6 The scan -/

theorem scan?_append (backslash : Bool) (front bytes : List UInt8) (i : Nat) :
    scan? backslash (front ++ bytes) (front.length + i) = scan? backslash bytes i := by
  have hlt : ∀ i, front.length + i < (front ++ bytes).length ↔ i < bytes.length := by simp
  -- The scan reads the end of a piece and cuts it out, and neither depends on the bytes in front.
  fun_induction scan? backslash bytes i with
  | case1 i hi hend =>
    rw [scan?, if_pos ((hlt i).mpr hi), pieceEnd?_append, hend]
    rfl
  | case2 i hi stop hend hstop hcut =>
    rw [scan?, if_pos ((hlt i).mpr hi), pieceEnd?_append, hend, Option.map_some]
    dsimp only
    rw [if_pos (Nat.add_lt_add_left hstop _), cutOut?_append, hcut]
  | case3 i hi stop hend hstop cut hcut ih =>
    rw [scan?, if_pos ((hlt i).mpr hi), pieceEnd?_append, hend, Option.map_some]
    dsimp only
    rw [if_pos (Nat.add_lt_add_left hstop _), cutOut?_append, hcut, ← ih]
  | case4 i hi stop hend hstop =>
    rw [scan?, if_pos ((hlt i).mpr hi), pieceEnd?_append, hend, Option.map_some]
    dsimp only
    rw [if_neg (by omega)]
  | case5 i hi => rw [scan?, if_neg (mt (hlt i).mp hi)]

/-- Every piece has bytes. -/
theorem length_utf8_text_pos (backslash : Bool) (c : Char) (cs : List Char) :
    0 < (utf8 (next backslash c cs).1.text).length := by
  obtain ⟨first, more, hbytes, -⟩ := Text.exists_utf8EncodeChar c
  rw [text_next, Text.utf8_cons, hbytes]
  exact Nat.succ_pos _

/-- The scan of the bytes cuts the pieces of the text out. -/
theorem scan?_utf8 (backslash : Bool) (cs : List Char) :
    scan? backslash (utf8 cs) 0 = some ((pieces backslash cs).map Piece.cut) := by
  fun_induction pieces backslash cs with
  | case1 =>
    rw [scan?, if_neg (by simp)]
    rfl
  | case2 c cs ih =>
    have hpos := length_utf8_text_pos backslash c cs
    -- The scan of the rest is the same as behind the first piece.
    have hshift := scan?_append backslash (utf8 (next backslash c cs).1.text)
      (utf8 (next backslash c cs).2) 0
    rw [← Text.utf8_append, next_append, Nat.add_zero, ih] at hshift
    have hsome : 0 < (utf8 (c :: cs)).length := by
      rw [← next_append backslash, Text.utf8_append, List.length_append]
      omega
    rw [scan?, if_pos hsome, pieceEnd?_utf8]
    dsimp only
    rw [if_pos hpos, cutOut?_utf8]
    dsimp only
    rw [hshift]
    rfl

/-- The positions to which the ends of the pieces lead. -/
inductive Reached (backslash : Bool) (bytes : List UInt8) : Nat → Prop where
  | start : Reached backslash bytes 0
  | next {i stop : Nat} (h : Reached backslash bytes i) (hi : i < bytes.length)
      (hstop : pieceEnd? backslash bytes i = some stop) : Reached backslash bytes stop

/-- One step: a piece that starts between characters has an end that is behind its start and between
characters as well, and can be cut out. -/
theorem exists_end_of_isBoundary (backslash : Bool) {cs : List Char} {i : Nat}
    (h : isBoundary (utf8 cs) i = true) (hi : i < (utf8 cs).length) :
    ∃ stop cut, pieceEnd? backslash (utf8 cs) i = some stop ∧ i < stop ∧
      stop ≤ (utf8 cs).length ∧ isBoundary (utf8 cs) stop = true ∧
      cutOut? (utf8 cs) i stop = some cut := by
  -- The start is between characters, so the piece is one of the text behind it.
  obtain ⟨before, after, rfl, rfl⟩ := Text.isBoundary_utf8_iff.mp h
  cases after with
  | nil => simp at hi
  | cons c after =>
    have hpos := length_utf8_text_pos backslash c after
    -- Its end is the one that it has on its own, only further back.
    have hend := pieceEnd?_append backslash (utf8 before) (utf8 (c :: after)) 0
    have hcut := cutOut?_append (utf8 before) (utf8 (c :: after)) 0
      (utf8 (next backslash c after).1.text).length
    rw [pieceEnd?_utf8, ← Text.utf8_append] at hend
    rw [cutOut?_utf8, ← Text.utf8_append] at hcut
    have hsplit : before ++ c :: after =
        (before ++ (next backslash c after).1.text) ++ (next backslash c after).2 := by
      rw [List.append_assoc, next_append]
    refine ⟨_, _, hend, Nat.lt_add_of_pos_right hpos, ?_, ?_, hcut⟩
    · simp [hsplit]
    · exact Text.isBoundary_utf8_iff.mpr ⟨_, _, hsplit, by simp⟩

/-- The whole run: only positions between characters are reached. -/
theorem Reached.isBoundary {backslash : Bool} {cs : List Char} {i : Nat}
    (h : Reached backslash (utf8 cs) i) : isBoundary (utf8 cs) i = true := by
  induction h with
  | start => exact Text.isBoundary_utf8_zero cs
  | next h hi hstop ih =>
    obtain ⟨stop, cut, hend, -, -, hboundary, -⟩ := exists_end_of_isBoundary backslash ih hi
    rw [hend] at hstop
    rwa [← Option.some.inj hstop]

/-- Whatever the statement is, malformed or not closed: each position that the scan of its bytes
reaches is between characters, and from it the end of a piece is found, which is behind it, not
beyond the bytes and between characters, so that the piece can be cut out.  The cuts of the whole
scan are the pieces of the statement. -/
theorem cuts_between_characters (backslash : Bool) (sql : String) :
    (∀ i, Reached backslash (Text.bytes sql) i → i < (Text.bytes sql).length →
      isBoundary (Text.bytes sql) i = true ∧
      ∃ stop cut, pieceEnd? backslash (Text.bytes sql) i = some stop ∧ i < stop ∧
        stop ≤ (Text.bytes sql).length ∧ isBoundary (Text.bytes sql) stop = true ∧
        cutOut? (Text.bytes sql) i stop = some cut) ∧
    scan? backslash (Text.bytes sql) 0 =
      some ((pieces backslash sql.toList).map Piece.cut) := by
  rw [Text.bytes_eq_utf8]
  exact ⟨fun i h hi => ⟨h.isBoundary, exists_end_of_isBoundary backslash h.isBoundary hi⟩,
    scan?_utf8 backslash sql.toList⟩

/-- An unclosed quote with a backslash in front of a character of two bytes, of which the backslash
passes over the first. -/
theorem unclosed_cut_between_characters :
    isBoundary (Text.bytes "'\\é") 3 = false ∧
    ∃ stop, pieceEnd? true (Text.bytes "'\\é") 0 = some stop ∧
      isBoundary (Text.bytes "'\\é") stop = true := by
  have hpos : 0 < (Text.bytes "'\\é").length := by
    rw [Text.bytes_eq_utf8]
    decide
  obtain ⟨-, stop, -, hend, -, -, hboundary, -⟩ :=
    (cuts_between_characters true "'\\é").1 0 .start hpos
  refine ⟨?_, stop, hend, hboundary⟩
  rw [Text.bytes_eq_utf8]
  decide

end SqlService.Statement
