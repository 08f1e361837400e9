import SqlService.Proofs.Statement.Closed
import SqlService.Statement.Binding

/-!
# Live names

What binding a statement does is decided by its live names in their order.  `Mentions` says which
names a text has wherever it stands in front of a character that continues nothing, so that the
names of a composed statement are read off its parts.

Main statements: the values that a statement is bound to (`values_bind`), and the names that are
left in its text (`liveNames_bind`).
-/

namespace SqlService.Statement

/-! ## §1 The names of a text -/

/-- The name of a piece that is one. -/
def Piece.name? : Piece → Option String
  | plain _ => none
  | name word => some (String.ofList word)

/-- The live names of a text, in order and with repetitions. -/
def liveNames (backslash : Bool) (cs : List Char) : List String :=
  (pieces backslash cs).filterMap Piece.name?

/-- A character that starts no region and no name. -/
def inert (c : Char) : Bool := !(['\x27', '"', '\x60', '-', '/', '@'].contains c)

/-- Nothing follows, or something that continues nothing. -/
def Seam (rest : List Char) : Prop := rest = [] ∨ ∃ e tail, rest = e :: tail ∧ neutral e = true

/-- The names of the text are the given ones, whatever stands behind a seam after it. -/
def Mentions (backslash : Bool) (cs : List Char) (names : List String) : Prop :=
  ∀ rest, Seam rest → liveNames backslash (cs ++ rest) = names ++ liveNames backslash rest

theorem liveNames_nil (backslash : Bool) : liveNames backslash [] = [] := by
  simp [liveNames, pieces]

/-- A character that starts nothing is a piece by itself. -/
theorem next_inert {backslash : Bool} {c : Char} (h : inert c = true) (cs : List Char) :
    next backslash c cs = (.plain [c], cs) := by
  simp only [inert, Bool.not_eq_true', List.contains_eq_mem, List.mem_cons, List.not_mem_nil,
    or_false, decide_eq_false_iff_not, not_or] at h
  obtain ⟨h1, h2, h3, h4, h5, h6⟩ := h
  exact next_plain h1 h2 h3 h6 (fun _ h => absurd h h4) fun _ h => absurd h h5

/-- Characters that start nothing are pieces by themselves. -/
theorem pieces_inert {backslash : Bool} {cs : List Char} (h : ∀ c ∈ cs, inert c = true)
    (rest : List Char) :
    pieces backslash (cs ++ rest) = cs.map (fun c => .plain [c]) ++ pieces backslash rest := by
  induction cs with
  | nil => rfl
  | cons c cs ih =>
    rw [List.cons_append, pieces, next_inert (h c List.mem_cons_self),
      ih fun d hd => h d (List.mem_cons_of_mem _ hd)]
    rfl

/-- Characters that start nothing mention nothing. -/
theorem liveNames_inert (backslash : Bool) {cs : List Char} (h : ∀ c ∈ cs, inert c = true)
    (rest : List Char) : liveNames backslash (cs ++ rest) = liveNames backslash rest := by
  have hplain : (cs.map fun c => Piece.plain [c]).filterMap Piece.name? = [] := by
    simp [Piece.name?]
  rw [liveNames, pieces_inert h, List.filterMap_append, hplain, List.nil_append]
  rfl

/-- The characters of words start nothing. -/
theorem inert_of_isWordChar {c : Char} (h : Text.isWordChar c = true) : inert c = true := by
  simp only [inert, Bool.not_eq_true', List.contains_eq_mem, List.mem_cons, List.not_mem_nil,
    or_false, decide_eq_false_iff_not, not_or]
  refine ⟨?_, ?_, ?_, ?_, ?_, ?_⟩ <;> rintro rfl <;> exact absurd h (by decide)

/-- What stands behind a seam does not lengthen a word. -/
theorem Seam.not_word {rest : List Char} (h : Seam rest) :
    ∀ e tail, rest = e :: tail → Text.isWordChar e = false := by
  rintro e tail rfl
  rcases h with h | ⟨e, tail, heq, he⟩
  · cases h
  · cases heq
    exact (ne_of_neutral he).2.2.2.2.2.2

theorem seam_cons {e : Char} (h : neutral e = true) (tail : List Char) : Seam (e :: tail) :=
  .inr ⟨e, tail, rfl, h⟩

theorem seam_append {cs : List Char} (h : cs.head?.any neutral = true) (rest : List Char) :
    Seam (cs ++ rest) := by
  cases cs with
  | nil => cases h
  | cons e cs => exact seam_cons h (cs ++ rest)

/-- Two texts that may follow a seam may follow it together. -/
theorem Seam.append {cs rest : List Char} (h : Seam cs) (hrest : Seam rest) :
    Seam (cs ++ rest) := by
  rcases h with rfl | ⟨e, tail, rfl, he⟩
  · exact hrest
  · exact seam_cons he (tail ++ rest)

/-- Whether a text may stand behind a seam is seen from its first character. -/
theorem Seam.extend {rest : List Char} {e : Char} {tail : List Char} (h : Seam (rest ++ [e])) :
    Seam (rest ++ e :: tail) := by
  rcases h with h | ⟨x, more, heq, hx⟩
  · simp at h
  -- Without a text in front it is the added character that stands at the seam.
  · cases rest with
    | nil =>
      obtain ⟨rfl, -⟩ := List.cons.inj heq
      exact seam_cons hx tail
    | cons y rest =>
      obtain ⟨rfl, -⟩ := List.cons.inj heq
      exact seam_cons hx (rest ++ e :: tail)

namespace Mentions

variable {backslash : Bool} {cs : List Char} {names : List String}

/-- A closed text mentions its live names. -/
theorem of_closed (h : closed backslash cs = true) :
    Mentions backslash cs (liveNames backslash cs) := by
  -- A closed text may end anywhere; only what continues nothing may follow it.
  rintro rest (rfl | ⟨e, tail, rfl, he⟩)
  · simp [liveNames_nil]
  · rw [liveNames, pieces_append h he, List.filterMap_append]
    rfl

/-- A text without any start of a region or of a name mentions nothing. -/
theorem inert (h : ∀ c ∈ cs, inert c = true) : Mentions backslash cs [] :=
  fun rest _ => liveNames_inert backslash h rest

/-- Text that starts nothing may be put in front. -/
theorem prepend (h : ∀ c ∈ cs, Statement.inert c = true) {ds : List Char}
    (hds : Mentions backslash ds names) : Mentions backslash (cs ++ ds) names := by
  intro rest hrest
  rw [List.append_assoc, liveNames_inert backslash h, hds rest hrest]

/-- A marked word mentions itself. -/
theorem name {w : List Char} (hne : w ≠ []) (hw : ∀ c ∈ w, Text.isWordChar c = true) :
    Mentions backslash ('@' :: w) [String.ofList w] := by
  intro rest hrest
  obtain ⟨x, w, rfl⟩ := List.exists_cons_of_ne_nil hne
  -- The word ends at the seam, so all of it is the name and nothing more.
  have htake : (x :: w).takeWhile Text.isWordChar = x :: w := List.takeWhile_eq_self_iff.mpr hw
  have hword := word_swap (x :: w) hrest.not_word
  rw [show (word (x :: w)).1 = x :: w from htake] at hword
  rw [liveNames, List.cons_append, pieces, next_name hword]
  rfl

/-- Two texts that meet at a seam mention the names of both, in their order. -/
theorem append (h : Mentions backslash cs names) {ds : List Char} {more : List String}
    (hseam : Seam ds) (hds : Mentions backslash ds more) :
    Mentions backslash (cs ++ ds) (names ++ more) := by
  intro rest hrest
  -- The names of the first are read off with the second text as what stands behind it.
  rw [List.append_assoc, h _ (hseam.append hrest), hds rest hrest, List.append_assoc]

/-- Text that starts nothing may follow at a seam. -/
theorem extend (h : Mentions backslash cs names) {ds : List Char} (hseam : Seam ds)
    (hds : ∀ c ∈ ds, Statement.inert c = true) : Mentions backslash (cs ++ ds) names := by
  have hall := h.append hseam (.inert hds)
  rwa [List.append_nil] at hall

/-- Brackets around a text mention nothing of their own. -/
theorem enclosed (h : Mentions backslash cs names) :
    Mentions backslash ('(' :: (cs ++ [')'])) names := by
  have hclose : Mentions backslash (cs ++ [')']) names :=
    h.extend (seam_cons (by decide) []) (by simp [Statement.inert])
  have hopen : ∀ e ∈ ['('], Statement.inert e = true := by simp [Statement.inert]
  exact hclose.prepend hopen

/-- A named parameter mentions its name. -/
theorem placeholder (d : Dialect) {n : String} (hne : n.toList ≠ [])
    (hn : ∀ c ∈ n.toList, Text.isWordChar c = true) :
    Mentions backslash (d.placeholder n).toList [n] := by
  have hname : Mentions backslash ('@' :: n.toList) [String.ofList n.toList] := .name hne hn
  rw [String.ofList_toList] at hname
  simpa [Dialect.placeholder] using hname

/-- Texts with one name each mention these names when they are joined at seams. -/
theorem joined {ns : List String} {text : String → String} {joiner : String}
    (h : ∀ n ∈ ns, Mentions backslash (text n).toList [n])
    (hhead : joiner.toList.head?.any neutral = true)
    (hjoiner : ∀ c ∈ joiner.toList, Statement.inert c = true) :
    Mentions backslash (String.intercalate joiner (ns.map text)).toList ns := by
  -- By induction on the names: the joiner is the seam, and starts nothing itself.
  induction ns with
  | nil => exact .inert (by simp)
  | cons n ns ih =>
    have hfirst := h n List.mem_cons_self
    have hrest := ih fun m hm => h m (List.mem_cons_of_mem _ hm)
    cases ns with
    | nil => simpa using hfirst
    | cons m ns =>
      have hall := hfirst.append (seam_append hhead _) (hrest.prepend hjoiner)
      simpa using hall

/-- By itself a text has the names that it mentions. -/
theorem liveNames_eq (h : Mentions backslash cs names) : liveNames backslash cs = names := by
  have hnil := h [] (.inl rfl)
  rwa [List.append_nil, liveNames_nil, List.append_nil] at hnil

end Mentions

/-! ## §2 Values -/

/-- The names that have values after those of a text, where `bound` have one before. -/
def boundBy (numbered : Bool) (params : Record) (names bound : List String) : List String :=
  names.foldl
    (fun bound name => if params.contains name then (place numbered bound name).2 else bound) bound

/-- Which names are bound after the pieces depends on the names among them only. -/
theorem bindPieces_bound (d : Dialect) (params : Record) (ps : List Piece) (bound : List String) :
    (bindPieces d params ps bound).2 =
      boundBy d.numbered params (ps.filterMap Piece.name?) bound := by
  -- The names that are bound before grow along the pieces, so they vary in the induction.
  induction ps generalizing bound with
  | nil => rfl
  | cons p ps ih =>
    cases p with
    | plain text => exact ih bound
    | name w =>
      simp only [bindPieces, List.filterMap_cons, Piece.name?, boundBy, List.foldl_cons]
      split
      · exact ih _
      · exact ih bound

/-- The values of a statement are those of its live names. -/
theorem values_bind (d : Dialect) (sql : String) (params : Record) :
    (bind d sql params).values =
      ((boundBy d.numbered params (liveNames d.backslashEscapes sql.toList) []).filterMap
        params.get?).map Scalar.ofJson := by
  have hbound := bindPieces_bound d params (pieces d.backslashEscapes sql.toList) []
  rw [liveNames, ← hbound]
  rfl

/-- Names are bound one after another. -/
theorem boundBy_append (numbered : Bool) (params : Record) (names more bound : List String) :
    boundBy numbered params (names ++ more) bound =
      boundBy numbered params more (boundBy numbered params names bound) :=
  List.foldl_append

/-- New names are bound in their order, each once. -/
theorem boundBy_of_nodup {numbered : Bool} {params : Record} {names bound : List String}
    (hparams : ∀ n ∈ names, params.contains n = true) (hnodup : names.Nodup)
    (hnew : ∀ n ∈ names, n ∉ bound) :
    boundBy numbered params names bound = bound ++ names := by
  induction names generalizing bound with
  | nil => simp [boundBy]
  | cons n names ih =>
    obtain ⟨hn, hrest⟩ := List.nodup_cons.mp hnodup
    have hplace : (place numbered bound n).2 = bound ++ [n] := by
      have hbound := hnew n List.mem_cons_self
      simp [place, hbound]
    -- The names that follow are new to the longer list as well.
    have hstill : ∀ m ∈ names, m ∉ bound ++ [n] := by
      intro m hm hmem
      rcases List.mem_append.mp hmem with hmem | hmem
      · exact hnew m (List.mem_cons_of_mem _ hm) hmem
      · rw [List.mem_singleton.mp hmem] at hm
        exact hn hm
    have htail := ih (fun m hm => hparams m (List.mem_cons_of_mem _ hm)) hrest hstill
    rw [boundBy] at htail
    rw [boundBy, List.foldl_cons, if_pos (hparams n List.mem_cons_self), hplace, htail,
      List.append_assoc, List.singleton_append]

/-- Placing a name binds it and no other. -/
theorem mem_place_iff {numbered : Bool} {bound : List String} {m n : String} :
    n ∈ (place numbered bound m).2 ↔ n ∈ bound ∨ n = m := by
  unfold place
  split
  · next hknown =>
    have hm : m ∈ bound := by simpa using (Bool.and_eq_true_iff.mp hknown).2
    exact ⟨.inl, fun h => h.elim id fun heq => heq ▸ hm⟩
  · simp

/-- The names that are bound are those that were before, and those of the text that have values. -/
theorem mem_boundBy_iff {numbered : Bool} {params : Record} {names bound : List String}
    {n : String} : n ∈ boundBy numbered params names bound ↔
      n ∈ bound ∨ n ∈ names ∧ params.contains n = true := by
  -- By induction on the text's names, with the bound ones growing in front.
  induction names generalizing bound with
  | nil => simp [boundBy]
  | cons m names ih =>
    rw [boundBy, List.foldl_cons, ← boundBy, ih, List.mem_cons]
    by_cases hm : params.contains m = true
    · rw [if_pos hm, mem_place_iff]
      constructor
      · rintro ((h | rfl) | ⟨h, hn⟩)
        · exact .inl h
        · exact .inr ⟨.inl rfl, hm⟩
        · exact .inr ⟨.inr h, hn⟩
      · rintro (h | ⟨rfl | h, hn⟩)
        · exact .inl (.inl h)
        · exact .inl (.inr rfl)
        · exact .inr ⟨h, hn⟩
    · rw [if_neg hm]
      -- The name that is passed over has no value.
      refine or_congr_right (and_congr_left fun hn => ⟨.inr, fun h => h.resolve_left ?_⟩)
      rintro rfl
      exact hm hn

/-- A bound name was bound before or is a name of the text. -/
theorem mem_boundBy {numbered : Bool} {params : Record} {names bound : List String} {n : String}
    (h : n ∈ boundBy numbered params names bound) : n ∈ names ∨ n ∈ bound :=
  (mem_boundBy_iff.mp h).elim .inr fun hn => .inl hn.1

/-- What names are bound depends on which of them have values. -/
theorem boundBy_congr {numbered : Bool} {params params' : Record} {names bound : List String}
    (h : ∀ n ∈ names, params'.contains n = params.contains n) :
    boundBy numbered params' names bound = boundBy numbered params names bound := by
  unfold boundBy
  induction names generalizing bound with
  | nil => rfl
  | cons n names ih =>
    rw [List.foldl_cons, List.foldl_cons, h n List.mem_cons_self]
    exact ih fun m hm => h m (List.mem_cons_of_mem _ hm)

/-- Every name that is bound has a value, if those bound before have. -/
theorem contains_of_mem_boundBy {numbered : Bool} {params : Record} {names bound : List String}
    (hbound : ∀ n ∈ bound, params.contains n = true) {n : String}
    (h : n ∈ boundBy numbered params names bound) : params.contains n = true :=
  (mem_boundBy_iff.mp h).elim (hbound n) And.right

/-- There are as many values as names that are bound. -/
theorem length_values_bind (d : Dialect) (sql : String) (params : Record) :
    (bind d sql params).values.length =
      (boundBy d.numbered params (liveNames d.backslashEscapes sql.toList) []).length := by
  rw [values_bind, List.length_map, List.length_filterMap_eq_countP, List.countP_eq_length]
  exact fun n hn => contains_of_mem_boundBy (fun _ h => absurd h List.not_mem_nil) hn

/-- What is written for the pieces depends on which names have values, not on the values. -/
theorem bindPieces_congr (d : Dialect) {params params' : Record}
    (h : ∀ n, params.contains n = params'.contains n) (ps : List Piece) (bound : List String) :
    bindPieces d params ps bound = bindPieces d params' ps bound := by
  induction ps generalizing bound with
  | nil => rfl
  | cons p ps ih =>
    cases p with
    | plain text => simp only [bindPieces, ih]
    | name w => simp only [bindPieces, ih, h]

/-! ## §3 What is left in the text -/

/-- Numbers are written with characters of words. -/
theorem isWordChar_of_mem_toString {n : Nat} {c : Char} (h : c ∈ (toString n).toList) :
    Text.isWordChar c = true := by
  have hdigit : c.isDigit = true :=
    Nat.isDigit_of_mem_toDigits (b := 10) (by decide) (by decide) (by simpa using h)
  simp [Text.isWordChar, Char.isAlphanum, hdigit]

/-- Different numbers are written differently. -/
theorem toString_injective {m n : Nat} (h : toString m = toString n) : m = n := by
  -- Numbers are read back from their digits.
  have hnumber := congrArg (fun s => Nat.ofDigitChars 10 s.toList 0) h
  simpa [Nat.toString_eq_ofList_toDigits] using hnumber

/-- A positional parameter starts no region and no name, so binding adds no live name. -/
theorem positional_inert (d : Dialect) (n : Nat) :
    ∀ c ∈ (d.positional n).toList, inert c = true := by
  intro c hc
  unfold Dialect.positional at hc
  -- Either a mark with a number or a mark alone.
  split at hc
  · rw [String.toList_append, List.mem_append] at hc
    rcases hc with hc | hc
    · rw [List.mem_singleton.mp hc]
      decide
    · apply inert_of_isWordChar
      exact isWordChar_of_mem_toString hc
  · rw [List.mem_singleton.mp hc]
    decide

/-- A positional parameter begins with a character that continues nothing. -/
theorem head_positional (d : Dialect) (n : Nat) :
    ∃ e tail, (d.positional n).toList = e :: tail ∧ neutral e = true := by
  unfold Dialect.positional
  split
  · exact ⟨'$', (toString n).toList, by rw [String.toList_append]; rfl, by decide⟩
  · exact ⟨'?', [], rfl, by decide⟩

/-- A bound text starts as the text did, or with a positional parameter in place of a name. -/
theorem head_bindPieces (d : Dialect) (params : Record) (backslash : Bool) (cs : List Char)
    (bound : List String) :
    (bindPieces d params (pieces backslash cs) bound).1.head? = cs.head? ∨
      (cs.head? = some '@' ∧ ∃ e tail, (bindPieces d params (pieces backslash cs) bound).1 =
        e :: tail ∧ neutral e = true) := by
  cases cs with
  | nil => exact .inl (by simp [pieces, bindPieces])
  | cons c cs =>
    have hhead : ∀ out, ((next backslash c cs).1.text ++ out).head? = some c := by
      intro out
      rw [text_next]
      rfl
    rw [pieces]
    -- The first piece begins with the first character of the text, so only a name can change it.
    cases hp : (next backslash c cs).1 with
    | plain text =>
      rw [hp] at hhead
      exact .inl (hhead _)
    | name w =>
      rw [hp] at hhead
      simp only [bindPieces]
      split
      · -- A name starts with its mark.
        have hat : '@' = c := Option.some.inj (hhead [])
        obtain ⟨e, tail, heq, he⟩ := head_positional d (place d.numbered bound (String.ofList w)).1
        simp only [heq, List.cons_append]
        exact .inr ⟨by rw [← hat]; rfl, e, _, rfl, he⟩
      · exact .inl (hhead _)

/-- The names that stay in a text are those without a value. -/
theorem liveNames_bindPieces (d : Dialect) (params : Record) (backslash : Bool) (cs : List Char)
    (bound : List String) :
    liveNames backslash (bindPieces d params (pieces backslash cs) bound).1 =
      (liveNames backslash cs).filter fun n => !params.contains n := by
  -- By induction on the pieces; what is bound before does not matter, so it varies.
  fun_induction pieces backslash cs generalizing bound with
  | case1 => simp [bindPieces, liveNames, pieces]
  | case2 c cs ih =>
    -- A piece that is kept is still the first one, whatever became of what follows it.
    have hkept : liveNames backslash ((next backslash c cs).1.text ++
        (bindPieces d params (pieces backslash (next backslash c cs).2) bound).1) =
        (next backslash c cs).1.name?.toList ++
          (liveNames backslash (next backslash c cs).2).filter fun n => !params.contains n := by
      have hfits : Fits backslash c cs
          (bindPieces d params (pieces backslash (next backslash c cs).2) bound).1 := by
        -- The bound rest begins as the rest did, or with a parameter that continues nothing.
        rcases head_bindPieces d params backslash (next backslash c cs).2 bound with h | ⟨h, he⟩
        · exact .inl h
        · have hrest : (next backslash c cs).2 ≠ [] := fun hnil => by simp [hnil] at h
          exact .inr ⟨ends_of_next_ne_nil hrest, by simp [h], he⟩
      rw [← ih bound, text_next, List.cons_append, liveNames, pieces, next_swap hfits,
        List.filterMap_cons]
      cases (next backslash c cs).1.name? <;> rfl
    have hnames : liveNames backslash (c :: cs) =
        (next backslash c cs).1.name?.toList ++ liveNames backslash (next backslash c cs).2 := by
      rw [liveNames, pieces, List.filterMap_cons]
      cases (next backslash c cs).1.name? <;> rfl
    rw [hnames, List.filter_append]
    -- A plain piece is kept, and so is a name without a value; only a name with one is replaced.
    cases hp : (next backslash c cs).1 with
    | plain text =>
      rw [hp] at hkept
      exact hkept
    | name w =>
      rw [hp] at hkept
      simp only [bindPieces, Piece.name?, Option.toList_some]
      split
      · -- A positional parameter stands where the name stood.
        next hcontains =>
        rw [liveNames_inert backslash (positional_inert d _), ih]
        simp [hcontains]
      · next hcontains =>
        rw [hkept]
        simp [Piece.name?, hcontains]

/-- The names that are left live in a bound text are those without a value. -/
theorem liveNames_bind (d : Dialect) (sql : String) (params : Record) :
    liveNames d.backslashEscapes (bind d sql params).sql.toList =
      (liveNames d.backslashEscapes sql.toList).filter fun n => !params.contains n := by
  have hpieces := liveNames_bindPieces d params d.backslashEscapes sql.toList []
  rw [← hpieces, bind, String.toList_ofList]

end SqlService.Statement
