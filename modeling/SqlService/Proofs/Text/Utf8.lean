import SqlService.Proofs.Text.Trimming
import SqlService.Text.Split
import SqlService.Text.Utf8

/-!
# Characters among bytes

A character up to `0x7F` is a byte of its own that no other character has among its bytes, and every
character has a first byte and bytes that continue it.  So a text is cut between characters where
its bytes are cut at boundaries, and the search for a mark of such characters on the bytes finds it
where the search on the characters does.

Main statements: `isBoundary_utf8_iff`, `slice?_utf8` and `find?_utf8`.
-/

namespace SqlService.Text

/-! ## §1 The bytes of a character -/

theorem utf8EncodeChar_of_lt {c : Char} (h : c.toNat < 0x80) :
    String.utf8EncodeChar c = [c.toUInt8] := by
  apply String.utf8EncodeChar_eq_singleton
  rw [Char.utf8Size_eq_one_iff, UInt32.le_iff_toNat_le]
  exact Nat.le_of_lt_succ h

theorem utf8_cons_of_lt {c : Char} (h : c.toNat < 0x80) (cs : List Char) :
    utf8 (c :: cs) = c.toUInt8 :: utf8 cs := by
  rw [utf8_cons, utf8EncodeChar_of_lt h, List.singleton_append]

theorem continues_iff {x : UInt8} : continues x = true ↔ 0x80 ≤ x.toNat ∧ x.toNat < 0xC0 := by
  simp [continues, UInt8.le_iff_toNat_le, UInt8.lt_iff_toNat_lt]

/-- Beyond `0x7F` a character has several bytes, of which all but the first continue it. -/
theorem exists_utf8EncodeChar_of_le {c : Char} (h : 0x80 ≤ c.toNat) :
    ∃ first rest, String.utf8EncodeChar c = first :: rest ∧ 0xC0 ≤ first.toNat ∧
      ∀ x ∈ rest, continues x = true := by
  -- What a first and a later byte hold is in range, as the code is one of Unicode.
  have hmax : c.val.toNat < 0x110000 := by
    rcases c.valid with h | h <;> omega
  have hbyte : ∀ n, n < 0x100 → (UInt8.ofNat n).toNat = n := fun n hn => by
    rw [UInt8.toNat_ofNat', Nat.mod_eq_of_lt hn]
  have hlow : ∀ n, continues (UInt8.ofNat (n % 0x40 + 0x80)) = true := fun n => by
    rw [continues_iff, hbyte _ (by omega)]
    omega
  unfold String.utf8EncodeChar
  dsimp only
  rw [if_neg (show ¬ c.val.toNat ≤ 0x7F from Nat.not_le_of_lt h)]
  -- The encodings of two, three and four bytes.
  split
  · refine ⟨_, _, rfl, by rw [hbyte _ (by omega)]; omega, ?_⟩
    exact List.forall_mem_singleton.mpr (hlow _)
  split
  · refine ⟨_, _, rfl, by rw [hbyte _ (by omega)]; omega, ?_⟩
    exact List.forall_mem_cons.mpr ⟨hlow _, List.forall_mem_singleton.mpr (hlow _)⟩
  · refine ⟨_, _, rfl, by rw [hbyte _ (by omega)]; omega, ?_⟩
    exact List.forall_mem_cons.mpr ⟨hlow _, List.forall_mem_cons.mpr
      ⟨hlow _, List.forall_mem_singleton.mpr (hlow _)⟩⟩

theorem toNat_toUInt8 {c : Char} (h : c.toNat < 0x80) : c.toUInt8.toNat = c.toNat := by
  show c.val.toUInt8.toNat = c.val.toNat
  rw [UInt32.toNat_toUInt8]
  exact Nat.mod_eq_of_lt (Nat.lt_trans h (by decide))

theorem toUInt8_inj {c d : Char} (hc : c.toNat < 0x80) (hd : d.toNat < 0x80) :
    c.toUInt8 = d.toUInt8 ↔ c = d := by
  rw [← UInt8.toNat_inj, toNat_toUInt8 hc, toNat_toUInt8 hd, Char.toNat_inj]

/-- The first byte of a character does not continue one, and the others do. -/
theorem exists_utf8EncodeChar (c : Char) :
    ∃ first rest, String.utf8EncodeChar c = first :: rest ∧ continues first = false ∧
      ∀ x ∈ rest, continues x = true := by
  by_cases h : c.toNat < 0x80
  · refine ⟨c.toUInt8, [], utf8EncodeChar_of_lt h, ?_, by simp⟩
    rw [← Bool.not_eq_true, continues_iff, toNat_toUInt8 h]
    omega
  · obtain ⟨first, rest, hbytes, hfirst, hrest⟩ := exists_utf8EncodeChar_of_le (Nat.le_of_not_lt h)
    refine ⟨first, rest, hbytes, ?_, hrest⟩
    rw [← Bool.not_eq_true, continues_iff]
    omega

/-- A byte up to `0x7F` is a character by itself. -/
theorem eq_of_mem_utf8EncodeChar {c : Char} {x : UInt8} (hx : x ∈ String.utf8EncodeChar c)
    (hlow : x.toNat < 0x80) : c = Char.ofNat x.toNat := by
  by_cases h : c.toNat < 0x80
  -- A short character is its only byte, and a longer one has none that is this low.
  · rw [utf8EncodeChar_of_lt h, List.mem_singleton] at hx
    rw [hx, toNat_toUInt8 h, Char.ofNat_toNat]
  · obtain ⟨first, rest, hbytes, hfirst, hrest⟩ := exists_utf8EncodeChar_of_le (Nat.le_of_not_lt h)
    rw [hbytes] at hx
    rcases List.mem_cons.mp hx with rfl | hx
    · omega
    · have := continues_iff.mp (hrest x hx)
      omega

/-- Other characters do not have the byte of such a one. -/
theorem toUInt8_not_mem_utf8EncodeChar {c mark : Char} (hmark : mark.toNat < 0x80)
    (hne : c ≠ mark) : mark.toUInt8 ∉ String.utf8EncodeChar c := by
  intro hmem
  apply hne
  rw [eq_of_mem_utf8EncodeChar hmem (by rwa [toNat_toUInt8 hmark]), toNat_toUInt8 hmark,
    Char.ofNat_toNat]

/-- A byte that continues a character is none itself. -/
theorem ne_toUInt8_of_continues {x : UInt8} (hx : continues x = true) {mark : Char}
    (hmark : mark.toNat < 0x80) : x ≠ mark.toUInt8 := by
  rintro rfl
  have := continues_iff.mp hx
  rw [toNat_toUInt8 hmark] at this
  omega

/-- The first byte of a text tells whether it starts with a character up to `0x7F`. -/
theorem getElem?_utf8_zero_iff {mark : Char} (hmark : mark.toNat < 0x80) (cs : List Char) :
    (utf8 cs)[0]? = some mark.toUInt8 ↔ cs.head? = some mark := by
  cases cs with
  | nil => simp
  | cons c cs =>
    -- Another character begins with another byte, as it does not have this byte at all.
    by_cases hc : c = mark
    · simp [hc, utf8EncodeChar_of_lt hmark]
    · obtain ⟨first, rest, hbytes, -⟩ := exists_utf8EncodeChar c
      have hnot := toUInt8_not_mem_utf8EncodeChar hmark hc
      rw [hbytes, List.mem_cons, not_or] at hnot
      simp [hbytes, Ne.symm hnot.1, hc]

/-- The first two bytes tell the same of two such characters. -/
theorem getElem?_utf8_pair_iff {mark second : Char} (hmark : mark.toNat < 0x80)
    (hsecond : second.toNat < 0x80) (cs : List Char) :
    (utf8 cs)[0]? = some mark.toUInt8 ∧ (utf8 cs)[1]? = some second.toUInt8 ↔
      ∃ rest, cs = mark :: second :: rest := by
  rw [getElem?_utf8_zero_iff hmark]
  cases cs with
  | nil => simp
  | cons c cs =>
    rw [List.head?_cons, Option.some.injEq]
    constructor
    -- The first byte is the whole of the first character, so the second one begins the rest.
    · rintro ⟨rfl, hnext⟩
      rw [utf8_cons_of_lt hmark, List.getElem?_cons_succ, getElem?_utf8_zero_iff hsecond,
        List.head?_eq_some_iff] at hnext
      obtain ⟨rest, rfl⟩ := hnext
      exact ⟨rest, rfl⟩
    · rintro ⟨rest, heq⟩
      obtain ⟨rfl, rfl⟩ := List.cons.inj heq
      rw [utf8_cons_of_lt hmark, utf8_cons_of_lt hsecond]
      exact ⟨rfl, rfl⟩

/-- A byte of a character that is no word character is none either. -/
theorem not_isWordChar_of_mem_utf8EncodeChar {c : Char} {x : UInt8}
    (hx : x ∈ String.utf8EncodeChar c) (hc : isWordChar c = false) :
    isWordChar (Char.ofNat x.toNat) = false := by
  -- Up to `0x7F` the byte is the character, and beyond there are no word characters.
  by_cases hlow : x.toNat < 0x80
  · rw [← eq_of_mem_utf8EncodeChar hx hlow, hc]
  · rw [← Bool.not_eq_true]
    intro hword
    have hvalid : x.toNat.isValidChar := .inl (Nat.lt_trans x.toNat_lt (by decide))
    have hsame : (Char.ofNat x.toNat).toNat = x.toNat := by
      rw [Char.ofNat, dif_pos hvalid]
      rfl
    have := (toNat_of_isWordChar hword).2
    omega

/-! ## §2 Boundaries -/

/-- What stands behind other bytes. -/
theorem getElem?_behind (front bytes : List UInt8) (i : Nat) :
    (front ++ bytes)[front.length + i]? = bytes[i]? := by
  rw [List.getElem?_append_right (Nat.le_add_right _ _), Nat.add_sub_cancel_left]

/-- Whether a position is a boundary does not depend on the bytes in front of it. -/
theorem isBoundary_append (front bytes : List UInt8) (i : Nat) :
    isBoundary (front ++ bytes) (front.length + i) = isBoundary bytes i := by
  rw [isBoundary, isBoundary, getElem?_behind]
  cases bytes[i]? with
  | some x => rfl
  | none => simp

/-- Characters start at a boundary. -/
theorem isBoundary_utf8_zero (cs : List Char) : isBoundary (utf8 cs) 0 = true := by
  cases cs with
  | nil => rfl
  | cons c cs =>
    obtain ⟨first, rest, hbytes, hfirst, -⟩ := exists_utf8EncodeChar c
    simp [isBoundary, hbytes, hfirst]

/-- Characters can be cut apart at the boundaries of their bytes and nowhere else. -/
theorem isBoundary_utf8_iff {cs : List Char} {i : Nat} :
    isBoundary (utf8 cs) i = true ↔
      ∃ before after, cs = before ++ after ∧ i = (utf8 before).length := by
  constructor
  · intro h
    -- By induction on the characters, from the front.
    induction cs generalizing i with
    | nil => exact ⟨[], [], rfl, by simpa [isBoundary] using h⟩
    | cons c cs ih =>
      obtain ⟨first, rest, hbytes, -, hrest⟩ := exists_utf8EncodeChar c
      rcases Nat.lt_or_ge i (String.utf8EncodeChar c).length with hi | hi
      · -- Inside the character there is no boundary.
        cases i with
        | zero => exact ⟨[], c :: cs, rfl, rfl⟩
        | succ i =>
          have hi : i < rest.length := by simpa [hbytes] using hi
          have hcontinues := hrest _ (List.getElem_mem hi)
          simp [isBoundary, hbytes, List.getElem?_append_left hi, List.getElem?_eq_getElem hi,
            hcontinues] at h
      -- Behind the character the position counts in the rest of the text.
      · obtain ⟨j, rfl⟩ := Nat.exists_eq_add_of_le hi
        rw [utf8_cons, isBoundary_append] at h
        obtain ⟨before, after, rfl, rfl⟩ := ih h
        exact ⟨c :: before, after, rfl, by simp⟩
  · rintro ⟨before, after, rfl, rfl⟩
    -- Behind whole characters the position is the start of the rest.
    rw [utf8_append, ← Nat.add_zero (utf8 before).length, isBoundary_append]
    exact isBoundary_utf8_zero after

/-- What is cut out between characters are the bytes of characters. -/
theorem slice?_utf8 (before middle after : List Char) :
    slice? (utf8 (before ++ (middle ++ after))) (utf8 before).length
      ((utf8 before).length + (utf8 middle).length) = some (utf8 middle) := by
  -- Both ends stand between characters, so the cut is allowed.
  have hstart : isBoundary (utf8 (before ++ (middle ++ after))) (utf8 before).length = true :=
    isBoundary_utf8_iff.mpr ⟨before, _, rfl, rfl⟩
  have hstop : isBoundary (utf8 (before ++ (middle ++ after)))
      ((utf8 before).length + (utf8 middle).length) = true :=
    isBoundary_utf8_iff.mpr ⟨before ++ middle, after, by simp, by simp⟩
  rw [slice?, hstart, hstop]
  simp

/-- The bytes from a boundary to the end. -/
theorem slice?_utf8_length (before after : List Char) :
    slice? (utf8 (before ++ after)) (utf8 before).length (utf8 (before ++ after)).length =
      some (utf8 after) := by
  have hslice := slice?_utf8 before after []
  rwa [List.append_nil, ← List.length_append, ← utf8_append] at hslice

/-- Where the same bytes stand in front, the same bytes are cut out behind them. -/
theorem slice?_append (front bytes : List UInt8) (i j : Nat) :
    slice? (front ++ bytes) (front.length + i) (front.length + j) = slice? bytes i j := by
  simp only [slice?, isBoundary_append, Nat.add_le_add_iff_left, Nat.add_sub_add_left,
    List.drop_append, List.drop_eq_nil_of_le (Nat.le_add_right front.length i), List.nil_append,
    Nat.add_sub_cancel_left]

theorem nextBoundary?_append (front bytes : List UInt8) (i : Nat) :
    nextBoundary? (front ++ bytes) (front.length + i) =
      (nextBoundary? bytes i).map (front.length + ·) := by
  fun_induction nextBoundary? bytes i with
  | case1 i h => rw [nextBoundary?, isBoundary_append, if_pos h]; rfl
  | case2 i h hi ih =>
    rw [nextBoundary?, isBoundary_append, if_neg h, if_pos (by simpa using hi), ← ih]
    rfl
  | case3 i h hi => rw [nextBoundary?, isBoundary_append, if_neg h, if_neg (by simpa using hi)]; rfl

/-- Bytes that continue a character are passed over. -/
theorem nextBoundary?_continued {rest bytes : List UInt8} (h : ∀ x ∈ rest, continues x = true)
    (hbytes : isBoundary bytes 0 = true) :
    nextBoundary? (rest ++ bytes) 0 = some rest.length := by
  -- By induction on the continuing bytes; the position moves on by one byte.
  induction rest with
  | nil =>
    rw [nextBoundary?, List.nil_append, if_pos hbytes]
    rfl
  | cons x rest ih =>
    have hx : isBoundary (x :: rest ++ bytes) 0 = false := by
      simp [isBoundary, h x List.mem_cons_self]
    rw [nextBoundary?, hx, if_neg (by decide), if_pos (by simp)]
    have hshift := nextBoundary?_append [x] (rest ++ bytes) 0
    rw [ih fun y hy => h y (List.mem_cons_of_mem x hy)] at hshift
    simpa [Nat.add_comm] using hshift

/-- The boundary next to the first byte of a character is behind the character. -/
theorem nextBoundary?_utf8 (c : Char) (cs : List Char) :
    nextBoundary? (utf8 (c :: cs)) 1 = some (String.utf8EncodeChar c).length := by
  obtain ⟨first, rest, hbytes, -, hrest⟩ := exists_utf8EncodeChar c
  have hshift := nextBoundary?_append [first] (rest ++ utf8 cs) 0
  rw [nextBoundary?_continued hrest (isBoundary_utf8_zero cs)] at hshift
  simpa [hbytes, Nat.add_comm] using hshift

/-! ## §3 Marks -/

/-- A mark of characters up to `0x7F` starts the bytes of a text exactly if it starts the text. -/
theorem prefix_utf8_iff {mark : List Char} (hmark : ∀ c ∈ mark, c.toNat < 0x80) {cs : List Char} :
    mark.map Char.toUInt8 <+: utf8 cs ↔ mark <+: cs := by
  -- By induction on the mark, a character of the text for each of its characters.
  induction mark generalizing cs with
  | nil => simp
  | cons m mark ih =>
    have hm := hmark m List.mem_cons_self
    cases cs with
    | nil => simp
    | cons c cs =>
      by_cases hc : c = m
      · subst hc
        rw [utf8_cons, utf8EncodeChar_of_lt hm, List.map_cons, List.singleton_append,
          List.prefix_cons_inj, List.prefix_cons_inj,
          ih fun x hx => hmark x (List.mem_cons_of_mem c hx)]
      · -- The first byte of another character is another one.
        obtain ⟨first, rest, hbytes, -⟩ := exists_utf8EncodeChar c
        have hnot := toUInt8_not_mem_utf8EncodeChar hm hc
        rw [hbytes, List.mem_cons, not_or] at hnot
        simp [hbytes, List.cons_prefix_cons, hnot.1, Ne.symm hc]

theorem find?_continued {m : Char} {mark : List UInt8} (hm : m.toNat < 0x80)
    {rest : List UInt8} (h : ∀ x ∈ rest, continues x = true) (bytes : List UInt8) :
    find? (m.toUInt8 :: mark) (rest ++ bytes) =
      (find? (m.toUInt8 :: mark) bytes).map (rest.length + ·) := by
  -- The mark begins with a byte that continues nothing, so it is not found before the next
  -- character.
  induction rest with
  | nil => simp
  | cons x rest ih =>
    have hx := ne_toUInt8_of_continues (h x List.mem_cons_self) hm
    rw [List.cons_append, find?, if_neg (by simp [List.isPrefixOf, hx.symm]),
      ih fun y hy => h y (List.mem_cons_of_mem x hy), Option.map_map]
    congr 1
    funext n
    simp [Nat.add_right_comm]

/-- A mark of characters up to `0x7F` is found where it is found in the text. -/
theorem find?_utf8 (m : Char) (mark : List Char) (hmark : ∀ c ∈ m :: mark, c.toNat < 0x80)
    (cs : List Char) :
    find? ((m :: mark).map Char.toUInt8) (utf8 cs) =
      (cut? (m :: mark) cs).map fun p => (utf8 p.1).length := by
  have hm := hmark m List.mem_cons_self
  induction cs with
  | nil => rfl
  | cons c cs ih =>
    -- The mark stands at the first byte exactly if it stands at the first character.
    obtain ⟨first, rest, hbytes, -, hrest⟩ := exists_utf8EncodeChar c
    have hprefix : (((m :: mark).map Char.toUInt8).isPrefixOf (first :: (rest ++ utf8 cs))) =
        (m :: mark).isPrefixOf (c :: cs) := by
      have hiff : (m :: mark).map Char.toUInt8 <+: utf8 (c :: cs) ↔ m :: mark <+: c :: cs :=
        prefix_utf8_iff hmark
      rw [utf8_cons, hbytes] at hiff
      rw [Bool.eq_iff_iff, List.isPrefixOf_iff_prefix, List.isPrefixOf_iff_prefix, ← hiff]
      rfl
    rw [utf8_cons, hbytes, List.cons_append, find?, hprefix, cut?]
    split
    · rfl
    -- Otherwise the rest of the character is passed over before the search goes on.
    · rw [List.map_cons, find?_continued hm hrest, ← List.map_cons, ih]
      simp [Option.map_map, Function.comp_def, hbytes, Nat.add_right_comm, Nat.add_assoc]

/-- What is in front of the first occurrence of a character, or else everything. -/
theorem cut?_singleton (mark : Char) (cs : List Char) :
    ((cut? [mark] cs).map Prod.fst).getD cs = cs.takeWhile (· != mark) := by
  induction cs with
  | nil => rfl
  | cons c cs ih =>
    by_cases hc : mark = c
    · simp [cut?, List.isPrefixOf, hc]
    · rw [cut?, if_neg (by simp [List.isPrefixOf, hc]),
        List.takeWhile_cons_of_pos (by simpa using Ne.symm hc), ← ih]
      cases cut? [mark] cs <;> rfl

end SqlService.Text
