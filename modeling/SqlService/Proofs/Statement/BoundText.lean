import SqlService.Proofs.Filter.Parameters
import SqlService.Proofs.Statement.Positions
import SqlService.Proofs.Statement.Quoted

/-!
# Bound texts

What becomes of a composed statement when it is bound is read off its parts.  `Binds` says what is
written for a text wherever it stands in front of a character that continues nothing, and which
names have values after it.  Parameters that are written one after another take the next numbers,
each name the number of its value.

Main statements: `Binds.listed` and `getElem?_places`.
-/

namespace SqlService.Statement

/-! ## §1 Copied texts -/

/-- In front of what may follow it, the text is cut into pieces that are no names. -/
def Copied (backslash : Bool) (follows : List Char → Prop) (cs : List Char) : Prop :=
  ∀ rest, follows rest → ∃ texts : List (List Char),
    pieces backslash (cs ++ rest) = texts.map .plain ++ pieces backslash rest ∧
      texts.flatten = cs

namespace Copied

variable {backslash : Bool} {follows : List Char → Prop} {cs ds : List Char}

/-- Text that starts nothing is copied, whatever follows. -/
theorem inert (h : ∀ c ∈ cs, inert c = true) : Copied backslash follows cs := by
  intro rest _
  refine ⟨cs.map fun c => [c], ?_, List.flatMap_singleton' cs⟩
  induction cs with
  | nil => rfl
  | cons c cs ih =>
    have htail := ih fun e he => h e (List.mem_cons_of_mem _ he)
    rw [List.cons_append, pieces, next_inert (h c List.mem_cons_self), htail]
    rfl

/-- Copied texts one after another, if the second one may follow the first. -/
theorem append {before : List Char → Prop} (h : Copied backslash before cs)
    (hds : Copied backslash follows ds) (hbefore : ∀ rest, follows rest → before (ds ++ rest)) :
    Copied backslash follows (cs ++ ds) := by
  intro rest hrest
  obtain ⟨texts, hpieces, htexts⟩ := h (ds ++ rest) (hbefore rest hrest)
  obtain ⟨more, hmore, hflatten⟩ := hds rest hrest
  refine ⟨texts ++ more, ?_, by rw [List.flatten_append, htexts, hflatten]⟩
  rw [List.append_assoc, hpieces, hmore, List.map_append, List.append_assoc]

/-- Text that is copied whatever follows may be put in front. -/
theorem behind (h : Copied backslash follows cs) (hds : Copied backslash (fun _ => True) ds) :
    Copied backslash follows (ds ++ cs) :=
  hds.append h fun _ _ => trivial

/-- Behind inert text that starts at a seam, anything may follow. -/
theorem closed (h : Copied backslash Seam cs) (hhead : ds.head?.any neutral = true)
    (hds : ∀ c ∈ ds, Statement.inert c = true) : Copied backslash follows (cs ++ ds) :=
  h.append (.inert hds) fun rest _ => seam_append hhead rest

/-- An identifier is copied in the way in which the dialect quotes it. -/
theorem quote (d : Dialect) {name : String} (hname : Text.isWord name = true) :
    Copied backslash Seam (d.quote name).toList := by
  have hchars : ∀ c ∈ name.toList, Text.isWordChar c = true := List.all_eq_true.mp hname
  -- Between grave accents the name is dead, and bare it is a word like any other.
  have haccents : Copied backslash Seam ("\x60" ++ name ++ "\x60").toList := by
    intro rest hrest
    have hplain : ∀ c ∈ name.toList, c ≠ '\x60' ∧ escapes false c = false := by
      refine fun c hc => ⟨?_, rfl⟩
      rintro rfl
      exact absurd (hchars _ hc) (by decide)
    -- What stands behind the identifier is no third grave accent.
    have hhead : rest.head? ≠ some '\x60' := by
      rcases hrest with rfl | ⟨e, tail, rfl, he⟩
      · exact nofun
      · intro h
        exact (ne_of_neutral he).2.2.1 (Option.some.inj h)
    have hquoted : quoted false '\x60' (name.toList ++ '\x60' :: rest) =
        (name.toList ++ ['\x60'], rest) := quoted_plain rfl hplain hhead
    refine ⟨[("\x60" ++ name ++ "\x60").toList], ?_, by simp⟩
    rw [show ("\x60" ++ name ++ "\x60").toList ++ rest =
      '\x60' :: (name.toList ++ '\x60' :: rest) by simp, pieces, next, region, hquoted]
    simp
  cases d with
  | mysql => exact haccents
  | postgres => exact .inert fun c hc => inert_of_isWordChar (hchars c hc)
  | sqlite => exact haccents

/-- An identifier between keywords is copied, whatever follows. -/
theorem naming (d : Dialect) {name before after : String} (hname : Text.isWord name = true)
    (hbefore : ∀ c ∈ before.toList, Statement.inert c = true)
    (hhead : after.toList.head?.any neutral = true)
    (hafter : ∀ c ∈ after.toList, Statement.inert c = true) :
    Copied backslash follows (before ++ d.quote name ++ after).toList := by
  have hquote : Copied backslash Seam (before.toList ++ (d.quote name).toList) :=
    (quote d hname).behind (.inert hbefore)
  rw [String.toList_append, String.toList_append]
  exact hquote.closed hhead hafter

/-- Quoted names are copied with what joins them. -/
theorem quotes (d : Dialect) {names : List String} {joiner : String}
    (hnames : ∀ n ∈ names, Text.isWord n = true) (hhead : joiner.toList.head?.any neutral = true)
    (hjoiner : ∀ c ∈ joiner.toList, Statement.inert c = true) :
    Copied backslash Seam (String.intercalate joiner (names.map d.quote)).toList := by
  induction names with
  | nil =>
    rw [List.map_nil, String.intercalate_nil]
    exact .inert (by simp)
  | cons n names ih =>
    -- Each name is followed by the joiner, or by the end, where only a seam is asked for.
    have hfirst : Copied backslash Seam (d.quote n).toList := quote d (hnames n List.mem_cons_self)
    have hrest := ih fun m hm => hnames m (List.mem_cons_of_mem _ hm)
    cases names with
    | nil => simpa using hfirst
    | cons m names =>
      have hclosed : Copied backslash (fun _ => True) ((d.quote n).toList ++ joiner.toList) :=
        hfirst.closed hhead hjoiner
      rw [List.map_cons, List.map_cons, String.intercalate_cons_cons, String.toList_append,
        String.toList_append]
      exact hrest.behind hclosed

end Copied

/-- Text that is copied whatever follows it mentions nothing. -/
theorem Mentions.behind {backslash : Bool} {cs ds : List Char} {names : List String}
    (hds : Copied backslash (fun _ => True) ds) (h : Mentions backslash cs names) :
    Mentions backslash (ds ++ cs) names := by
  intro rest hrest
  obtain ⟨texts, hpieces, -⟩ := hds (cs ++ rest) trivial
  have hnone : (texts.map Piece.plain).filterMap Piece.name? = [] := by
    simp [List.filterMap_map, Piece.name?]
  rw [← h rest hrest, liveNames, List.append_assoc, hpieces, List.filterMap_append, hnone]
  rfl

/-! ## §2 Parts of a statement -/

/-- The text with positional parameters and the names that have values after it, where `bound` are
those that have one before. -/
def bindText (d : Dialect) (params : Record) (cs : List Char) (bound : List String) :
    List Char × List String :=
  bindPieces d params (pieces d.backslashEscapes cs) bound

/-- In front of any seam, `out` is written for the text and the names `after` have values behind it,
where `bound` are those that have one before. -/
def Binds (d : Dialect) (params : Record) (bound : List String) (cs out : List Char)
    (after : List String) : Prop :=
  ∀ rest, Seam rest → bindText d params (cs ++ rest) bound =
    (out ++ (bindText d params rest after).1, (bindText d params rest after).2)

variable {d : Dialect} {params : Record}

/-- Nothing is written for nothing. -/
theorem bindText_nil (bound : List String) : bindText d params [] bound = ([], bound) := by
  simp [bindText, pieces, bindPieces]

/-- Copied text is written as it stands and binds nothing. -/
theorem bindText_copied {follows : List Char → Prop} {cs rest : List Char}
    (h : Copied d.backslashEscapes follows cs) (hrest : follows rest) (bound : List String) :
    bindText d params (cs ++ rest) bound =
      (cs ++ (bindText d params rest bound).1, (bindText d params rest bound).2) := by
  obtain ⟨texts, hpieces, rfl⟩ := h rest hrest
  rw [bindText, hpieces]
  clear h hpieces
  -- By induction on the pieces, none of which is a name.
  induction texts with
  | nil => rfl
  | cons text texts ih =>
    rw [List.map_cons, List.cons_append, bindPieces, ih, List.flatten_cons, List.append_assoc]
    rfl

namespace Binds

variable {bound after : List String} {cs out : List Char}

/-- Copied text binds nothing. -/
theorem copied (h : Copied d.backslashEscapes Seam cs) (bound : List String) :
    Binds d params bound cs cs bound :=
  fun _ hrest => bindText_copied h hrest bound

/-- Copied text in front is written as it stands. -/
theorem behind {ds : List Char} (hds : Copied d.backslashEscapes (fun _ => True) ds)
    (h : Binds d params bound cs out after) :
    Binds d params bound (ds ++ cs) (ds ++ out) after := by
  intro rest hrest
  rw [List.append_assoc, bindText_copied hds trivial, h rest hrest, List.append_assoc]

/-- Parts that meet at a seam are bound one after another, the second with what the first has bound.
-/
theorem append (h : Binds d params bound cs out after) {ds more : List Char}
    {last : List String} (hseam : Seam ds) (hds : Binds d params after ds more last) :
    Binds d params bound (cs ++ ds) (out ++ more) last := by
  intro rest hrest
  rw [List.append_assoc, h _ (hseam.append hrest), hds rest hrest, List.append_assoc]

/-- A parameter that has a value takes the next place. -/
theorem placeholder {name : String} (hname : Text.isWord name = true) (hne : name ≠ "")
    (hparams : params.contains name = true) (bound : List String) :
    Binds d params bound (d.placeholder name).toList
      (d.positional (place d.numbered bound name).1).toList (place d.numbered bound name).2 := by
  intro rest hrest
  obtain ⟨x, w, hw⟩ := List.exists_cons_of_ne_nil (mt String.toList_eq_nil_iff.mp hne)
  -- The word ends at the seam, so the whole of it is the name.
  have hchars : ∀ c ∈ x :: w, Text.isWordChar c = true := by
    rw [← hw]
    exact fun c hc => List.all_eq_true.mp hname c hc
  have htake : (x :: w).takeWhile Text.isWordChar = x :: w := List.takeWhile_eq_self_iff.mpr hchars
  have hword := word_swap (x :: w) hrest.not_word
  rw [show (word (x :: w)).1 = x :: w from htake] at hword
  have hstring : String.ofList (x :: w) = name := by rw [← hw, String.ofList_toList]
  rw [Dialect.placeholder, String.toList_append, hw]
  show bindPieces d params (pieces _ ('@' :: (x :: w ++ rest))) bound = _
  rw [pieces, next_name hword]
  simp only [bindPieces, hstring, hparams, if_true]
  rfl

/-- What a statement is bound to when all of it is known. -/
theorem bind_eq {sql : String} {names : List String}
    (h : Binds d params [] sql.toList out names) :
    bind d sql params =
      ⟨String.ofList out, (names.filterMap params.get?).map Scalar.ofJson⟩ := by
  -- Nothing stands behind the statement, and that is a seam.
  have hall := h [] (.inl rfl)
  rw [List.append_nil, bindText_nil, List.append_nil] at hall
  unfold bindText at hall
  rw [bind, hall]

end Binds

/-! ## §3 Parameters in a row -/

/-- The numbers that names with values have one after another, where `bound` have one before. -/
def places (numbered : Bool) : List String → List String → List Nat
  | [], _ => []
  | n :: ns, bound => (place numbered bound n).1 :: places numbered ns (place numbered bound n).2

/-- The names that have values after the given ones, where `bound` have one before. -/
def placed (numbered : Bool) (ns bound : List String) : List String :=
  ns.foldl (fun bound n => (place numbered bound n).2) bound

variable {numbered : Bool}

@[simp] theorem places_nil (bound : List String) : places numbered [] bound = [] := rfl

@[simp] theorem places_cons (n : String) (ns bound : List String) :
    places numbered (n :: ns) bound =
      (place numbered bound n).1 :: places numbered ns (place numbered bound n).2 := rfl

@[simp] theorem placed_nil (bound : List String) : placed numbered [] bound = bound := rfl

@[simp] theorem placed_cons (n : String) (ns bound : List String) :
    placed numbered (n :: ns) bound = placed numbered ns (place numbered bound n).2 := rfl

/-- Each name has one place. -/
theorem length_places (ns bound : List String) :
    (places numbered ns bound).length = ns.length := by
  induction ns generalizing bound with
  | nil => rfl
  | cons n ns ih => rw [places_cons, List.length_cons, ih, List.length_cons]

/-- Names of two lists are placed one after another. -/
theorem placed_append (ns more bound : List String) :
    placed numbered (ns ++ more) bound = placed numbered more (placed numbered ns bound) :=
  List.foldl_append

/-- So are their numbers. -/
theorem places_append (ns more bound : List String) :
    places numbered (ns ++ more) bound =
      places numbered ns bound ++ places numbered more (placed numbered ns bound) := by
  induction ns generalizing bound with
  | nil => rfl
  | cons n ns ih => rw [List.cons_append, places_cons, places_cons, ih]; rfl

/-- One more name leaves the places of those before. -/
theorem prefix_place (numbered : Bool) (bound : List String) (n : String) :
    bound <+: (place numbered bound n).2 := by
  unfold place
  split
  · exact List.prefix_rfl
  · exact List.prefix_append bound [n]

/-- More names leave the places of those before. -/
theorem prefix_placed (numbered : Bool) (ns bound : List String) :
    bound <+: placed numbered ns bound := by
  induction ns generalizing bound with
  | nil => exact List.prefix_rfl
  | cons n ns ih => exact (prefix_place numbered bound n).trans (ih _)

/-- Names that have values come from the list or had them before. -/
theorem mem_placed {ns bound : List String} {n : String} (h : n ∈ placed numbered ns bound) :
    n ∈ ns ∨ n ∈ bound := by
  induction ns generalizing bound with
  | nil => exact .inr h
  | cons m ns ih =>
    rw [placed_cons] at h
    rcases ih h with hmem | hmem
    · exact .inl (List.mem_cons_of_mem _ hmem)
    · exact (mem_place_iff.mp hmem).elim .inr fun heq => .inl (heq ▸ List.mem_cons_self)

/-- A name stands in its place. -/
theorem getElem?_place (numbered : Bool) (bound : List String) (n : String) :
    0 < (place numbered bound n).1 ∧
      (place numbered bound n).2[(place numbered bound n).1 - 1]? = some n := by
  unfold place
  split
  · next h =>
    have hmem : n ∈ bound := by simpa using (Bool.and_eq_true_iff.mp h).2
    exact ⟨Nat.succ_pos _, by rw [Nat.add_sub_cancel, List.getElem?_idxOf hmem]⟩
  · exact ⟨Nat.succ_pos _, by simp⟩

/-- Each name has the number of its place among all that have values. -/
theorem getElem?_places {ns bound : List String} {p : String × Nat}
    (h : p ∈ ns.zip (places numbered ns bound)) :
    0 < p.2 ∧ (placed numbered ns bound)[p.2 - 1]? = some p.1 := by
  induction ns generalizing bound with
  | nil => cases h
  | cons n ns ih =>
    rw [places_cons, List.zip_cons_cons, List.mem_cons] at h
    -- The name itself, or one that follows it.
    rcases h with rfl | h
    · obtain ⟨hpos, hplace⟩ := getElem?_place numbered bound n
      refine ⟨hpos, ?_⟩
      -- The names that follow are added behind.
      obtain ⟨more, hmore⟩ := prefix_placed numbered ns (place numbered bound n).2
      rw [placed_cons, ← hmore]
      exact List.getElem?_append_left (List.getElem?_eq_some_iff.mp hplace).1 ▸ hplace
    · exact ih h

/-- Names take the next numbers in order if they are new or parameters are not numbered. -/
theorem places_of_new {ns bound : List String}
    (h : numbered = true → ns.Nodup ∧ ∀ n ∈ ns, n ∉ bound) :
    places numbered ns bound = List.range' (bound.length + 1) ns.length ∧
      placed numbered ns bound = bound ++ ns := by
  -- By induction on the names, each new one going behind those that are bound.
  induction ns generalizing bound with
  | nil => exact ⟨rfl, (List.append_nil bound).symm⟩
  | cons n ns ih =>
    have hplace : place numbered bound n = (bound.length + 1, bound ++ [n]) := by
      unfold place
      split
      · next hknown =>
        obtain ⟨hnumbered, hmem⟩ := Bool.and_eq_true_iff.mp hknown
        exact absurd (by simpa using hmem) ((h hnumbered).2 n List.mem_cons_self)
      · rfl
    -- The names that follow are still new.
    have hstill : numbered = true → ns.Nodup ∧ ∀ m ∈ ns, m ∉ bound ++ [n] := by
      intro hnumbered
      obtain ⟨hnodup, hnew⟩ := h hnumbered
      obtain ⟨hn, hrest⟩ := List.nodup_cons.mp hnodup
      refine ⟨hrest, fun m hm hmem => ?_⟩
      rcases List.mem_append.mp hmem with hmem | hmem
      · exact hnew m (List.mem_cons_of_mem _ hm) hmem
      · exact hn (List.mem_singleton.mp hmem ▸ hm)
    obtain ⟨hplaces, hplaced⟩ := ih hstill
    rw [places_cons, placed_cons, hplace]
    constructor
    · rw [hplaces, List.length_append, List.length_singleton, List.length_cons, List.range'_succ]
    · rw [hplaced, List.append_assoc, List.singleton_append]

/-! ## §4 Lists of parameters -/

section Listed

variable {lead : String → String} {joiner : String} {ns : List String}

/-- A list of parameters, each behind a text of its own that is copied. -/
theorem Binds.listed (hlead : ∀ n ∈ ns, Copied d.backslashEscapes (fun _ => True) (lead n).toList)
    (hwords : ∀ n ∈ ns, Text.isWord n = true ∧ n ≠ "")
    (hparams : ∀ n ∈ ns, params.contains n = true)
    (hhead : joiner.toList.head?.any neutral = true)
    (hjoiner : ∀ c ∈ joiner.toList, inert c = true) (bound : List String) :
    Binds d params bound
      (String.intercalate joiner (ns.map fun n => lead n ++ d.placeholder n)).toList
      (String.intercalate joiner (List.zipWith (fun n i => lead n ++ d.positional i) ns
        (places d.numbered ns bound))).toList
      (placed d.numbered ns bound) := by
  induction ns generalizing bound with
  | nil => exact .copied (.inert (by simp)) bound
  | cons n ns ih =>
    -- A parameter is written behind its own text, and the joiner makes the seam to the next.
    have hn := hwords n List.mem_cons_self
    have hplaceholder : Binds d params bound (d.placeholder n).toList
        (d.positional (place d.numbered bound n).1).toList (place d.numbered bound n).2 :=
      .placeholder hn.1 hn.2 (hparams n List.mem_cons_self) bound
    have hfirst := hplaceholder.behind (hlead n List.mem_cons_self)
    have hrest := ih (fun m hm => hlead m (List.mem_cons_of_mem _ hm))
      (fun m hm => hwords m (List.mem_cons_of_mem _ hm))
      (fun m hm => hparams m (List.mem_cons_of_mem _ hm)) (place d.numbered bound n).2
    cases ns with
    | nil => simpa using hfirst
    | cons m ns =>
      simp only [List.map_cons, places_cons, List.zipWith_cons_cons, placed_cons,
        String.intercalate_cons_cons, String.toList_append, List.append_assoc] at hfirst hrest ⊢
      have hall := hfirst.append (seam_append hhead _) (hrest.behind (.inert hjoiner))
      simpa only [List.append_assoc] using hall

/-- A list of different parameters at the start takes the numbers from one on. -/
theorem Binds.parameters (hwords : ∀ n ∈ ns, Text.isWord n = true ∧ n ≠ "")
    (hparams : ∀ n ∈ ns, params.contains n = true) (hdistinct : ns.Nodup)
    (hhead : joiner.toList.head?.any neutral = true)
    (hjoiner : ∀ c ∈ joiner.toList, inert c = true) :
    Binds d params [] (String.intercalate joiner (ns.map d.placeholder)).toList
      (String.intercalate joiner ((List.range' 1 ns.length).map d.positional)).toList ns := by
  -- Here the parameters have no texts of their own.
  have hlead : ∀ n ∈ ns, Copied d.backslashEscapes (fun _ => True) "".toList :=
    fun _ _ => .inert (by simp)
  have hlist := Binds.listed hlead hwords hparams hhead hjoiner []
  obtain ⟨hplaces, hplaced⟩ : places d.numbered ns [] = List.range' 1 ns.length ∧
      placed d.numbered ns [] = ns :=
    places_of_new fun _ => ⟨hdistinct, fun _ _ => List.not_mem_nil⟩
  -- The names play no part in what is written, only their numbers do.
  have hnumbers : List.zipWith (fun _ i => d.positional i) ns (List.range' 1 ns.length) =
      (List.range' 1 ns.length).map d.positional := by
    have hsecond : (ns.zip (List.range' 1 ns.length)).map Prod.snd = List.range' 1 ns.length :=
      List.map_snd_zip List.length_range'.le
    rw [← List.map_uncurry_zip_eq_zipWith]
    exact (List.map_map (f := Prod.snd) (g := d.positional)).symm.trans (by rw [hsecond])
  simp only [String.empty_append, hplaces, hplaced, hnumbers] at hlist
  exact hlist

/-- Such a list mentions the names of its parameters. -/
theorem Mentions.listed {backslash : Bool}
    (hlead : ∀ n ∈ ns, Copied backslash (fun _ => True) (lead n).toList)
    (hwords : ∀ n ∈ ns, Text.isWord n = true ∧ n ≠ "")
    (hhead : joiner.toList.head?.any neutral = true)
    (hjoiner : ∀ c ∈ joiner.toList, Statement.inert c = true) :
    Mentions backslash
      (String.intercalate joiner (ns.map fun n => lead n ++ d.placeholder n)).toList ns := by
  refine .joined (fun n hn => ?_) hhead hjoiner
  obtain ⟨hword, hne⟩ := hwords n hn
  have hname : Mentions backslash (d.placeholder n).toList [n] :=
    .placeholder d (mt String.toList_eq_nil_iff.mp hne) (List.all_eq_true.mp hword)
  rw [String.toList_append]
  exact hname.behind (hlead n hn)

/-- The same without texts of their own. -/
theorem Mentions.parameters {backslash : Bool} (hwords : ∀ n ∈ ns, Text.isWord n = true ∧ n ≠ "")
    (hhead : joiner.toList.head?.any neutral = true)
    (hjoiner : ∀ c ∈ joiner.toList, Statement.inert c = true) :
    Mentions backslash (String.intercalate joiner (ns.map d.placeholder)).toList ns := by
  refine .joined (fun n hn => ?_) hhead hjoiner
  obtain ⟨hword, hne⟩ := hwords n hn
  exact .placeholder d (mt String.toList_eq_nil_iff.mp hne) (List.all_eq_true.mp hword)

end Listed

end SqlService.Statement
