import Mathlib.Data.List.Basic
import Mathlib.Data.List.Induction
import SqlService.Proofs.Statement.LiveNames
import SqlService.Proofs.Statement.Placeholders

/-!
# Positional parameters and their values

The slots of a statement are its occurrences of bound names from left to right.  Which value stands
for which slot is decided by the names that have values so far: where parameters are not numbered
every slot adds one, and where they are a slot adds one only for a new name.  What is bound once has
no slot left, so that binding it again changes nothing.

Main statements: `bind_numbers` and `bind_idempotent`.
-/

namespace SqlService.Statement

/-! ## §1 Slots and names -/

/-- The name of the parameter that is bound to a slot. -/
def Slot.key (s : Slot) : String := String.ofList s.name

/-- The slots are the occurrences of bound names in the statement, from left to right, and `last` is
the text behind them. -/
structure Occurrences (d : Dialect) (params : Record) (sql : String) (ss : List Slot)
    (last : List Char) : Prop where
  written : sql.toList = ss.flatMap Slot.written ++ last
  placed : (bind d sql params).sql.toList = ss.flatMap (Slot.placed d) ++ last
  live : ∀ before name, Opens ss before name ↔
    (∃ after, sql.toList = before ++ '@' :: (name ++ after) ∧
      Mode.text.Live d.backslashEscapes before name after) ∧
    params.contains (String.ofList name) = true

theorem place_known {bound : List String} {name : String} (h : name ∈ bound) :
    place true bound name = (bound.idxOf name + 1, bound) := by
  simp [place, h]

theorem place_new {bound : List String} {name : String} (h : name ∉ bound) :
    place true bound name = (bound.length + 1, bound ++ [name]) := by
  simp [place, h]

/-- The names that have values after those of the slots, where `bound` have one before. -/
def claimed (numbered : Bool) (bound : List String) (ss : List Slot) : List String :=
  ss.foldl (fun bound s => (place numbered bound s.key).2) bound

theorem claimed_append (numbered : Bool) (bound : List String) (ss ts : List Slot) :
    claimed numbered bound (ss ++ ts) = claimed numbered (claimed numbered bound ss) ts :=
  List.foldl_append

/-- Without numbers every slot has a value of its own. -/
theorem claimed_unnumbered (bound : List String) (ss : List Slot) :
    claimed false bound ss = bound ++ ss.map Slot.key := by
  induction ss generalizing bound with
  | nil => simp [claimed]
  | cons s ss ih =>
    have hplace : (place false bound s.key).2 = bound ++ [s.key] := rfl
    have htail := ih (bound ++ [s.key])
    rw [claimed] at htail
    rw [claimed, List.foldl_cons, hplace, htail, List.map_cons, List.append_assoc,
      List.singleton_append]

/-- With numbers every name has one value, in the order in which the names first appear. -/
theorem claimed_numbered (ss : List Slot) :
    claimed true [] ss = (ss.map Slot.key).eraseDups := by
  -- The induction is on the last slot, which is the one that is placed last.
  induction ss using List.reverseRecOn with
  | nil => rfl
  | append_singleton ss s ih =>
    have hlast : claimed true [] (ss ++ [s]) = (place true (claimed true [] ss) s.key).2 := by
      rw [claimed_append]
      rfl
    rw [hlast, ih, List.map_append, List.map_singleton, List.eraseDups_append]
    by_cases hs : s.key ∈ ss.map Slot.key
    · have hgone : [s.key].removeAll (ss.map Slot.key) = [] := by
        simpa [List.removeAll] using hs
      rw [place_known (List.mem_eraseDups.mpr hs), hgone, List.eraseDups_nil, List.append_nil]
    · have hkept : [s.key].removeAll (ss.map Slot.key) = [s.key] := by
        simpa [List.removeAll] using hs
      rw [place_new (mt List.mem_eraseDups.mp hs), hkept]
      rfl

variable (d : Dialect) (params : Record)

/-- Binding gives values to the names of the slots. -/
theorem bindPieces_claimed (ps : List Piece) (bound : List String) (gap : List Char) :
    (bindPieces d params ps bound).2 =
      claimed d.numbered bound (slots d params ps bound gap).1 := by
  fun_induction slots d params ps bound gap with
  | case1 => rfl
  | case2 text ps bound gap ih => simpa [bindPieces] using ih
  | case3 w ps bound gap hw slot r ih =>
    simp only [bindPieces, if_pos hw]
    exact ih
  | case4 w ps bound gap hw ih => simpa [bindPieces, hw] using ih

/-- A slot has the number that the slots in front of it leave for its name. -/
theorem number_slots (ps : List Piece) (bound : List String) (gap : List Char) :
    ∀ front s back, (slots d params ps bound gap).1 = front ++ s :: back →
      s.number = (place d.numbered (claimed d.numbered bound front) s.key).1 := by
  -- By the recursion of the slots, with what is bound so far as they have it.
  fun_induction slots d params ps bound gap with
  | case1 => simp
  | case2 text ps bound gap ih => exact ih
  | case3 w ps bound gap hw slot r ih =>
    intro front s back h
    cases front with
    | nil =>
      obtain ⟨rfl, -⟩ := List.cons.inj h
      rfl
    | cons t front =>
      obtain ⟨rfl, hrest⟩ := List.cons.inj h
      exact ih front s back hrest
  | case4 w ps bound gap hw ih => exact ih

/-! ## §2 Numbers and values -/

/-- The value that a parameter is bound to. -/
def valueOf (name : String) : Option Scalar := (params.get? name).map Scalar.ofJson

/-- The values of names that all have one. -/
theorem map_some_values {names : List String} (h : ∀ n ∈ names, params.contains n = true) :
    ((names.filterMap params.get?).map Scalar.ofJson).map some = names.map (valueOf params) := by
  -- Every name has a value, so none is left out.
  induction names with
  | nil => rfl
  | cons n names ih =>
    obtain ⟨hn, hrest⟩ := List.forall_mem_cons.mp h
    obtain ⟨v, hv⟩ := Option.isSome_iff_exists.mp hn
    have htail := ih hrest
    rw [List.filterMap_cons, hv, List.map_cons, List.map_cons, List.map_cons, htail]
    simp [valueOf, hv]

/-- Each slot has the number that the slots in front of it leave for its name. -/
def Numbered (ss : List Slot) : Prop :=
  ∀ front s back, ss = front ++ s :: back →
    s.number = (place true (claimed true [] front) s.key).1

namespace Numbered

variable {ss : List Slot} {s t : Slot}

/-- A name that appears for the first time has the next number. -/
theorem eq_length (h : Numbered ss) {front back : List Slot} (hss : ss = front ++ s :: back)
    (hnew : s.key ∉ front.map Slot.key) :
    s.number = (front.map Slot.key).eraseDups.length + 1 := by
  rw [h front s back hss, claimed_numbered, place_new (mt List.mem_eraseDups.mp hnew)]

/-- A number counts the distinct names up to the first appearance of the slot's own. -/
theorem eq_idxOf (h : Numbered ss) (hs : s ∈ ss) :
    s.number = (ss.map Slot.key).eraseDups.idxOf s.key + 1 := by
  obtain ⟨front, back, hss⟩ := List.append_of_mem hs
  -- The names up to the slot come first among the distinct ones.
  have hsplit : (ss.map Slot.key).eraseDups = ((front ++ [s]).map Slot.key).eraseDups ++
      ((back.map Slot.key).removeAll ((front ++ [s]).map Slot.key)).eraseDups := by
    rw [← List.eraseDups_append, ← List.map_append, hss, List.append_assoc, List.singleton_append]
  have hmem : s.key ∈ ((front ++ [s]).map Slot.key).eraseDups := by simp [List.mem_eraseDups]
  rw [hsplit, List.idxOf_append_of_mem hmem, ← claimed_numbered, claimed_append,
    h front s back hss]
  show (place true _ _).1 = (place true _ _).2.idxOf _ + 1
  -- A known name has its place, and a new one goes behind all others.
  by_cases hknown : s.key ∈ claimed true [] front
  · rw [place_known hknown]
  · rw [place_new hknown, List.idxOf_append_of_notMem hknown]
    simp

theorem inj (h : Numbered ss) (hs : s ∈ ss) (ht : t ∈ ss) :
    s.number = t.number ↔ s.key = t.key := by
  have hmem : s.key ∈ (ss.map Slot.key).eraseDups :=
    List.mem_eraseDups.mpr (List.mem_map_of_mem hs)
  rw [h.eq_idxOf hs, h.eq_idxOf ht, Nat.add_right_cancel_iff, List.idxOf_inj hmem]

/-- The value with the number of a slot is the one for the name of the slot. -/
theorem getElem?_values (h : Numbered ss) {values : List Scalar} {value : String → Option Scalar}
    (hvalues : values.map some = (ss.map Slot.key).eraseDups.map value) (hs : s ∈ ss) :
    values[s.number - 1]? = value s.key := by
  have hmem : s.key ∈ (ss.map Slot.key).eraseDups :=
    List.mem_eraseDups.mpr (List.mem_map_of_mem hs)
  -- The values stand in the order of the first appearances.
  have hat := congrArg (·[(ss.map Slot.key).eraseDups.idxOf s.key]?) hvalues
  simp only [List.getElem?_map, List.getElem?_idxOf hmem] at hat
  obtain ⟨v, hv, hvalue⟩ := Option.map_eq_some_iff.mp hat
  rw [h.eq_idxOf hs, Nat.add_sub_cancel]
  exact hv.trans hvalue

end Numbered

theorem occurrences_slots (sql : String) :
    Occurrences d params sql (slots d params (pieces d.backslashEscapes sql.toList) [] []).1
      (slots d params (pieces d.backslashEscapes sql.toList) [] []).2 where
  written := by rw [written_slots, text_pieces, List.nil_append]
  placed := by rw [placed_slots, List.nil_append, bind, String.toList_ofList]
  live := by
    intro before name
    have hborder : Mode.text.Border d.backslashEscapes sql.toList := fun _ _ _ => rfl
    rw [opens_slots_iff]
    simp [holds_pieces_iff hborder]

/-- The values of a statement are those of the names that its slots claim. -/
theorem map_some_bind (sql : String) :
    (bind d sql params).values.map some =
      (claimed d.numbered []
        (slots d params (pieces d.backslashEscapes sql.toList) [] []).1).map (valueOf params) := by
  have hcontains : ∀ n ∈ (bindPieces d params (pieces d.backslashEscapes sql.toList) []).2,
      params.contains n = true := by
    intro n hn
    rw [bindPieces_bound] at hn
    exact contains_of_mem_boundBy (fun _ h => absurd h List.not_mem_nil) hn
  rw [← bindPieces_claimed, ← map_some_values params hcontains]
  rfl

/-- The slots of a statement get values in their order: each one of its own, or, in PostgreSQL, each
name one, which all of its slots refer to by the same number. -/
theorem bind_numbers (sql : String) : ∃ (ss : List Slot) (last : List Char),
    Occurrences d params sql ss last ∧
    (d ≠ .postgres → (∀ s ∈ ss, d.positional s.number = "?") ∧
      (bind d sql params).values.map some = ss.map fun s => valueOf params s.key) ∧
    (d = .postgres → (∀ s ∈ ss, d.positional s.number = "$" ++ toString s.number) ∧
      (∀ s ∈ ss, ∀ t ∈ ss, d.positional s.number = d.positional t.number ↔ s.key = t.key) ∧
      (∀ front s back, ss = front ++ s :: back → s.key ∉ front.map Slot.key →
        s.number = (front.map Slot.key).eraseDups.length + 1) ∧
      (bind d sql params).values.length = (ss.map Slot.key).eraseDups.length ∧
      ∀ s ∈ ss, 0 < s.number ∧
        (bind d sql params).values[s.number - 1]? = valueOf params s.key) := by
  have hvalues := map_some_bind d params sql
  refine ⟨_, _, occurrences_slots d params sql, ?_⟩
  have hnumber : ∀ front s back,
      (slots d params (pieces d.backslashEscapes sql.toList) [] []).1 = front ++ s :: back →
      s.number = (place d.numbered (claimed d.numbered [] front) s.key).1 :=
    number_slots d params _ _ _
  generalize (slots d params (pieces d.backslashEscapes sql.toList) [] []).1 = ss at *
  -- Without numbers each slot has a value of its own; with them each name has one.
  refine ⟨fun hd => ?_, fun hd => ?_⟩
  · have hunnumbered : d.numbered = false := by cases d <;> first | rfl | exact absurd rfl hd
    refine ⟨fun s _ => by simp [Dialect.positional, hunnumbered], ?_⟩
    rw [hvalues, hunnumbered, claimed_unnumbered, List.nil_append, List.map_map]
    rfl
  · subst hd
    have hnumbered : Numbered ss := hnumber
    rw [show Dialect.numbered .postgres = true from rfl, claimed_numbered] at hvalues
    have hpositional : ∀ n, Dialect.positional .postgres n = "$" ++ toString n := fun _ => rfl
    refine ⟨fun s _ => hpositional _, fun s hs t ht => ?_, fun front s back hss =>
      hnumbered.eq_length hss, by simpa using congrArg List.length hvalues, fun s hs => ⟨?_,
      hnumbered.getElem?_values hvalues hs⟩⟩
    · rw [hpositional, hpositional, String.append_right_inj]
      calc toString s.number = toString t.number
          ↔ s.number = t.number := ⟨toString_injective, congrArg toString⟩
        _ ↔ s.key = t.key := hnumbered.inj hs ht
    · rw [hnumbered.eq_idxOf hs]
      exact Nat.succ_pos _

/-- A name keeps the number of its first appearance, and a name without a value has none. -/
example :
    (bind .postgres "@b = @a OR @b = @c" (Dictionary.ofList [("a", .null), ("b", .null)])).sql =
      "$1 = $2 OR $1 = @c" := by
  decide +kernel

/-! ## §3 Binding again -/

/-- Pieces none of whose names has a value are written as they stand. -/
theorem bindPieces_of_unbound {ps : List Piece}
    (h : ∀ n ∈ ps.filterMap Piece.name?, params.contains n = false) (bound : List String) :
    bindPieces d params ps bound = (ps.flatMap Piece.text, bound) := by
  induction ps with
  | nil => rfl
  | cons p ps ih =>
    cases p with
    | plain text =>
      rw [bindPieces, ih h]
      rfl
    | name w =>
      obtain ⟨hw, hrest⟩ := List.forall_mem_cons.mp h
      simp only [bindPieces, hw, Bool.false_eq_true, if_false, ih hrest]
      rfl

/-- What is left live in a bound statement has no value, so that binding it again with the same
parameters changes nothing and binds nothing. -/
theorem bind_idempotent (sql : String) :
    bind d (bind d sql params).sql params = ⟨(bind d sql params).sql, []⟩ := by
  have hunbound : ∀ n ∈ (pieces d.backslashEscapes
      (bind d sql params).sql.toList).filterMap Piece.name?, params.contains n = false := by
    intro n hn
    have hleft : n ∈ liveNames d.backslashEscapes (bind d sql params).sql.toList := hn
    rw [liveNames_bind] at hleft
    simpa using (List.mem_filter.mp hleft).2
  -- Now the text may be any in which no live name has a value.
  generalize (bind d sql params).sql = text at hunbound ⊢
  rw [bind, bindPieces_of_unbound d params hunbound, text_pieces, String.ofList_toList]
  rfl

end SqlService.Statement
