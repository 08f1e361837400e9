import SqlService.Provider.ColumnType

/-!
# Type names

Columns may spell one type in different ways: in capitals, or by the catalogue type alone.  What
is written for such columns goes by the effective name of the type, but for its length: the common
form has a length only if the data type is spelled like the effective name.

Main statement: `Dialect.columnType_eq_iff`.
-/

namespace SqlService

namespace Column

variable {a b c : Column}

/-! ## §1 The common form -/

/-- Whether a type has a length goes by the data type alone, which has to be in lower case. -/
theorem isSized_iff :
    c.isSized = true ↔ c.effectiveType ∈ sizedTypes ∧ c.dataType = c.effectiveType := by
  have hlower : ∀ type ∈ sizedTypes, Text.lower type = type ∧ type ≠ "" := by decide +kernel
  rw [isSized, List.contains_iff_mem]
  constructor
  · intro h
    -- A data type that has a length is itself the effective name.
    obtain ⟨hcase, hne⟩ := hlower c.dataType h
    have htype : c.effectiveType = c.dataType := by rw [effectiveType, if_neg hne, hcase]
    exact ⟨htype ▸ h, htype.symm⟩
  · rintro ⟨h, htype⟩
    exact htype ▸ h

theorem isSized_congr (htype : a.effectiveType = b.effectiveType)
    (hspelled : a.effectiveType ∈ sizedTypes →
      (a.dataType = a.effectiveType ↔ b.dataType = b.effectiveType)) :
    a.isSized = b.isSized := by
  rw [Bool.eq_iff_iff, isSized_iff, isSized_iff, ← htype]
  exact and_congr_right fun h => htype ▸ hspelled h

/-- Of a type with a length the data type decides whether it is written. -/
theorem widened_of_sized (h : c.effectiveType ∈ sizedTypes) (hlength : c.length ≠ 0) :
    c.widened = if c.dataType = c.effectiveType then
      withLength (Text.upper c.effectiveType) c.length else Text.upper c.effectiveType := by
  have hspelled : c.isSized = decide (c.dataType = c.effectiveType) := by
    rw [Bool.eq_iff_iff, isSized_iff, decide_eq_true_iff]
    exact and_iff_right h
  unfold widened
  split
  case h_7 => simp [hspelled, hlength]
  -- No integer has a length.
  all_goals next htype => rw [htype] at h; exact absurd h (by decide)

theorem widened_congr (htype : a.effectiveType = b.effectiveType) (hlength : a.length = b.length)
    (hspelled : a.length ≠ 0 → a.effectiveType ∈ sizedTypes →
      (a.dataType = a.effectiveType ↔ b.dataType = b.effectiveType)) :
    a.widened = b.widened := by
  have hsized : (a.isSized && b.length != 0) = (b.isSized && b.length != 0) := by
    by_cases h : b.length = 0
    · simp [h]
    · rw [isSized_congr htype (hspelled (hlength ▸ h))]
  unfold widened
  simp only [htype, hlength, hsized]

theorem withLength_ne (type : String) (length : UInt32) : withLength type length ≠ type := by
  intro h
  have hcount := congrArg String.length h
  have hclose : ")".length = 1 := rfl
  simp only [withLength, String.length_append] at hcount
  omega

/-- A type is either written with a length or without. -/
theorem ite_withLength_eq_iff {type : String} {length : UInt32} {p q : Prop} [Decidable p]
    [Decidable q] :
    (if p then withLength type length else type) = (if q then withLength type length else type) ↔
      (p ↔ q) := by
  by_cases hp : p <;> by_cases hq : q <;>
    simp [hp, hq, withLength_ne, (withLength_ne type length).symm]

/-! ## §2 The spelling of PostgreSQL -/

theorem postgresType_congr (htype : a.effectiveType = b.effectiveType)
    (hlength : a.length = b.length) (hfills : a.autoIncrement = b.autoIncrement) :
    a.postgresType = b.postgresType := by
  have hfamily : ∀ family ∈ postgresFamilies, family.2 a = family.2 b := by
    simp [postgresFamilies, sizedName, hlength, hfills]
  unfold postgresType
  rw [htype]
  split
  · next family h => exact hfamily family (List.mem_of_find?_eq_some h)
  · rfl

end Column

/-! ## §3 Dialects -/

namespace Dialect

/-- Whether the type of the column has a length that the dialect would write in the common form. -/
def takesLength (d : Dialect) (c : Column) : Bool :=
  c.length != 0 && Column.sizedTypes.contains c.effectiveType &&
    match d with
    | mysql => true
    | postgres => false
    -- A column that the database fills is always `INTEGER`.
    | sqlite => !c.autoIncrement

variable {a b : Column} (d : Dialect)

/-- The length is written with a data type in lower case and left out with any other. -/
theorem columnType_of_takesLength (h : d.takesLength a = true) :
    d.columnType a = if a.dataType = a.effectiveType then
      Column.withLength (Text.upper a.effectiveType) a.length else Text.upper a.effectiveType := by
  simp only [takesLength, Bool.and_eq_true, bne_iff_ne, List.contains_iff_mem] at h
  obtain ⟨⟨hlength, hsized⟩, hdialect⟩ := h
  have hcommon : d.columnType a = a.widened := by
    cases d with
    | mysql => rfl
    | postgres => cases hdialect
    | sqlite => exact if_neg (by simpa using hdialect)
  rw [hcommon, Column.widened_of_sized hsized hlength]

/-- Columns with the same effective type name and length, both filled by the database or neither,
are written with the same type, unless a length is to be written in the common form: then it is
written for those whose data type is in lower case, and left out for the others. -/
theorem columnType_eq_iff (htype : a.effectiveType = b.effectiveType)
    (hlength : a.length = b.length) (hfills : a.autoIncrement = b.autoIncrement) :
    (d.columnType a = d.columnType b ↔
      (d.takesLength a = true →
        (a.dataType = a.effectiveType ↔ b.dataType = b.effectiveType))) ∧
    (d.takesLength a = true →
      d.columnType a = if a.dataType = a.effectiveType then
        Column.withLength (Text.upper a.effectiveType) a.length
        else Text.upper a.effectiveType) := by
  refine ⟨⟨fun heq htakes => ?_, fun hspelled => ?_⟩, d.columnType_of_takesLength⟩
  · -- The other column would have its length written too, so both texts are known.
    have htakesb : d.takesLength b = true := by
      rw [← htakes]
      simp only [takesLength, htype, hlength, hfills]
    rw [d.columnType_of_takesLength htakes, d.columnType_of_takesLength htakesb, htype,
      hlength] at heq
    rw [htype]
    exact Column.ite_withLength_eq_iff.mp heq
  -- Without a length to write each dialect looks at the effective type only.
  · cases d with
    | mysql =>
      exact Column.widened_congr htype hlength fun hne hmem =>
        hspelled (by simp [takesLength, hne, hmem])
    | postgres => exact Column.postgresType_congr htype hlength hfills
    | sqlite =>
      cases hfilled : a.autoIncrement with
      | true => simp [columnType, hfilled, ← hfills]
      | false =>
        have hcommon : a.widened = b.widened :=
          Column.widened_congr htype hlength fun hne hmem =>
            hspelled (by simp [takesLength, hne, hmem, hfilled])
        simp [columnType, hfilled, ← hfills, hcommon]

/-- A code of eight characters, with its type in lower case. -/
def code : Column := { name := "code", dataType := "varchar", length := 8 }

/-- The same with its type in capitals. -/
def capitalCode : Column := { code with dataType := "VARCHAR" }

/-- The same with the catalogue type alone. -/
def catalogueCode : Column := { code with dataType := "", columnType := "varchar" }

/-- Capitals and the catalogue type make no difference to each other, and none in PostgreSQL to
lower case; in MySQL lower case is different. -/
theorem code_types_agree :
    (capitalCode.effectiveType = catalogueCode.effectiveType ∧
      code.effectiveType = catalogueCode.effectiveType) ∧
    (∀ d : Dialect, d.columnType capitalCode = d.columnType catalogueCode) ∧
    postgres.columnType code = postgres.columnType catalogueCode ∧
    mysql.columnType code ≠ mysql.columnType catalogueCode := by
  -- All three columns have the same effective type.
  have hcode : code.effectiveType = "varchar" := by decide +kernel
  have hcapital : capitalCode.effectiveType = "varchar" := by decide +kernel
  have hcatalogue : catalogueCode.effectiveType = "varchar" := by decide +kernel
  have htype : code.effectiveType = catalogueCode.effectiveType := hcode.trans hcatalogue.symm
  refine ⟨⟨hcapital.trans hcatalogue.symm, htype⟩, fun d => ?_, ?_, ?_⟩
  · refine (columnType_eq_iff d (hcapital.trans hcatalogue.symm) rfl rfl).1.mpr fun _ => ?_
    rw [hcapital, hcatalogue]
    decide
  · exact (columnType_eq_iff postgres htype rfl rfl).1.mpr fun h => by simp [takesLength] at h
  · intro heq
    have hspelled := (columnType_eq_iff mysql htype rfl rfl).1.mp heq (by decide +kernel)
    rw [hcode, hcatalogue] at hspelled
    exact absurd (hspelled.mp rfl) (by decide)

/-- In MySQL the code keeps its length in lower case and loses it in capitals. -/
theorem code_length_lost :
    (code.effectiveType = "varchar" ∧ capitalCode.effectiveType = "varchar" ∧
      code.length = capitalCode.length ∧ code.autoIncrement = capitalCode.autoIncrement) ∧
    mysql.columnType code = "VARCHAR(8)" ∧ mysql.columnType capitalCode = "VARCHAR" := by
  decide +kernel

end Dialect

end SqlService
