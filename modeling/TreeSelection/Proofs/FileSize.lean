import Mathlib.Algebra.Order.Field.Rat
import Mathlib.Tactic.Linarith
import Mathlib.Tactic.Ring
import TreeSelection.FileSize
import TreeSelection.Proofs.Text.Quoted

/-!
What is read in a shown size. It gives a number in a unit, and so a number of bytes; that is at
most half a tenth of the unit away from the size, and a greater size is never shown as less. The
unit is chosen before the number is rounded, so just below a unit the number reaches 1024.
-/

namespace TreeSelection.FileSize

def largeUnits : List (String × Nat) :=
  [("KB", Nat.pow 2 10), ("MB", Nat.pow 2 20), ("GB", Nat.pow 2 30), ("TB", Nat.pow 2 40)]

def decimal (whole tenth : Nat) : String := toString whole ++ "." ++ toString tenth

inductive Shows : String → ℚ → Nat → Prop
  | bytes (n : Nat) : Shows (toString n ++ " B") n 1
  | tenths (whole tenth : Nat) {name : String} {unit : Nat} (htenth : tenth < 10)
      (hunit : (name, unit) ∈ largeUnits) :
      Shows (decimal whole tenth ++ " " ++ name) (whole + tenth / 10) unit

theorem toString_injective : Function.Injective (toString : Nat → String) := by
  have hread : Function.LeftInverse (fun s : String => Nat.ofDigitChars 10 s.toList 0)
      (toString : Nat → String) := by
    intro n
    show Nat.ofDigitChars 10 (toString n).toList 0 = n
    rw [Nat.toString_eq_repr, Nat.toList_repr, Nat.ofDigitChars_ten_toDigits]
  exact hread.injective

theorem not_mem_toString {c : Char} (hc : c.isDigit = false) (n : Nat) :
    c ∉ (toString n).toList := by
  rw [Nat.toString_eq_repr, Nat.toList_repr]
  intro hmem
  have hdigit := Nat.isDigit_of_mem_toDigits (by decide) (by decide) hmem
  exact Bool.false_ne_true (hc.symm.trans hdigit)

theorem toList_decimal (whole tenth : Nat) :
    (decimal whole tenth).toList = (toString whole).toList ++ '.' :: (toString tenth).toList := by
  simp [decimal]

theorem decimal_inj {whole tenth whole' tenth' : Nat}
    (h : decimal whole tenth = decimal whole' tenth') : whole = whole' ∧ tenth = tenth' := by
  have hlist := congrArg String.toList h
  rw [toList_decimal, toList_decimal] at hlist
  obtain ⟨hwhole, htenth⟩ :=
    List.append_cons_inj (not_mem_toString rfl _) (not_mem_toString rfl _) hlist
  exact ⟨toString_injective (String.toList_inj.1 hwhole),
    toString_injective (String.toList_inj.1 htenth)⟩

theorem space_not_mem_decimal (whole tenth : Nat) : ' ' ∉ (decimal whole tenth).toList := by
  rw [toList_decimal, List.mem_append, List.mem_cons]
  simp only [not_or]
  exact ⟨not_mem_toString rfl _, by decide, not_mem_toString rfl _⟩

theorem append_space_inj {p q s t : String} (hp : ' ' ∉ p.toList) (hq : ' ' ∉ q.toList)
    (h : p ++ " " ++ s = q ++ " " ++ t) : p = q ∧ s = t := by
  have hlist := congrArg String.toList h
  simp only [String.toList_append, List.append_assoc] at hlist
  obtain ⟨hpq, hst⟩ := List.append_cons_inj hp hq hlist
  exact ⟨String.toList_inj.1 hpq, String.toList_inj.1 hst⟩

theorem snd_eq_of_mem_largeUnits : ∀ a ∈ largeUnits, ∀ b ∈ largeUnits, a.1 = b.1 → a.2 = b.2 := by
  decide

theorem fst_ne_of_mem_largeUnits : ∀ a ∈ largeUnits, a.1 ≠ "B" := by decide

theorem bytes_ne_decimal {n whole tenth : Nat} {a : String × Nat} (ha : a ∈ largeUnits) :
    toString n ++ " B" ≠ decimal whole tenth ++ " " ++ a.1 := by
  intro h
  have hbyte : toString n ++ " " ++ "B" = decimal whole tenth ++ " " ++ a.1 := by
    rw [String.append_assoc]
    exact h
  have hname := (append_space_inj (not_mem_toString rfl _) (space_not_mem_decimal _ _) hbyte).2
  exact fst_ne_of_mem_largeUnits a ha hname.symm

theorem Shows.unique {s : String} {x y : ℚ} {u v : Nat} (h : Shows s x u) (h' : Shows s y v) :
    x = y ∧ u = v := by
  cases h with
  | bytes n =>
    generalize hs : toString n ++ " B" = s at h'
    cases h' with
    | bytes m =>
      obtain rfl : n = m := toString_injective (by simpa using hs)
      exact ⟨rfl, rfl⟩
    | tenths whole tenth _ hunit => exact absurd hs (bytes_ne_decimal hunit)
  | @tenths whole tenth name _ _ hunit =>
    generalize hs : decimal whole tenth ++ " " ++ name = s at h'
    cases h' with
    | bytes m => exact absurd hs.symm (bytes_ne_decimal hunit)
    | tenths whole' tenth' _ hunit' =>
      obtain ⟨hnumber, rfl⟩ :=
        append_space_inj (space_not_mem_decimal _ _) (space_not_mem_decimal _ _) hs
      obtain ⟨rfl, rfl⟩ := decimal_inj hnumber
      exact ⟨rfl, snd_eq_of_mem_largeUnits _ hunit _ hunit' rfl⟩

structure Fits (size : Nat) (unit : Nat × String) : Prop where
  mem : (unit.2, unit.1) ∈ largeUnits
  le : unit.1 ≤ size
  lt : unit.1 ≠ Nat.pow 2 40 → size < 1024 * unit.1

theorem fits_unit {size : Nat} (h : 1024 ≤ size) : Fits size (unit size) := by
  simp only [unit, unitFrom]
  split_ifs with hkilo hmega hgiga
  · exact ⟨by decide, hgiga, fun hne => absurd rfl hne⟩
  · exact ⟨by decide, hmega, fun _ => Nat.not_le.1 hgiga⟩
  · exact ⟨by decide, hkilo, fun _ => Nat.not_le.1 hmega⟩
  · exact ⟨by decide, h, fun _ => Nat.not_le.1 hkilo⟩

theorem rounded_eq_self {size : Nat} (h : size ≤ Nat.pow 2 53) : rounded size = size := by
  rcases Nat.eq_or_lt_of_le h with rfl | hlt
  · decide
  · have hlog : size.log2 - 52 = 0 := by
      rcases Nat.eq_zero_or_pos size with rfl | hpos
      · rfl
      · have := (Nat.log2_lt (Nat.ne_of_gt hpos)).2 hlt
        omega
    rw [rounded, hlog]
    simpa using Number.divEven_mul_right size 1 (by decide)

theorem text_of_lt {size : Nat} (h : size < 1024) : text size = toString size ++ " B" := by
  rw [text, if_pos h]

theorem text_of_le {size : Nat} (hle : 1024 ≤ size) (hexact : size ≤ Nat.pow 2 53) :
    text size = decimal (tenths size / 10) (tenths size % 10) ++ " " ++ (unit size).2 := by
  rw [text, if_neg (Nat.not_lt.2 hle), rounded_eq_self hexact, decimal]

theorem shows_text {size : Nat} (hle : 1024 ≤ size) (hexact : size ≤ Nat.pow 2 53) :
    Shows (text size) (tenths size / 10) (unit size).1 := by
  have hshows := Shows.tenths (tenths size / 10) (tenths size % 10) (Nat.mod_lt _ (by decide))
    (fits_unit hle).mem
  have hnumber : ((tenths size / 10 : Nat) : ℚ) + (tenths size % 10 : Nat) / 10 =
      tenths size / 10 := by
    have hdigits : ((10 * (tenths size / 10) + tenths size % 10 : Nat) : ℚ) = tenths size := by
      rw [Nat.div_add_mod]
    push_cast at hdigits
    linarith
  rwa [text_of_le hle hexact, ← hnumber]

section

variable {size : Nat}

theorem unit_pos (h : 1024 ≤ size) : 0 < (unit size).1 := by
  have hpos : ∀ a ∈ largeUnits, 0 < a.2 := by decide
  exact hpos _ (fits_unit h).mem

theorem ten_le_tenths (h : 1024 ≤ size) : 10 ≤ tenths size :=
  calc 10 = Number.divEven (10 * (unit size).1) (unit size).1 :=
        (Number.divEven_mul_right 10 _ (unit_pos h)).symm
    _ ≤ tenths size := Number.divEven_mono (unit_pos h) (Nat.mul_le_mul_left 10 (fits_unit h).le)

theorem tenths_le (h : 1024 ≤ size) (hne : (unit size).1 ≠ Nat.pow 2 40) : tenths size ≤ 10240 := by
  have hlt := (fits_unit h).lt hne
  calc tenths size ≤ Number.divEven (10240 * (unit size).1) (unit size).1 :=
        Number.divEven_mono (unit_pos h) (by omega)
    _ = 10240 := Number.divEven_mul_right 10240 _ (unit_pos h)

/-- The tenths stay below the next unit unless half a tenth or less is missing, since 10239 is
odd. -/
theorem tenths_lt_iff (h : 1024 ≤ size) :
    tenths size < 10240 ↔ 20 * size < 20479 * (unit size).1 := by
  rw [Nat.lt_iff_le_pred (by decide), tenths, Number.divEven_le_iff (unit_pos h)]
  omega

end

/-- How a size from a kilobyte on is shown: by at least one of a larger unit. Unless that is the
largest it is at most 1024 of it, and less exactly when more than half a tenth of the unit is
missing to the next. -/
structure ShowsInUnit (size : Nat) (x : ℚ) (unit : Nat) : Prop where
  shows : Shows (text size) x unit
  isLarge : ∃ name, (name, unit) ∈ largeUnits
  one_le : 1 ≤ x
  lt_iff : unit ≠ Nat.pow 2 40 → x ≤ 1024 ∧ (x < 1024 ↔ 20 * size < 20479 * unit)

theorem showsInUnit_text (size : Nat) (hle : 1024 ≤ size) (hexact : size ≤ Nat.pow 2 53) :
    ∃ x unit, ShowsInUnit size x unit := by
  refine ⟨tenths size / 10, (unit size).1, shows_text hle hexact, ⟨_, (fits_unit hle).mem⟩, ?_,
    fun hne => ⟨?_, ?_⟩⟩
  · have hten : ((10 : Nat) : ℚ) ≤ tenths size := Nat.cast_le.2 (ten_le_tenths hle)
    push_cast at hten
    linarith
  · have htenths : (tenths size : ℚ) ≤ (10240 : Nat) := Nat.cast_le.2 (tenths_le hle hne)
    push_cast at htenths
    linarith
  · rw [← tenths_lt_iff hle, ← Nat.cast_lt (α := ℚ)]
    push_cast
    constructor <;> intro h <;> linarith

theorem showsInUnit_text_below_megabyte : 1024 ≤ 1048524 ∧ 1048524 ≤ Nat.pow 2 53 ∧
    text 1048524 = "1023.9 KB" ∧ ∃ x unit, ShowsInUnit 1048524 x unit :=
  ⟨by decide, by decide, by decide +kernel, showsInUnit_text 1048524 (by decide) (by decide)⟩

theorem not_lt_of_shows_below_megabyte : 1024 ≤ 1048575 ∧ 1048575 ≤ Nat.pow 2 53 ∧
    text 1048575 = "1024.0 KB" ∧
    ∃ x unit, Shows (text 1048575) x unit ∧ unit ≠ Nat.pow 2 40 ∧ ¬ x < 1024 := by
  have htext : text 1048575 = decimal 1024 0 ++ " " ++ "KB" := by decide +kernel
  have hshows := Shows.tenths 1024 0 (by decide)
    (show ("KB", Nat.pow 2 10) ∈ largeUnits by decide)
  rw [← htext] at hshows
  exact ⟨by decide, by decide, by decide +kernel, _, _, hshows, by decide, by norm_num⟩

section

variable {size small : Nat}

theorem apart_of_mem_largeUnits : ∀ a ∈ largeUnits, ∀ b ∈ largeUnits, a.2 = b.2 ∨
    (a.2 ≠ Nat.pow 2 40 ∧ 1024 * a.2 ≤ b.2) ∨ (b.2 ≠ Nat.pow 2 40 ∧ 1024 * b.2 ≤ a.2) := by
  decide

theorem unit_apart (h : 1024 ≤ small) (hle : small ≤ size) : (unit small).1 = (unit size).1 ∨
    (unit small).1 ≠ Nat.pow 2 40 ∧ 1024 * (unit small).1 ≤ (unit size).1 := by
  have hsmall := fits_unit h
  have hsize := fits_unit (h.trans hle)
  refine (apart_of_mem_largeUnits _ hsmall.mem _ hsize.mem).imp_right (Or.resolve_right · ?_)
  rintro ⟨hne, happart⟩
  exact Nat.not_lt.2 (happart.trans hsmall.le) (Nat.lt_of_le_of_lt hle (hsize.lt hne))

theorem tenths_mul_unit_mono (h : 1024 ≤ small) (hle : small ≤ size) :
    tenths small * (unit small).1 ≤ tenths size * (unit size).1 := by
  have h' : 1024 ≤ size := h.trans hle
  rcases unit_apart h hle with heq | ⟨hne, happart⟩
  · rw [tenths, tenths, heq]
    exact Nat.mul_le_mul_right _
      (Number.divEven_mono (unit_pos h') (Nat.mul_le_mul_left 10 hle))
  · -- the smaller unit is used up at most, and of the larger there is at least one
    calc tenths small * (unit small).1 ≤ 10240 * (unit small).1 :=
          Nat.mul_le_mul_right _ (tenths_le h hne)
      _ = 10 * (1024 * (unit small).1) := Nat.mul_assoc 10 1024 _
      _ ≤ 10 * (unit size).1 := Nat.mul_le_mul_left 10 happart
      _ ≤ tenths size * (unit size).1 := Nat.mul_le_mul_right _ (ten_le_tenths h')

theorem tenths_near (h : 1024 ≤ size) :
    |(tenths size : ℚ) / 10 * (unit size).1 - size| ≤ (unit size).1 / 20 := by
  obtain ⟨hupper, hlower⟩ := Number.divEven_near (10 * size) (unit size).1 (unit_pos h)
  have hupper : ((2 * (tenths size * (unit size).1) : Nat) : ℚ) ≤
      (2 * (10 * size) + (unit size).1 : Nat) := Nat.cast_le.2 hupper
  have hlower : ((2 * (10 * size) : Nat) : ℚ) ≤
      (2 * (tenths size * (unit size).1) + (unit size).1 : Nat) := Nat.cast_le.2 hlower
  push_cast at hupper hlower
  rw [abs_le]
  constructor <;> linarith

theorem lt_tenths_mul_unit (h : small < 1024) (h' : 1024 ≤ size) :
    10 * small ≤ tenths size * (unit size).1 := by
  have hunit : ∀ a ∈ largeUnits, 1024 ≤ a.2 := by decide
  calc 10 * small ≤ 10 * (unit size).1 :=
        Nat.mul_le_mul_left 10 (h.le.trans (hunit _ (fits_unit h').mem))
    _ ≤ tenths size * (unit size).1 := Nat.mul_le_mul_right _ (ten_le_tenths h')

def shownTenths (size : Nat) : Nat :=
  if size < 1024 then 10 * size else tenths size * (unit size).1

theorem shownTenths_mono (hle : small ≤ size) : shownTenths small ≤ shownTenths size := by
  rw [shownTenths, shownTenths]
  split_ifs with hsmall hsize hsize
  · exact Nat.mul_le_mul_left 10 hle
  · exact lt_tenths_mul_unit hsmall (Nat.not_lt.1 hsize)
  · exact absurd (Nat.lt_of_le_of_lt hle hsize) hsmall
  · exact tenths_mul_unit_mono (Nat.not_lt.1 hsmall) hle

theorem Shows.mul_eq {x : ℚ} {unit : Nat} (hexact : size ≤ Nat.pow 2 53)
    (h : Shows (text size) x unit) : x * unit = shownTenths size / 10 := by
  rw [shownTenths]
  split_ifs with hsize
  · rw [text_of_lt hsize] at h
    obtain ⟨rfl, rfl⟩ := h.unique (.bytes size)
    push_cast
    ring
  · obtain ⟨rfl, rfl⟩ := h.unique (shows_text (Nat.not_lt.1 hsize) hexact)
    push_cast
    ring

end

/-- What the text of a size stands for: at most half a tenth of its unit off, the very number of
bytes where bytes are shown, and no less than the text of a smaller size. -/
structure Approximates (size : Nat) : Prop where
  shown : ∃ x unit, Shows (text size) x unit
  near : ∀ x unit, Shows (text size) x unit →
    |x * unit - size| ≤ if unit = 1 then 0 else (unit : ℚ) / 20
  mono : ∀ small ≤ size, ∀ x unit x' unit', Shows (text small) x unit →
    Shows (text size) x' unit' → x * unit ≤ x' * unit'

theorem approximates_text (size : Nat) (hexact : size ≤ Nat.pow 2 53) : Approximates size := by
  have hmono : ∀ small ≤ size, ∀ x unit x' unit', Shows (text small) x unit →
      Shows (text size) x' unit' → x * unit ≤ x' * unit' := by
    intro small hle x unit x' unit' h h'
    have htenths : (shownTenths small : ℚ) ≤ shownTenths size :=
      Nat.cast_le.2 (shownTenths_mono hle)
    rw [h.mul_eq (hle.trans hexact), h'.mul_eq hexact]
    linarith
  rcases Nat.lt_or_ge size 1024 with hlt | hle
  · have hshows := Shows.bytes size
    rw [← text_of_lt hlt] at hshows
    refine ⟨⟨_, _, hshows⟩, fun x unit h => ?_, hmono⟩
    obtain ⟨rfl, rfl⟩ := h.unique hshows
    simp
  · have hshows := shows_text hle hexact
    refine ⟨⟨_, _, hshows⟩, fun x unit' h => ?_, hmono⟩
    obtain ⟨rfl, rfl⟩ := h.unique hshows
    have hne : ∀ a ∈ largeUnits, a.2 ≠ 1 := by decide
    rw [if_neg (hne _ (fits_unit hle).mem)]
    exact tenths_near hle

theorem approximates_text_around_megabyte : 1048576 ≤ Nat.pow 2 53 ∧ 1048575 ≤ 1048576 ∧
    Approximates 1048576 ∧ text 1048576 = "1.0 MB" ∧ text 1048575 = "1024.0 KB" :=
  ⟨by decide, by decide, approximates_text 1048576 (by decide), by decide +kernel,
    by decide +kernel⟩

end TreeSelection.FileSize
