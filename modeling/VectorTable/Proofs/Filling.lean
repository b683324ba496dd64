import VectorTable.Config
import VectorTable.Proofs.Codec
import VectorTable.Proofs.Number.Rounding

/-! When there is a value for every cell of a fresh matrix. A number of units of single precision,
as long as it is not too large, is rounded to a finite number of its sign, and rounding does not
take it past a power of two; so the range that suits the sides of a matrix is never empty and never
too wide, though its bound is rounded three times. A range that a caller chooses can have finite
ends in order and still be wider than any number. -/
namespace VectorTable

/-! ### Rounding -/

theorem roundHalfEven_bounds (a b : Nat) :
    a / b ≤ roundHalfEven a b ∧ roundHalfEven a b ≤ a / b + 1 := by
  unfold roundHalfEven
  dsimp only
  split_ifs <;> omega

namespace Binary

open Single (unitsPerOne)

/-- The bits below the first 24 of a number of units. -/
def surplus (n : Nat) : Nat := n.log2 - 23

section Units

variable {n d : Nat} (hd : 0 < d) (hn : d ≤ n)
include hd

omit hd in
theorem div_units (n d s : Nat) :
    n * 2 ^ (-((s : Int) - 149)).toNat / (d * unitsPerOne * 2 ^ ((s : Int) - 149).toNat) =
      n / d / 2 ^ s := by
  have hscale : d * unitsPerOne * 2 ^ ((s : Int) - 149).toNat =
      d * 2 ^ s * 2 ^ (-((s : Int) - 149)).toNat := by
    rw [unitsPerOne, Nat.mul_assoc, Nat.mul_assoc, ← Nat.pow_add, ← Nat.pow_add]
    congr 2
    omega
  rw [hscale, Nat.mul_div_mul_right _ _ (Nat.two_pow_pos _), Nat.div_div_eq_div_mul]

theorem div_units_cast (s : Nat) :
    (n : ℚ) / (d * unitsPerOne : Nat) / 2 ^ ((s : Int) - 149) = n / (2 ^ s * d : Nat) := by
  have hd' : (d : ℚ) ≠ 0 := by positivity
  rw [unitsPerOne, zpow_sub₀ (by norm_num), zpow_natCast]
  push_cast
  field_simp

include hn

/-- The number of units, without a fraction, has 24 bits above its surplus. -/
theorem surplus_bounds : n < 2 ^ (24 + surplus (n / d)) * d ∧
    (surplus (n / d) = 0 ∨ 2 ^ (23 + surplus (n / d)) * d ≤ n) := by
  have hpos : n / d ≠ 0 := Nat.one_le_iff_ne_zero.mp ((Nat.one_le_div_iff hd).mpr hn)
  constructor
  · rw [← Nat.div_lt_iff_lt_mul hd]
    refine Nat.lt_of_lt_of_le Nat.lt_log2_self (Nat.pow_le_pow_right (by decide) ?_)
    unfold surplus
    omega
  · rcases Nat.eq_zero_or_pos (surplus (n / d)) with h0 | h0
    · exact .inl h0
    · right
      rw [← Nat.le_div_iff_mul_le hd]
      refine Nat.le_trans (Nat.pow_le_pow_right (by decide) ?_) (Nat.log2_self_le hpos)
      unfold surplus at h0 ⊢
      omega

/-- A number of units is rounded to its first 24 bits, or to one last place more. -/
theorem roundQuotient_units : ∃ q, n / d / 2 ^ surplus (n / d) ≤ q ∧
    q ≤ n / d / 2 ^ surplus (n / d) + 1 ∧ single.roundQuotient n (d * unitsPerOne) =
      min single.infinity (surplus (n / d) * 2 ^ 23 + q) := by
  generalize hs : surplus (n / d) = s
  obtain ⟨hhigh, hlow⟩ := surplus_bounds hd hn
  rw [hs] at hhigh hlow
  have hfrac : single.fractionSize = 2 ^ 23 := by decide
  have hscaled : (0 : ℚ) < (2 ^ s * d : Nat) := by positivity
  have hrounded := roundQuotient_eq (f := single) (n := n) (d := d * unitsPerOne)
    (e := (s : Int) - 149) (Nat.lt_of_lt_of_le hd hn) (Nat.mul_pos hd (Nat.two_pow_pos _))
    (show (-149 : Int) ≤ (s : Int) - 149 by omega)
    (by
      rw [div_units_cast hd, hfrac, div_lt_iff₀ hscaled]
      exact_mod_cast (show n < 2 * 2 ^ 23 * (2 ^ s * d) by rw [Nat.pow_add] at hhigh; linarith))
    (by
      rw [div_units_cast hd, hfrac, le_div_iff₀ hscaled]
      refine hlow.symm.imp (fun h => ?_) fun h => ?_
      · exact_mod_cast (show 2 ^ 23 * (2 ^ s * d) ≤ n by rw [Nat.pow_add] at h; linarith)
      · rw [h]
        rfl)
  obtain ⟨h1, h2⟩ := roundHalfEven_bounds (n * 2 ^ (-((s : Int) - 149)).toNat)
    (d * unitsPerOne * 2 ^ ((s : Int) - 149).toNat)
  rw [div_units] at h1 h2
  have hexp : ((s : Int) - 149 - single.leastExponent).toNat = s := by
    show ((s : Int) - 149 - (-149)).toNat = s
    omega
  rw [hexp, hfrac] at hrounded
  exact ⟨_, h1, h2, hrounded⟩

end Units

/-- The units that a pattern below that of infinity stands for. -/
def unitsOf (bits : Nat) : Nat :=
  if bits / 2 ^ 23 = 0 then bits else (bits % 2 ^ 23 + 2 ^ 23) * 2 ^ (bits / 2 ^ 23 - 1)

theorem unitsOf_pos {bits : Nat} (h : 1 ≤ bits) : 1 ≤ unitsOf bits := by
  unfold unitsOf
  split_ifs
  · exact h
  · exact Nat.mul_pos (by omega) (Nat.two_pow_pos _)

theorem le_unitsOf {bits k : Nat} (h : (k + 1) * 2 ^ 23 ≤ bits) : 2 ^ (k + 23) ≤ unitsOf bits := by
  have hk : k + 1 ≤ bits / 2 ^ 23 := (Nat.le_div_iff_mul_le (Nat.two_pow_pos 23)).mpr h
  unfold unitsOf
  rw [if_neg (by omega), Nat.add_comm k, Nat.pow_add]
  exact Nat.mul_le_mul (Nat.le_add_left _ _) (Nat.pow_le_pow_right (by decide) (by omega))

theorem unitsOf_lt {bits k : Nat} (h : bits ≤ k * 2 ^ 23 + 2 ^ 24) :
    unitsOf bits < 2 ^ (k + 25) := by
  have hk : bits / 2 ^ 23 ≤ k + 2 := by omega
  unfold unitsOf
  split_ifs with h0
  · calc bits < 2 ^ 23 := by omega
      _ ≤ 2 ^ (k + 25) := Nat.pow_le_pow_right (by decide) (by omega)
  · calc (bits % 2 ^ 23 + 2 ^ 23) * 2 ^ (bits / 2 ^ 23 - 1)
        < 2 ^ 24 * 2 ^ (bits / 2 ^ 23 - 1) :=
          Nat.mul_lt_mul_of_pos_right (by omega) (Nat.two_pow_pos _)
      _ = 2 ^ (24 + (bits / 2 ^ 23 - 1)) := (Nat.pow_add _ _ _).symm
      _ ≤ 2 ^ (k + 25) := Nat.pow_le_pow_right (by decide) (by omega)

theorem roundQuotient_bounds {n d i j : Nat} (hd : 0 < d) (hi : 2 ^ i * d ≤ n) (hj : n < 2 ^ j * d)
    (hj' : j ≤ 270) : 1 ≤ single.roundQuotient n (d * unitsPerOne) ∧
      single.roundQuotient n (d * unitsPerOne) < 255 * 2 ^ 23 ∧
      (23 ≤ i → 2 ^ i ≤ unitsOf (single.roundQuotient n (d * unitsPerOne))) ∧
      unitsOf (single.roundQuotient n (d * unitsPerOne)) < 2 ^ (j + 25) := by
  have hn : d ≤ n := Nat.le_trans (Nat.le_mul_of_pos_left d (Nat.two_pow_pos i)) hi
  obtain ⟨q, hq1, hq2, hround⟩ := roundQuotient_units hd hn
  have hx : 1 ≤ n / d := (Nat.one_le_div_iff hd).mpr hn
  have hlow : i ≤ (n / d).log2 := (Nat.le_log2 (by omega)).mpr ((Nat.le_div_iff_mul_le hd).mpr hi)
  have hhigh : (n / d).log2 < j := (Nat.log2_lt (by omega)).mpr ((Nat.div_lt_iff_lt_mul hd).mpr hj)
  have hq24 : n / d / 2 ^ surplus (n / d) < 2 ^ 24 := by
    rw [Nat.div_lt_iff_lt_mul (Nat.two_pow_pos _), ← Nat.pow_add, Nat.div_lt_iff_lt_mul hd]
    exact (surplus_bounds hd hn).1
  rw [hround]
  clear hround hi hj hn
  generalize n / d = x at *
  have hs : surplus x = x.log2 - 23 := rfl
  -- from 23 on the significand has all its 24 bits
  have hq23 : 23 ≤ x.log2 → 2 ^ 23 ≤ q := by
    intro h
    refine Nat.le_trans ?_ hq1
    rw [Nat.le_div_iff_mul_le (Nat.two_pow_pos _), ← Nat.pow_add, hs, Nat.add_sub_cancel' h]
    exact Nat.log2_self_le (by omega)
  have hq0 : surplus x = 0 → 1 ≤ q := by
    intro h
    rw [h, Nat.pow_zero, Nat.div_one] at hq1
    exact Nat.le_trans hx hq1
  clear hq1
  generalize x / 2 ^ surplus x = y at *
  have hinf : single.infinity = 255 * 2 ^ 23 := by decide
  rw [Nat.min_eq_right (show surplus x * 2 ^ 23 + q ≤ single.infinity by omega)]
  refine ⟨by omega, by omega, fun h => ?_, ?_⟩
  · refine Nat.le_trans (Nat.pow_le_pow_right (by decide) ?_) (le_unitsOf (k := surplus x) ?_)
    · omega
    · have := hq23 (by omega)
      omega
  · refine Nat.lt_of_lt_of_le (unitsOf_lt (k := surplus x) (by omega)) ?_
    exact Nat.pow_le_pow_right (by decide) (by omega)

end Binary

/-! ### Numbers in single precision -/

namespace Single

open Binary

theorem isFinite_iff {x : Single} : x.isFinite = true ↔ ∃ u, x.units? = some u := by
  unfold isFinite units? Real.isFinite
  cases x.value <;> simp

theorem units?_signed (negative : Bool) {bits : Nat} (h : bits < 255 * 2 ^ 23) :
    (⟨UInt32.ofNat (single.withSign negative bits)⟩ : Single).units? =
      some (if negative then -(unitsOf bits : Int) else unitsOf bits) := by
  have hsign : single.signBit = 2 ^ 31 := by decide
  have hfrac : single.fractionSize = 2 ^ 23 := by decide
  have hsigned : single.withSign negative bits = (if negative then 2 ^ 31 else 0) + bits := by
    unfold Binary.withSign
    rw [hsign]
    split_ifs <;> omega
  have hword : (UInt32.ofNat (single.withSign negative bits)).toNat =
      single.withSign negative bits := by
    refine UInt32.toNat_ofNat_of_lt' ?_
    rw [hsigned, UInt32.size]
    split_ifs <;> omega
  have hbody : single.withSign negative bits % 2 ^ 31 = bits := by
    rw [hsigned]
    split_ifs <;> omega
  have hnegative : decide (single.withSign negative bits / 2 ^ 31 % 2 = 1) = negative := by
    rw [hsigned]
    cases negative <;> simp <;> omega
  have hexp : ¬ bits / 2 ^ 23 = 2 ^ single.exponentBits - 1 := by
    show ¬ bits / 2 ^ 23 = 255
    omega
  unfold units? value decode
  dsimp only
  rw [hword, hsign, hfrac, hbody, hnegative, if_neg hexp]
  unfold unitsOf
  by_cases h0 : bits / 2 ^ 23 = 0
  · have hm : bits % 2 ^ 23 = bits := by omega
    rw [if_pos h0, if_pos h0, hm]
    simp
  · have he : (single.leastExponent + (bits / 2 ^ 23 : Nat) - 1 - single.leastExponent).toNat =
        bits / 2 ^ 23 - 1 := by omega
    rw [if_neg h0, if_neg h0]
    dsimp only
    rw [he]
    simp

theorem units?_ofUnits_of_lt {n : Int} {d : Nat}
    (h : single.roundQuotient n.natAbs (d * unitsPerOne) < 255 * 2 ^ 23) :
    (ofUnits n d).units? = some (if decide (n < 0) then
      -(unitsOf (single.roundQuotient n.natAbs (d * unitsPerOne)) : Int)
      else unitsOf (single.roundQuotient n.natAbs (d * unitsPerOne))) := by
  have hleast : (-single.leastExponent).toNat = 149 := by decide
  rw [ofUnits, hleast]
  exact units?_signed (n < 0) h

/-- A number of units that is not too large is rounded to a finite number of its sign. Rounding
does not take it past a power of two. -/
theorem units?_ofUnits {n : Int} {d i j : Nat} (hd : 0 < d) (hi : 2 ^ i * d ≤ n.natAbs)
    (hj : n.natAbs < 2 ^ j * d) (hj' : j ≤ 270) :
    ∃ u, (ofUnits n d).units? = some u ∧ (0 < n → 0 < u) ∧ (n < 0 → u < 0) ∧
      (23 ≤ i → 2 ^ i ≤ u.natAbs) ∧ u.natAbs < 2 ^ (j + 25) := by
  obtain ⟨hpos, hinf, hlow, hhigh⟩ := roundQuotient_bounds hd hi hj hj'
  have hunits := unitsOf_pos hpos
  refine ⟨_, units?_ofUnits_of_lt hinf, ?_, ?_, ?_, ?_⟩
  · intro h
    rw [decide_eq_false (Int.not_lt.mpr (Int.le_of_lt h)), if_neg Bool.false_ne_true]
    exact Int.natCast_pos.mpr hunits
  · intro h
    rw [decide_eq_true h, if_pos rfl]
    exact Int.neg_neg_of_pos (Int.natCast_pos.mpr hunits)
  · intro h
    split_ifs
    · rw [Int.natAbs_neg]
      exact hlow h
    · exact hlow h
  · split_ifs
    · rwa [Int.natAbs_neg]
    · exact hhigh

end Single

/-! ### Fillings -/

theorem sqrtFrom_sq_le {n k root : Nat} (h : root ^ 2 ≤ n) : sqrtFrom n k root ^ 2 ≤ n := by
  induction k generalizing root with
  | zero =>
    unfold sqrtFrom
    split_ifs with hs
    · exact hs
    · exact h
  | succ k ih =>
    unfold sqrtFrom
    dsimp only
    split_ifs with hs
    · exact ih hs
    · exact ih h

theorem one_le_sqrtFrom {n : Nat} (h : 1 ≤ n) (k root : Nat) : 1 ≤ sqrtFrom n k root := by
  induction k generalizing root with
  | zero =>
    unfold sqrtFrom
    split_ifs with hs
    · exact Nat.le_add_left 1 root
    · cases root with
      | zero => exact absurd h hs
      | succ root => exact Nat.le_add_left 1 root
  | succ k ih => exact ih _

namespace Filling

open Single

/-- Where there is a range, its ends are apart by a number that single precision holds. -/
def Fits : Filling → Prop
  | .uniform low high =>
    ∃ a b, low.units? = some a ∧ high.units? = some b ∧ (Single.ofUnits (b - a) 1).isFinite = true
  | _ => True

/-- The bound for two sides is a finite number above zero. -/
theorem units?_xavierBound {n : Nat} (hn : 1 ≤ n) (hle : n ≤ 2 ^ 64) :
    ∃ u, (xavierBound n).units? = some u ∧ 0 < u ∧ u.natAbs < 2 ^ 188 := by
  obtain ⟨sum, hsum, hsum0, -, hsumlow, hsumhigh⟩ :=
    units?_ofUnits (n := (n * unitsPerOne : Nat)) (d := 1) (i := 149) (j := 214) (by decide)
      (by rw [Int.natAbs_natCast, unitsPerOne]; omega)
      (by rw [Int.natAbs_natCast, unitsPerOne]; omega) (by decide)
  have hsumlow := hsumlow (by decide)
  have hsum0 : 0 < sum := hsum0 (by rw [unitsPerOne]; omega)
  obtain ⟨part, hpart, hpart0, -, -, hparthigh⟩ :=
    units?_ofUnits (n := (6 * unitsPerOne * unitsPerOne : Nat)) (d := sum.natAbs) (i := 59)
      (j := 152) (by omega)
      (by
        rw [Int.natAbs_natCast, unitsPerOne]
        calc 2 ^ 59 * sum.natAbs ≤ 2 ^ 59 * 2 ^ 239 := Nat.mul_le_mul_left _ (Nat.le_of_lt hsumhigh)
          _ ≤ 6 * 2 ^ 149 * 2 ^ 149 := by decide)
      (by
        rw [Int.natAbs_natCast, unitsPerOne]
        calc (6 : Nat) * 2 ^ 149 * 2 ^ 149 < 2 ^ 152 * 2 ^ 149 := by decide
          _ ≤ 2 ^ 152 * sum.natAbs := Nat.mul_le_mul_left _ hsumlow)
      (by decide)
  have hpart0 : 0 < part := hpart0 (by decide)
  have hquotient : quotient 6 (ofWhole n) =
      ofUnits (6 * unitsPerOne * unitsPerOne : Nat) sum.natAbs := by
    rw [quotient, ofWhole, hsum]
    exact if_neg (by omega)
  have hroot : (quotient 6 (ofWhole n)).root =
      ofUnits (sqrtFloor (part.natAbs * unitsPerOne)) 1 := by
    rw [root, hquotient, hpart]
  have hpos : 1 ≤ sqrtFloor (part.natAbs * unitsPerOne) :=
    one_le_sqrtFrom (Nat.mul_pos (by omega) (Nat.two_pow_pos _)) _ _
  have hsq : sqrtFloor (part.natAbs * unitsPerOne) ^ 2 ≤ part.natAbs * unitsPerOne :=
    sqrtFrom_sq_le (Nat.zero_le _)
  have hlt : sqrtFloor (part.natAbs * unitsPerOne) < 2 ^ 163 := by
    refine lt_of_pow_lt_pow_left₀ 2 (Nat.zero_le _) (Nat.lt_of_le_of_lt hsq ?_)
    calc part.natAbs * unitsPerOne < 2 ^ 177 * 2 ^ 149 :=
          Nat.mul_lt_mul_of_pos_right hparthigh (Nat.two_pow_pos _)
      _ = (2 ^ 163) ^ 2 := by decide
  obtain ⟨u, hu, hu0, -, -, hb⟩ :=
    units?_ofUnits (n := (sqrtFloor (part.natAbs * unitsPerOne) : Int)) (d := 1) (i := 0) (j := 163)
      (by decide) (by rw [Int.natAbs_natCast]; omega) (by rw [Int.natAbs_natCast]; omega)
      (by decide)
  refine ⟨u, ?_, hu0 (by omega), hb⟩
  rw [xavierBound, hroot]
  exact hu

section Range

variable {low high : Single} {a b : Int} (ha : low.units? = some a) (hb : high.units? = some b)
  (hab : a < b) (noise : Noise)
include ha hb hab

theorem exists_uniformCell (h : (Single.ofUnits (b - a) 1).isFinite = true) :
    ∃ cell, uniformCell noise low high = .ok cell := by
  unfold uniformCell
  rw [ha, hb]
  dsimp only
  rw [if_neg (Int.not_le.mpr hab), h]
  exact ⟨_, rfl⟩

theorem uniformCell_eq_error (h : ¬ (Single.ofUnits (b - a) 1).isFinite = true) :
    uniformCell noise low high = .error .unboundedSpread := by
  unfold uniformCell
  rw [ha, hb]
  dsimp only
  rw [if_neg (Int.not_le.mpr hab), Bool.eq_false_of_not_eq_true h]
  rfl

end Range

/-- The range that suits the sides of a matrix has values in it. -/
theorem exists_xavierCell (noise : Noise) {rows cols : Nat} (hn : 1 ≤ rows + cols)
    (hle : rows + cols ≤ 2 ^ 64) : ∃ c, Filling.xavier.cell noise rows cols = .ok c := by
  obtain ⟨u, hu, hu0, hulow⟩ := units?_xavierBound hn hle
  obtain ⟨a, ha, -, ha0, -, halow⟩ :=
    units?_ofUnits (n := -u) (d := 1) (i := 0) (j := 188) (by decide)
      (by rw [Int.natAbs_neg]; omega) (by rw [Int.natAbs_neg]; omega) (by decide)
  have hwidth : (u - a).natAbs < 2 ^ 214 := by
    have hbig : 2 ^ 188 + 2 ^ 213 ≤ 2 ^ 214 := by decide
    omega
  obtain ⟨w, hw, -⟩ := units?_ofUnits (n := u - a) (d := 1) (i := 0) (j := 214) (by decide)
    (by omega) (by omega) (by decide)
  unfold cell
  dsimp only
  rw [hu]
  exact exists_uniformCell ha hu (by omega) noise (Single.isFinite_iff.mpr ⟨w, hw⟩)

end Filling

namespace Config

theorem checkFilling_normal {mean std : Single} :
    checkFilling (.normal mean std) = .ok () ↔ ∃ s, std.units? = some s ∧ 0 ≤ s := by
  unfold checkFilling
  dsimp only
  cases std.units? with
  | none => simp
  | some s => by_cases h : 0 ≤ s <;> simp [h]

theorem checkFilling_uniform {low high : Single} :
    checkFilling (.uniform low high) = .ok () ↔
      ∃ a b, low.units? = some a ∧ high.units? = some b ∧ a < b := by
  unfold checkFilling
  dsimp only
  cases low.units? with
  | none => simp
  | some a =>
    cases high.units? with
    | none => simp
    | some b => by_cases h : a < b <;> simp [h]

end Config

namespace Filling

/-- The bytes that a cell takes on its way into the matrix. -/
def cellBytes (type : DataType) : Filling → Nat
  | .zeros => type.width
  | _ => max DataType.float32.width type.width

theorem cellBytes_pos (filling : Filling) (type : DataType) : 0 < filling.cellBytes type := by
  have hwidth := type.width_pos
  cases filling with
  | zeros => exact hwidth
  | normal | uniform | xavier => exact Nat.lt_of_lt_of_le hwidth (Nat.le_max_right _ _)

section Matrix

variable {filling : Filling} {noise : Noise} {type : DataType} {rows cols : Nat}
  (hb : rows * cols * filling.cellBytes type < blockLimit)
include hb

theorem matrix_of_zeros (hz : filling = .zeros) :
    filling.matrix noise type rows cols = .ok (Tensor.zeroed type rows cols) := by
  subst hz
  have hzeros : allocate (rows * cols * type.width) = .ok () := allocate_of_lt hb
  rw [matrix, Tensor.zeros, hzeros]
  rfl

/-- Where there are blocks for the cells, the filling decides whether there are cells. -/
theorem matrix_of_cell (hz : filling ≠ .zeros) : filling.matrix noise type rows cols =
    (fun cell => (Tensor.ofSingles rows cols cell).convert (.storable type)) <$>
      (filling.cell noise rows cols).mapError .tensor := by
  have hbytes : filling.cellBytes type = max DataType.float32.width type.width := by
    cases filling <;> first | exact absurd rfl hz | rfl
  rw [hbytes] at hb
  have hsingle := Nat.lt_of_le_of_lt (Nat.mul_le_mul_left (rows * cols) (Nat.le_max_left _ _)) hb
  have hcells := Nat.lt_of_le_of_lt (Nat.mul_le_mul_left (rows * cols) (Nat.le_max_right _ _)) hb
  unfold matrix
  split
  · exact absurd rfl hz
  · rw [allocate_of_lt hsingle, allocate_of_lt hcells]
    cases filling.cell noise rows cols <;> rfl

end Matrix

variable {filling : Filling} {rows cols : Nat} (hc : Config.checkFilling filling = .ok ())
  (noise : Noise) (type : DataType) (hb : rows * cols * filling.cellBytes type < blockLimit)
include hc hb

/-- What was checked fills a matrix, unless it is a range that is too wide. -/
theorem exists_matrix_of_checked (hf : filling.Fits) (hn : 1 ≤ rows + cols)
    (hle : rows + cols ≤ 2 ^ 64) : ∃ m, filling.matrix noise type rows cols = .ok m := by
  by_cases hz : filling = .zeros
  · exact ⟨_, matrix_of_zeros hb hz⟩
  have hcell : ∃ c, filling.cell noise rows cols = .ok c := by
    cases filling with
    | zeros => exact absurd rfl hz
    | normal mean std =>
      obtain ⟨s, hs, -⟩ := Config.checkFilling_normal.mp hc
      show ∃ c, normalCell noise mean std = .ok c
      unfold normalCell
      rw [hs]
      cases mean.units? with
      | none => exact ⟨_, rfl⟩
      | some m =>
        dsimp only
        split_ifs
        · exact ⟨_, rfl⟩
        · exact ⟨_, rfl⟩
    | uniform low high =>
      obtain ⟨a, b, ha, hb, hab⟩ := Config.checkFilling_uniform.mp hc
      obtain ⟨a', b', ha', hb', hfinite⟩ := hf
      rw [ha] at ha'
      rw [hb] at hb'
      cases ha'
      cases hb'
      exact exists_uniformCell ha hb hab noise hfinite
    | xavier => exact exists_xavierCell noise hn hle
  obtain ⟨c, hcell⟩ := hcell
  exact ⟨_, by rw [matrix_of_cell hb hz, hcell]; rfl⟩

theorem matrix_eq_error_of_checked (hf : ¬ filling.Fits) :
    filling.matrix noise type rows cols = .error (.tensor .unboundedSpread) := by
  cases filling with
  | zeros => exact absurd trivial hf
  | normal mean std => exact absurd trivial hf
  | xavier => exact absurd trivial hf
  | uniform low high =>
    obtain ⟨a, b, hlow, hhigh, hab⟩ := Config.checkFilling_uniform.mp hc
    have hcell : (Filling.uniform low high).cell noise rows cols = .error .unboundedSpread :=
      uniformCell_eq_error hlow hhigh hab noise fun h => hf ⟨a, b, hlow, hhigh, h⟩
    rw [matrix_of_cell hb (by simp), hcell]
    rfl

end Filling
end VectorTable
