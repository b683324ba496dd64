import VectorTable.Number.Decimal
import Mathlib

/-! Rounding to the patterns of a binary format. What lies in the rounding interval of a pattern
is rounded to that pattern, so a value that a format has is rounded to itself. Values are
compared as rational numbers. -/
namespace VectorTable

/-! ### Fractions -/

/-- A power with a whole exponent of either sign is the quotient of two powers, one of which
is 1. -/
theorem pow_toNat_div {b : Nat} (hb : 0 < b) (g : Int) :
    ((b ^ g.toNat : Nat) : ℚ) / (b ^ (-g).toNat : Nat) = (b : ℚ) ^ g := by
  have hb' : (b : ℚ) ≠ 0 := by positivity
  rcases Int.le_total 0 g with h | h
  · obtain ⟨k, rfl⟩ := Int.eq_ofNat_of_zero_le h
    simp
  · obtain ⟨k, hk⟩ := Int.eq_ofNat_of_zero_le (Int.neg_nonneg_of_nonpos h)
    obtain rfl : g = -(k : Int) := by omega
    simp

/-- The value of a significand and an exponent. -/
def worth (m : Nat) (e : Int) : ℚ := m * 2 ^ e

theorem worth_fraction (m : Nat) (e : Int) :
    ((fraction m e).1 : ℚ) / (fraction m e).2 = worth m e := by
  have h := pow_toNat_div (b := 2) (by decide) e
  rw [fraction, worth]
  dsimp only
  rw [Nat.cast_mul, mul_div_assoc, h]
  rfl

section Scaled

variable {b n d : Nat} (hb : 0 < b) (hd : 0 < d) (g : Int)

include hb hd

/-- The fraction `n / d` in units of `b ^ g`. -/
theorem scaled_div : ((n * b ^ (-g).toNat : Nat) : ℚ) / (d * b ^ g.toNat : Nat) =
    n / d / (b : ℚ) ^ g := by
  have hup : ((b ^ g.toNat : Nat) : ℚ) ≠ 0 := by positivity
  have hdown : ((b ^ (-g).toNat : Nat) : ℚ) ≠ 0 := by positivity
  have hd' : (d : ℚ) ≠ 0 := by positivity
  rw [← pow_toNat_div hb g]
  generalize b ^ g.toNat = up at hup ⊢
  generalize b ^ (-g).toNat = down at hdown ⊢
  push_cast
  field_simp

theorem scaled_den_pos : 0 < d * b ^ g.toNat := Nat.mul_pos hd (Nat.pow_pos hb)

end Scaled

theorem log2_bounds {n : Nat} (hn : 0 < n) :
    (2 : ℚ) ^ (n.log2 : Int) ≤ n ∧ (n : ℚ) < 2 ^ ((n.log2 : Int) + 1) := by
  have hlow := Nat.log2_self_le (n := n) (by omega)
  have hhigh := Nat.lt_log2_self (n := n)
  constructor
  · rw [zpow_natCast]
    exact_mod_cast hlow
  · rw [← Nat.cast_succ, zpow_natCast]
    exact_mod_cast hhigh

/-- The test of `log2Quotient`. -/
theorem log2_test {n d : Nat} (hd : 0 < d) (k : Int) :
    n * 2 ^ (-k).toNat < d * 2 ^ k.toNat ↔ (n : ℚ) / d < 2 ^ k := by
  have hden : 0 < d * 2 ^ k.toNat := scaled_den_pos (by decide) hd k
  have hs := scaled_div (b := 2) (n := n) (by decide) hd k
  have hp : (0 : ℚ) < 2 ^ k := by positivity
  rw [← div_lt_one hp, show (2 : ℚ) = (2 : Nat) from rfl, ← hs, div_lt_one (by exact_mod_cast hden),
    Nat.cast_lt]

theorem log2Quotient_eq {n d : Nat} (hn : 0 < n) (hd : 0 < d) :
    log2Quotient n d = Int.log 2 ((n : ℚ) / d) := by
  obtain ⟨hn1, hn2⟩ := log2_bounds hn
  obtain ⟨hd1, hd2⟩ := log2_bounds hd
  have hd' : (0 : ℚ) < d := by exact_mod_cast hd
  have hn' : (0 : ℚ) < n := by exact_mod_cast hn
  have hx : (0 : ℚ) < n / d := by positivity
  have hlow : (2 : ℚ) ^ ((n.log2 : Int) - d.log2 - 1) ≤ n / d := by
    rw [le_div_iff₀ hd']
    calc (2 : ℚ) ^ ((n.log2 : Int) - d.log2 - 1) * d
        ≤ 2 ^ ((n.log2 : Int) - d.log2 - 1) * 2 ^ ((d.log2 : Int) + 1) := by gcongr
      _ = 2 ^ (n.log2 : Int) := by
          rw [← zpow_add₀ (by norm_num)]
          congr 1
          ring
      _ ≤ n := hn1
  have hhigh : (n : ℚ) / d < 2 ^ ((n.log2 : Int) - d.log2 + 1) := by
    rw [div_lt_iff₀ hd']
    calc (n : ℚ) < 2 ^ ((n.log2 : Int) + 1) := hn2
      _ = 2 ^ ((n.log2 : Int) - d.log2 + 1) * 2 ^ (d.log2 : Int) := by
          rw [← zpow_add₀ (by norm_num)]
          congr 1
          ring
      _ ≤ 2 ^ ((n.log2 : Int) - d.log2 + 1) * d := by gcongr
  have hlog : ∀ k : Int, (2 : ℚ) ^ k ≤ n / d → (n : ℚ) / d < 2 ^ (k + 1) → k = Int.log 2 ((n : ℚ) / d) := by
    intro k h1 h2
    have h3 := (Int.zpow_le_iff_le_log (b := 2) (by decide) hx).mp (by exact_mod_cast h1)
    have h4 := (Int.lt_zpow_iff_log_lt (b := 2) (by decide) hx).mp (by exact_mod_cast h2)
    omega
  unfold log2Quotient
  dsimp only
  split_ifs with ht
  · rw [log2_test hd] at ht
    exact hlog _ hlow (by rwa [sub_add_cancel])
  · rw [log2_test hd, not_lt] at ht
    exact hlog _ ht hhigh

/-! ### Rounding to whole numbers -/

theorem roundHalfEven_eq {a b q : Nat} (hb : 0 < b) (hlow : 2 * (b * q) ≤ 2 * a + b)
    (hhigh : 2 * a ≤ 2 * (b * q) + b)
    (hodd : q % 2 = 1 → 2 * (b * q) < 2 * a + b ∧ 2 * a < 2 * (b * q) + b) :
    roundHalfEven a b = q := by
  have hsplit := Nat.div_add_mod a b
  have hrest := Nat.mod_lt a hb
  have htop : a / b < q + 1 := by
    refine Nat.lt_of_mul_lt_mul_left (a := b) ?_
    rw [Nat.mul_succ]
    omega
  have hbottom : q < a / b + 2 := by
    refine Nat.lt_of_mul_lt_mul_left (a := b) ?_
    rw [Nat.mul_add]
    omega
  unfold roundHalfEven
  dsimp only
  rcases Nat.lt_succ_iff_lt_or_eq.mp htop with hlt | heq
  · obtain rfl : q = a / b + 1 := by omega
    rw [Nat.mul_succ] at hlow hhigh hodd
    split_ifs <;> omega
  · obtain rfl := heq
    split_ifs <;> omega

/-- A quotient within half of a whole number is rounded to it; at the distance of a half the
whole number must be even. -/
theorem roundHalfEven_of_near {a b q : Nat} (hb : 0 < b) (hlow : (q : ℚ) - 1 / 2 ≤ a / b)
    (hhigh : (a : ℚ) / b ≤ q + 1 / 2)
    (hodd : q % 2 = 1 → (q : ℚ) - 1 / 2 < a / b ∧ (a : ℚ) / b < q + 1 / 2) :
    roundHalfEven a b = q := by
  have hb' : (0 : ℚ) < b := by exact_mod_cast hb
  rw [le_div_iff₀ hb'] at hlow
  rw [div_le_iff₀ hb'] at hhigh
  rw [lt_div_iff₀ hb', div_lt_iff₀ hb'] at hodd
  refine roundHalfEven_eq hb ?_ ?_ fun hq => ?_
  · rw [← Nat.cast_le (α := ℚ)]
    push_cast
    linarith
  · rw [← Nat.cast_le (α := ℚ)]
    push_cast
    linarith
  · obtain ⟨h1, h2⟩ := hodd hq
    rw [← Nat.cast_lt (α := ℚ), ← Nat.cast_lt (α := ℚ)]
    push_cast
    exact ⟨by linarith, by linarith⟩

/-! ### Patterns -/

namespace Binary

/-- The significand and the exponent of a pattern: the significand has all its bits, or the
exponent is the least. -/
structure Parts (f : Binary) (m : Nat) (e : Int) : Prop where
  lt : m < 2 * f.fractionSize
  least_le : f.leastExponent ≤ e
  full : f.fractionSize ≤ m ∨ e = f.leastExponent

/-- The pattern of a significand and an exponent. -/
def pattern (f : Binary) (m : Nat) (e : Int) : Nat :=
  (e - f.leastExponent).toNat * f.fractionSize + m

end Binary

/-- Whether a number lies in an interval that is given in units of some size. -/
def RoundingInterval.Holds (i : RoundingInterval) (unit x : ℚ) : Prop :=
  if i.closed then i.low * unit ≤ x ∧ x ≤ i.high * unit
  else i.low * unit < x ∧ x < i.high * unit

namespace Binary

variable {f : Binary} {m : Nat} {e : Int} {x : ℚ}

theorem fractionSize_pos (f : Binary) : 0 < f.fractionSize := Nat.two_pow_pos _

/-- What the rounding interval of a pattern comes to, in units of its last place. -/
structure Near (f : Binary) (m : Nat) (e : Int) (y : ℚ) : Prop where
  low : (m : ℚ) - 1 / 2 ≤ y
  high : y ≤ m + 1 / 2
  odd : m % 2 = 1 → (m : ℚ) - 1 / 2 < y ∧ y < m + 1 / 2
  /-- Below a power of two the places are half as wide. -/
  power : m = f.fractionSize → f.leastExponent < e → (m : ℚ) - 1 / 4 ≤ y

/-- The lower end of a rounding interval, in quarters. -/
theorem interval_low (hm : 0 < m) : ((f.interval m e).low : ℚ) =
    4 * m - (if m = f.fractionSize ∧ f.leastExponent < e then 1 else 2) := by
  rw [interval]
  split_ifs <;> dsimp only
  · rw [Nat.cast_sub (by omega)]
    push_cast
    ring
  · rw [Nat.cast_sub (by omega)]
    push_cast
    ring

theorem interval_high (f : Binary) (m : Nat) (e : Int) :
    ((f.interval m e).high : ℚ) = 4 * m + 2 := by
  rw [interval]
  push_cast
  ring

theorem near_of_holds (hm : 0 < m) (h : (f.interval m e).Holds (2 ^ (e - 2)) x) :
    f.Near m e (x / 2 ^ e) := by
  have hu : (0 : ℚ) < 2 ^ (e - 2) := by positivity
  have he : (2 : ℚ) ^ e = 4 * 2 ^ (e - 2) := by
    rw [zpow_sub₀ (by norm_num)]
    norm_num
    ring
  obtain ⟨y, rfl⟩ : ∃ y, x = 4 * y * 2 ^ (e - 2) := ⟨x / 2 ^ e, by rw [he]; field_simp⟩
  have hy : 4 * y * 2 ^ (e - 2) / 2 ^ e = y := by
    rw [he]
    field_simp
  rw [hy]
  unfold RoundingInterval.Holds at h
  simp only [mul_le_mul_iff_left₀ hu, mul_lt_mul_iff_left₀ hu, interval_high, interval_low hm] at h
  have hweak : (4 * m - (if m = f.fractionSize ∧ f.leastExponent < e then 1 else 2) : ℚ) ≤ 4 * y ∧
      4 * y ≤ 4 * m + 2 := by
    split at h
    · exact h
    · exact ⟨h.1.le, h.2.le⟩
  obtain ⟨hlow, hup⟩ := hweak
  refine ⟨?_, by linarith, fun hodd => ?_, fun hF hl => ?_⟩
  · split_ifs at hlow <;> linarith
  · have hc : ¬(f.interval m e).closed = true := by
      rw [interval]
      simp [hodd]
    rw [if_neg hc] at h
    obtain ⟨h1, h2⟩ := h
    exact ⟨by split_ifs at h1 <;> linarith, by linarith⟩
  · rw [if_pos ⟨hF, hl⟩] at hlow
    linarith

theorem pos_of_holds (hm : 0 < m) (h : (f.interval m e).Holds (2 ^ (e - 2)) x) : 0 < x := by
  have hlow := (near_of_holds hm h).low
  have hm1 : (1 : ℚ) ≤ m := by exact_mod_cast hm
  have hy : 0 < x / 2 ^ e := by linarith
  exact (div_pos_iff_of_pos_right (by positivity)).mp hy

theorem fractionSize_eq (f : Binary) : (f.fractionSize : ℚ) = 2 ^ ((f.precision - 1 : Nat) : Int) := by
  rw [fractionSize, zpow_natCast]
  push_cast
  rfl

/-- Rounding takes the exponent at which the significand has all its bits, or the least one. -/
theorem roundQuotient_eq {n d : Nat} (hn : 0 < n) (hd : 0 < d) (hle : f.leastExponent ≤ e)
    (hhigh : (n : ℚ) / d / 2 ^ e < 2 * f.fractionSize)
    (hlow : (f.fractionSize : ℚ) ≤ n / d / 2 ^ e ∨ e = f.leastExponent) :
    f.roundQuotient n d = min f.infinity ((e - f.leastExponent).toNat * f.fractionSize +
      roundHalfEven (n * 2 ^ (-e).toNat) (d * 2 ^ e.toNat)) := by
  have hx : (0 : ℚ) < n / d := by positivity
  have hpe : (0 : ℚ) < 2 ^ e := by positivity
  have hF := f.fractionSize_eq
  generalize hk : ((f.precision - 1 : Nat) : Int) = k at hF
  have hupper : Int.log 2 ((n : ℚ) / d) ≤ k + e := by
    have hlt : (n : ℚ) / d < 2 ^ (k + e + 1) := by
      have hpow : (2 : ℚ) ^ (k + e + 1) = 2 * f.fractionSize * 2 ^ e := by
        rw [hF, zpow_add₀ (by norm_num), zpow_add₀ (by norm_num)]
        ring
      rwa [hpow, ← div_lt_iff₀ hpe]
    have hlog := (Int.lt_zpow_iff_log_lt (b := 2) (by decide) hx).mp (by exact_mod_cast hlt)
    omega
  have he : max f.leastExponent (Int.log 2 ((n : ℚ) / d) - k) = e := by
    rcases hlow with hfull | hleast
    · have hge : (2 : ℚ) ^ (k + e) ≤ n / d := by
        rwa [zpow_add₀ (by norm_num), ← hF, ← le_div_iff₀ hpe]
      have hlog := (Int.zpow_le_iff_le_log (b := 2) (by decide) hx).mp (by exact_mod_cast hge)
      omega
    · omega
  unfold roundQuotient
  dsimp only
  rw [if_neg hn.ne', log2Quotient_eq hn hd, hk, he]

/-- A number near to a pattern is rounded to it. -/
theorem roundQuotient_of_near (hp : f.Parts m e) {n d : Nat} (hn : 0 < n) (hd : 0 < d)
    (h : f.Near m e (n / d / 2 ^ e)) : f.roundQuotient n d = min f.infinity (f.pattern m e) := by
  have hdiv : ∀ g : Int, ((n * 2 ^ (-g).toNat : Nat) : ℚ) / (d * 2 ^ g.toNat : Nat) = n / d / 2 ^ g :=
    fun g => scaled_div (b := 2) (by decide) hd g
  have hm2 : (m : ℚ) + 1 ≤ 2 * f.fractionSize := by exact_mod_cast hp.lt
  by_cases hfull : (f.fractionSize : ℚ) ≤ n / d / 2 ^ e ∨ e = f.leastExponent
  · have hq : roundHalfEven (n * 2 ^ (-e).toNat) (d * 2 ^ e.toNat) = m := by
      refine roundHalfEven_of_near (scaled_den_pos (by decide) hd e) ?_ ?_ ?_
      all_goals rw [hdiv]
      · exact h.low
      · exact h.high
      · exact h.odd
    rw [roundQuotient_eq hn hd hp.least_le (by linarith [h.high]) hfull, hq]
    rfl
  · -- below the power of two that the pattern stands for the exponent is less by one, and the
    -- significand is rounded up to the next power
    rw [not_or, not_le] at hfull
    obtain ⟨hlow, hne⟩ := hfull
    have hlt : f.leastExponent < e := lt_of_le_of_ne hp.least_le (Ne.symm hne)
    have hmF : m = f.fractionSize := by
      have hm1 : f.fractionSize ≤ m := hp.full.resolve_right hne
      have hmlt : (m : ℚ) < f.fractionSize + 1 := by linarith [h.low]
      have hmlt' : m < f.fractionSize + 1 := by exact_mod_cast hmlt
      omega
    have hquarter := h.power hmF hlt
    rw [hmF] at hquarter
    have hF1 : (1 : ℚ) ≤ f.fractionSize := by exact_mod_cast f.fractionSize_pos
    have hdouble : (n : ℚ) / d / 2 ^ (e - 1) = 2 * (n / d / 2 ^ e) := by
      rw [zpow_sub₀ (by norm_num), zpow_one]
      field_simp
    have hq : roundHalfEven (n * 2 ^ (-(e - 1)).toNat) (d * 2 ^ (e - 1).toNat) =
        2 * f.fractionSize := by
      refine roundHalfEven_of_near (scaled_den_pos (by decide) hd _) ?_ ?_ (fun h2 => by omega)
      all_goals
        rw [hdiv, hdouble]
        push_cast
        linarith
    have hsteps : (e - f.leastExponent).toNat = (e - 1 - f.leastExponent).toNat + 1 := by omega
    rw [roundQuotient_eq (e := e - 1) hn hd (by omega) (by rw [hdouble]; linarith)
      (.inl (by rw [hdouble]; linarith)), hq, pattern, hmF, hsteps]
    congr 1
    ring

/-- A fraction with the value of a pattern is rounded to it. -/
theorem roundQuotient_of_worth (hp : f.Parts m e) {n d : Nat} (hd : 0 < d)
    (h : (n : ℚ) / d = worth m e) : f.roundQuotient n d = min f.infinity (f.pattern m e) := by
  have hy : (n : ℚ) / d / 2 ^ e = m := by
    rw [h, worth]
    field_simp
  rcases Nat.eq_zero_or_pos n with rfl | hn
  · obtain rfl : m = 0 := by simpa using hy.symm
    have he : e = f.leastExponent := hp.full.resolve_left (Nat.not_le.mpr f.fractionSize_pos)
    simp [roundQuotient, pattern, he]
  · refine roundQuotient_of_near hp hn hd ?_
    rw [hy]
    exact ⟨by linarith, by linarith, fun _ => ⟨by linarith, by linarith⟩, fun _ _ => by linarith⟩

theorem encode_finite (neg : Bool) (m : Nat) (e : Int) : f.encode (.finite neg m e) =
    f.withSign neg (f.roundQuotient (fraction m e).1 (fraction m e).2) := rfl

/-- A number with the value of a finite pattern is encoded by that pattern. -/
theorem encode_of_worth (hp : f.Parts m e) (hlt : f.pattern m e < f.infinity) {m' : Nat} {e' : Int}
    (h : worth m' e' = worth m e) (neg : Bool) :
    f.encode (.finite neg m' e') = f.withSign neg (f.pattern m e) := by
  have hd : 0 < (fraction m' e').2 := Nat.two_pow_pos _
  rw [encode_finite, roundQuotient_of_worth hp hd ((worth_fraction m' e').trans h),
    Nat.min_eq_right hlt.le]

/-! ### Bit patterns -/

theorem signBit_eq (f : Binary) : f.signBit = f.fractionSize * 2 ^ f.exponentBits := Nat.pow_add ..

theorem infinity_lt (f : Binary) : f.infinity < f.signBit := by
  rw [signBit_eq, infinity, Nat.mul_comm]
  exact Nat.mul_lt_mul_of_pos_left (Nat.sub_lt (Nat.two_pow_pos _) Nat.one_pos) f.fractionSize_pos

theorem sign_withSign (neg : Bool) {b : Nat} (hb : b < f.signBit) :
    decide (f.withSign neg b / f.signBit % 2 = 1) = neg ∧ f.withSign neg b % f.signBit = b := by
  have hpos : 0 < f.signBit := Nat.lt_of_le_of_lt (Nat.zero_le _) hb
  cases neg
  · simp [withSign, Nat.div_eq_of_lt hb, Nat.mod_eq_of_lt hb]
  · simp [withSign, Nat.add_div_left _ hpos, Nat.div_eq_of_lt hb, Nat.mod_eq_of_lt hb]

theorem withSign_body {bits : Nat} (hb : bits < 2 * f.signBit) :
    f.withSign (bits / f.signBit % 2 = 1) (bits % f.signBit) = bits := by
  have hpos : 0 < f.signBit := by omega
  have hsplit := Nat.div_add_mod bits f.signBit
  have hlt : bits / f.signBit < 2 := Nat.div_lt_of_lt_mul (by omega)
  unfold withSign
  rcases Nat.lt_succ_iff_lt_or_eq.mp hlt with h | h
  · rw [Nat.lt_one_iff.mp h] at hsplit ⊢
    simpa using hsplit
  · rw [h] at hsplit ⊢
    simpa using hsplit

theorem exponent_lt (hlt : f.pattern m e < f.infinity) :
    (e - f.leastExponent).toNat < 2 ^ f.exponentBits - 1 := by
  refine Nat.lt_of_mul_lt_mul_right (a := f.fractionSize) ?_
  exact Nat.lt_of_le_of_lt (Nat.le_add_right _ m) hlt

/-- A finite pattern stands for its parts. -/
theorem decode_pattern (hp : f.Parts m e) (hlt : f.pattern m e < f.infinity) (neg : Bool) :
    f.decode (f.withSign neg (f.pattern m e)) = .finite neg m e := by
  obtain ⟨hsign, hbody⟩ := sign_withSign neg (hlt.trans f.infinity_lt)
  have hF := f.fractionSize_pos
  have htop : f.pattern m e / f.fractionSize < 2 ^ f.exponentBits - 1 :=
    Nat.div_lt_of_lt_mul (by rwa [Nat.mul_comm])
  unfold decode
  simp only [hsign, hbody]
  rw [if_neg htop.ne]
  rcases Nat.lt_or_ge m f.fractionSize with hm | hm
  · obtain rfl : e = f.leastExponent := hp.full.resolve_left (Nat.not_le.mpr hm)
    simp [pattern, Nat.div_eq_of_lt hm, Nat.mod_eq_of_lt hm]
  · have hrest : m - f.fractionSize < f.fractionSize := by
      have := hp.lt
      omega
    have hsteps : f.pattern m e =
        m - f.fractionSize + f.fractionSize * ((e - f.leastExponent).toNat + 1) := by
      rw [pattern, Nat.mul_add, Nat.mul_comm]
      omega
    have hle := hp.least_le
    rw [hsteps, Nat.add_mul_div_left _ _ hF, Nat.add_mul_mod_self_left, Nat.div_eq_of_lt hrest,
      Nat.mod_eq_of_lt hrest, if_neg (by omega)]
    congr 1
    · omega
    · omega

theorem decode_eq_finite {bits : Nat} {neg : Bool} (hb : bits < 2 * f.signBit)
    (h : f.decode bits = .finite neg m e) :
    f.Parts m e ∧ f.pattern m e < f.infinity ∧ bits = f.withSign neg (f.pattern m e) := by
  have hbody : bits % f.signBit < f.signBit := Nat.mod_lt _ (by omega)
  have hwhole := withSign_body hb
  have hF := f.fractionSize_pos
  unfold decode at h
  dsimp only at h
  generalize bits % f.signBit = body at h hbody hwhole
  have hsplit := Nat.div_add_mod body f.fractionSize
  have hrest := Nat.mod_lt body hF
  have htop : body / f.fractionSize < 2 ^ f.exponentBits :=
    Nat.div_lt_of_lt_mul (by rwa [← signBit_eq])
  generalize body / f.fractionSize = k at h hsplit htop
  generalize body % f.fractionSize = r at h hsplit hrest
  have hlt : k ≠ 2 ^ f.exponentBits - 1 → body < f.infinity := by
    intro hk
    have hle : k + 1 ≤ 2 ^ f.exponentBits - 1 := by omega
    calc body < f.fractionSize * (k + 1) := by rw [Nat.mul_add]; omega
      _ ≤ f.infinity := by
        rw [infinity, Nat.mul_comm]
        exact Nat.mul_le_mul_right _ hle
  split_ifs at h with htop' hr hk
  · cases h
    subst hk
    have hpat : f.pattern m f.leastExponent = body := by
      rw [pattern]
      simp
      omega
    refine ⟨⟨by omega, le_rfl, .inr rfl⟩, ?_, ?_⟩
    · rw [hpat]
      exact hlt htop'
    · rw [hpat, hwhole]
  · cases h
    have hpat : f.pattern (r + f.fractionSize) (f.leastExponent + k - 1) = body := by
      have hsteps : (f.leastExponent + k - 1 - f.leastExponent).toNat + 1 = k := by omega
      rw [pattern, ← hsplit, ← hsteps, Nat.mul_add, Nat.mul_comm, hsteps]
      omega
    refine ⟨⟨by omega, by omega, .inl (by omega)⟩, ?_, ?_⟩
    · rw [hpat]
      exact hlt htop'
    · rw [hpat, hwhole]

theorem decode_eq_infinite {bits : Nat} {neg : Bool} (hb : bits < 2 * f.signBit)
    (h : f.decode bits = .infinite neg) : bits = f.withSign neg f.infinity := by
  have hwhole := withSign_body hb
  unfold decode at h
  dsimp only at h
  generalize bits % f.signBit = body at h hwhole
  have hsplit := Nat.div_add_mod body f.fractionSize
  split_ifs at h with htop hr
  cases h
  have hinf : body = f.infinity := by
    rw [htop, hr] at hsplit
    rw [infinity, Nat.mul_comm, ← hsplit, Nat.add_zero]
  rw [← hinf, hwhole]

theorem decode_infinity (neg : Bool) :
    f.decode (f.withSign neg f.infinity) = .infinite neg := by
  obtain ⟨hsign, hbody⟩ := sign_withSign neg f.infinity_lt
  unfold decode
  simp only [hsign, hbody]
  rw [infinity, Nat.mul_div_cancel _ f.fractionSize_pos, Nat.mul_mod_left, if_pos rfl, if_pos rfl]

/-- A pattern is the nearest one to what it stands for. -/
theorem encode_decode {bits : Nat} (hb : bits < 2 * f.signBit) (hnan : f.decode bits ≠ .nan) :
    f.encode (f.decode bits) = bits := by
  cases h : f.decode bits with
  | nan => exact absurd h hnan
  | infinite neg => exact (decode_eq_infinite hb h).symm
  | finite neg m e =>
    obtain ⟨hp, hlt, hbits⟩ := decode_eq_finite hb h
    rw [encode_of_worth hp hlt rfl, ← hbits]

end Binary

/-! ### Widening -/

open Binary

namespace Binary

variable {m : Nat} {e : Int}

/-- What a number in single precision is in double precision: the significand is shifted until
all its bits are used. -/
theorem exists_double (hp : single.Parts m e) (hlt : single.pattern m e < single.infinity) :
    ∃ m' e', double.Parts m' e' ∧ double.pattern m' e' < double.infinity ∧
      worth m' e' = worth m e := by
  rcases Nat.eq_zero_or_pos m with rfl | hm
  · exact ⟨0, double.leastExponent, ⟨by decide, le_rfl, .inr rfl⟩, by decide, by simp [worth]⟩
  have hlow := Nat.log2_self_le hm.ne'
  have hhigh := Nat.lt_log2_self (n := m)
  have hlog : m.log2 < 24 := (Nat.log2_lt hm.ne').mpr hp.lt
  have hshift : (2 : Nat) ^ m.log2 * 2 ^ (52 - m.log2) = 2 ^ 52 := by
    rw [← Nat.pow_add]
    congr 1
    omega
  have hF : double.fractionSize = 2 ^ 52 := rfl
  have hfull : double.fractionSize ≤ m * 2 ^ (52 - m.log2) := by
    rw [hF, ← hshift]
    exact Nat.mul_le_mul_right _ hlow
  have hbits : m * 2 ^ (52 - m.log2) < 2 * double.fractionSize := by
    calc m * 2 ^ (52 - m.log2) < 2 ^ (m.log2 + 1) * 2 ^ (52 - m.log2) :=
          Nat.mul_lt_mul_of_pos_right hhigh (Nat.two_pow_pos _)
      _ = 2 * double.fractionSize := by rw [Nat.pow_succ', Nat.mul_assoc, hshift, hF]
  have hleast : (-149 : Int) ≤ e := hp.least_le
  have htop : (e + 149).toNat < 255 := exponent_lt hlt
  have hl : double.leastExponent = -1074 := rfl
  refine ⟨m * 2 ^ (52 - m.log2), e - (52 - m.log2 : Nat), ⟨hbits, by omega, .inl hfull⟩, ?_, ?_⟩
  · have hinf : double.infinity = 2047 * 2 ^ 52 := rfl
    rw [pattern, hinf, hl]
    rw [hF] at hbits ⊢
    omega
  · rw [worth, worth, zpow_sub₀ (by norm_num), zpow_natCast]
    push_cast
    field_simp

end Binary

namespace Single

variable {x : Single}

theorem lt_signBit (x : Single) : x.bits.toNat < 2 * single.signBit := x.bits.toNat_lt

theorem ofReal_value (h : x.value ≠ .nan) : Single.ofReal x.value = x := by
  have he := encode_decode (lt_signBit x) h
  rw [Single.ofReal, Single.value, he, UInt32.ofNat_toNat]

/-- A number in single precision keeps its value in double precision. -/
theorem decode_widen (h : x.value ≠ .nan) : double.decode x.widen ≠ .nan ∧
    x.widen < 2 * double.signBit ∧ Single.ofDouble x.widen = x := by
  have hback := ofReal_value h
  have hinf : double.infinity < double.signBit := double.infinity_lt
  have hbound : ∀ neg b, b < double.signBit → double.withSign neg b < 2 * double.signBit := by
    intro neg b hb
    unfold withSign
    split <;> omega
  unfold Single.ofDouble Single.widen
  cases hv : x.value with
  | nan => exact absurd hv h
  | infinite neg =>
    have hd : double.decode (double.encode (.infinite neg)) = .infinite neg := double.decode_infinity neg
    rw [hd, ← hv]
    exact ⟨h, hv ▸ hbound neg _ hinf, hback⟩
  | finite neg m e =>
    obtain ⟨hp, hlt, -⟩ := decode_eq_finite (lt_signBit x) hv
    obtain ⟨m', e', hp', hlt', hworth⟩ := exists_double hp hlt
    rw [encode_of_worth hp' hlt' hworth.symm, decode_pattern hp' hlt']
    refine ⟨by simp, hbound neg _ (hlt'.trans hinf), ?_⟩
    rw [← hback, hv, Single.ofReal, Single.ofReal, encode_of_worth hp hlt hworth,
      encode_of_worth hp hlt rfl]

end Single
end VectorTable
