import VectorTable.Proofs.Number.Rounding

/-! The decimal text of a number in double precision reads back as that number. The search for
the digits ends inside the rounding interval, because on the last of the seventeen grids the
step is narrower than the interval; the layout for files only moves the point. -/
namespace VectorTable

theorem RoundingInterval.holds_of_lt {i : RoundingInterval} {u x : ℚ} (hlow : i.low * u < x)
    (hhigh : x < i.high * u) : i.Holds u x := by
  unfold Holds
  split_ifs
  · exact ⟨hlow.le, hhigh.le⟩
  · exact ⟨hlow, hhigh⟩

/-! ### The search -/

namespace Decimal

def toRat (x : Decimal) : ℚ := x.digits * 10 ^ x.exponent

section Grid

variable {i : RoundingInterval} {n d : Nat} (hd : 0 < d) (g : Int)

include hd

theorem scaled (a b : Nat) :
    ((a * d * 10 ^ g.toNat : Nat) : ℚ) = a * 10 ^ g * (d * 10 ^ (-g).toNat : Nat) ∧
      ((b * n * 10 ^ (-g).toNat : Nat) : ℚ) = b * (n / d) * (d * 10 ^ (-g).toNat : Nat) := by
  have hd' : (d : ℚ) ≠ 0 := by positivity
  have hdown : ((10 ^ (-g).toNat : Nat) : ℚ) ≠ 0 := by positivity
  rw [show (10 : ℚ) = (10 : Nat) from rfl, ← pow_toNat_div (b := 10) (by decide) g]
  push_cast at hdown ⊢
  constructor <;> field_simp

theorem inside_iff (c : Nat) : inside i n d c g = true ↔ i.Holds (n / d) (c * 10 ^ g) := by
  have hK : (0 : ℚ) < (d * 10 ^ (-g).toNat : Nat) := by positivity
  have hc := (scaled (n := n) hd g c 0).1
  have hends := fun b => (scaled (n := n) hd g 0 b).2
  unfold inside RoundingInterval.Holds
  dsimp only
  split_ifs
  · simp only [Bool.and_eq_true, decide_eq_true_eq, ← Nat.cast_le (α := ℚ), hc, hends,
      mul_le_mul_iff_left₀ hK]
  · simp only [Bool.and_eq_true, decide_eq_true_eq, ← Nat.cast_lt (α := ℚ), hc, hends,
      mul_lt_mul_iff_left₀ hK]

theorem onGrid_holds {c : Nat} (h : onGrid i n d g = some c) :
    i.Holds (n / d) (c * 10 ^ g) := by
  rw [← inside_iff hd]
  unfold onGrid at h
  dsimp only at h
  split at h
  · split_ifs at h <;> cases h <;> assumption
  · cases h
    assumption
  · cases h
    assumption
  · cases h

/-- A grid whose step is narrower than the interval hits it. -/
theorem onGrid_isSome (hlow : i.low < i.middle) (hhigh : i.middle < i.high) (hn : 0 < n)
    (hstep : (i.low : ℚ) * (n / d) + 10 ^ g < i.high * (n / d)) : (onGrid i n d g).isSome := by
  have hu : (0 : ℚ) < n / d := by positivity
  have hs : (0 : ℚ) < 10 ^ g := by positivity
  have hlow' : (i.low : ℚ) * (n / d) < i.middle * (n / d) := by gcongr
  have hhigh' : (i.middle : ℚ) * (n / d) < i.high * (n / d) := by gcongr
  have hquot : ((i.middle * n * 10 ^ (-g).toNat : Nat) : ℚ) / (d * 10 ^ g.toNat : Nat) =
      i.middle * (n / d) / 10 ^ g := by
    rw [scaled_div (b := 10) (by decide) hd g]
    push_cast
    rw [mul_div_assoc]
  -- the two neighbours on the grid
  have hbelow := Nat.floor_le (show (0 : ℚ) ≤ i.middle * (n / d) / 10 ^ g by positivity)
  have habove := Nat.lt_floor_add_one ((i.middle : ℚ) * (n / d) / 10 ^ g)
  rw [le_div_iff₀ hs, ← hquot, Nat.floor_div_eq_div] at hbelow
  rw [div_lt_iff₀ hs, ← hquot, Nat.floor_div_eq_div] at habove
  have hhit : inside i n d (i.middle * n * 10 ^ (-g).toNat / (d * 10 ^ g.toNat)) g = true ∨
      inside i n d (i.middle * n * 10 ^ (-g).toNat / (d * 10 ^ g.toNat) + 1) g = true := by
    rw [inside_iff hd, inside_iff hd]
    generalize i.middle * n * 10 ^ (-g).toNat / (d * 10 ^ g.toNat) = c at hbelow habove
    rcases lt_or_ge ((i.low : ℚ) * (n / d)) (c * 10 ^ g) with h | h
    · exact .inl (RoundingInterval.holds_of_lt h (hbelow.trans_lt hhigh'))
    · refine .inr (RoundingInterval.holds_of_lt ?_ ?_)
      · push_cast
        linarith
      · push_cast
        linarith
  unfold onGrid
  dsimp only
  split <;> simp_all

end Grid

theorem search_holds {i : RoundingInterval} {n d : Nat} (hd : 0 < d) {fuel : Nat} {g : Int}
    (hlast : (onGrid i n d (g - fuel)).isSome) : i.Holds (n / d) (search i n d (fuel + 1) g).toRat := by
  induction fuel generalizing g with
  | zero =>
    obtain ⟨c, hc⟩ := Option.isSome_iff_exists.mp hlast
    rw [Nat.cast_zero, sub_zero] at hc
    rw [search, hc]
    exact onGrid_holds hd g hc
  | succ fuel ih =>
    rw [search]
    split
    next c hc => exact onGrid_holds hd g hc
    next =>
      refine ih ?_
      rwa [sub_sub, add_comm, ← Nat.cast_succ]

end Decimal

/-! ### The first grid -/

theorem decimalLength_pos (n : Nat) : 0 < decimalLength n :=
  List.length_pos_iff.mpr Nat.toDigits_ne_nil

theorem lt_pow_decimalLength (n : Nat) : n < 10 ^ decimalLength n :=
  (Nat.length_toDigits_le_iff (by decide) (decimalLength_pos n)).mp le_rfl

theorem pow_decimalLength_le {n : Nat} (hn : 0 < n) : 10 ^ (decimalLength n - 1) ≤ n := by
  by_contra! hlt
  rcases Nat.eq_zero_or_pos (decimalLength n - 1) with h | h
  · rw [h] at hlt
    omega
  · have hle := (Nat.length_toDigits_le_iff (by decide) h).mpr hlt
    rw [← decimalLength] at hle
    omega

theorem pow_log10Quotient_le {n d : Nat} (hn : 0 < n) (hd : 0 < d) :
    (10 : ℚ) ^ log10Quotient n d ≤ n / d := by
  have hd' : (0 : ℚ) < d := by exact_mod_cast hd
  have hn' : (0 : ℚ) < n := by exact_mod_cast hn
  unfold log10Quotient
  split_ifs with h
  · have hq : 0 < n / d := Nat.div_pos h hd
    have hlen := decimalLength_pos (n / d)
    have hexp : (decimalLength (n / d) : Int) - 1 = (decimalLength (n / d) - 1 : Nat) := by omega
    have hpow : ((10 ^ (decimalLength (n / d) - 1) : Nat) : ℚ) ≤ (n / d : Nat) := by
      exact_mod_cast pow_decimalLength_le hq
    rw [hexp, zpow_natCast]
    exact_mod_cast hpow.trans Nat.cast_div_le
  · have hlt := lt_pow_decimalLength ((d - 1) / n)
    have hle : d ≤ n * 10 ^ decimalLength ((d - 1) / n) := by
      have := Nat.lt_mul_of_div_lt hlt hn
      rw [Nat.mul_comm] at this
      omega
    have hle' : (d : ℚ) ≤ n * 10 ^ decimalLength ((d - 1) / n) := by exact_mod_cast hle
    rw [zpow_neg, zpow_natCast, le_div_iff₀ hd', inv_mul_le_iff₀ (by positivity), mul_comm]
    exact hle'

namespace Decimal

variable {m : Nat} {e : Int}

/-- The step of the seventeenth grid is narrower than the rounding interval: a number has less
than `10 ^ 16` places of its significand, and they are half as wide below a power of two only. -/
theorem last_step (hp : Binary.double.Parts m e) (hm : 0 < m) {g : Int}
    (hg : (10 : ℚ) ^ g ≤ (4 * m : Nat) * 2 ^ (e - 2)) :
    ((Binary.double.interval m e).low : ℚ) * 2 ^ (e - 2) + 10 ^ (g - (16 : Nat)) <
      (Binary.double.interval m e).high * 2 ^ (e - 2) := by
  have hlast : (10 : ℚ) ^ (g - (16 : Nat)) ≤ (4 * m : Nat) * 2 ^ (e - 2) / 10 ^ 16 := by
    rw [zpow_sub₀ (by norm_num), zpow_natCast]
    gcongr
  have hF : (Binary.double.fractionSize : ℚ) = 2 ^ 52 := by
    norm_num [Binary.fractionSize, Binary.double]
  have hm2 : (m : ℚ) < 2 * 2 ^ 52 := by
    rw [← hF]
    exact_mod_cast hp.lt
  rw [Binary.interval_low hm, Binary.interval_high]
  refine lt_of_le_of_lt (add_le_add_right hlast _) ?_
  rw [mul_div_right_comm, ← add_mul]
  refine mul_lt_mul_of_pos_right ?_ (by positivity)
  push_cast
  split_ifs with hF'
  · rw [hF'.1, hF]
    norm_num
  · linarith

/-- Seventeen digits are enough for double precision. -/
theorem shortest_holds (hp : Binary.double.Parts m e) (hm : 0 < m) :
    (Binary.double.interval m e).Holds (2 ^ (e - 2)) (shortest .double m e).toRat := by
  have hu : ((fraction 1 (e - 2)).1 : ℚ) / (fraction 1 (e - 2)).2 = 2 ^ (e - 2) := by
    rw [worth_fraction, worth, Nat.cast_one, one_mul]
  have hn : 0 < (fraction 1 (e - 2)).1 := by
    rw [fraction, Nat.one_mul]
    exact Nat.two_pow_pos _
  have hd : 0 < (fraction 1 (e - 2)).2 := Nat.two_pow_pos _
  have hshort : shortest .double m e = search (Binary.double.interval m e) (fraction 1 (e - 2)).1
    (fraction 1 (e - 2)).2 (16 + 1)
    (log10Quotient (4 * m * (fraction 1 (e - 2)).1) (fraction 1 (e - 2)).2) := rfl
  rw [hshort]
  generalize fraction 1 (e - 2) = nd at hu hn hd
  obtain ⟨n, d⟩ := nd
  dsimp only at hu hn hd ⊢
  have hgrid := pow_log10Quotient_le (Nat.mul_pos (Nat.mul_pos (by decide : 0 < 4) hm) hn) hd
  rw [Nat.cast_mul, mul_div_assoc, hu] at hgrid
  rw [← hu]
  refine search_holds hd ?_
  refine onGrid_isSome hd _ ?_ (Nat.lt_add_of_pos_right (by decide)) hn ?_
  · unfold Binary.interval
    dsimp only
    split_ifs <;> omega
  · rw [hu]
    exact last_step hp hm hgrid

end Decimal

/-! ### Digits -/

/-- The number that decimal digits show. -/
def digitsValue (s : List Char) : Nat := Nat.ofDigitChars 10 s 0

/-- The digits of a whole number; a zero at the front is the only digit. -/
structure IsWhole (s : List Char) : Prop where
  digits : ∀ c ∈ s, c.isDigit
  ne_nil : s ≠ []
  zero : s.head? = some '0' → s = ['0']

theorem digitsValue_append_zeros (s : List Char) (k : Nat) :
    digitsValue (s ++ NumberLayout.zeros k) = digitsValue s * 10 ^ k := by
  rw [digitsValue, NumberLayout.zeros, Nat.ofDigitChars_append, Nat.ofDigitChars_replicate_zero,
    Nat.mul_comm]
  rfl

theorem digitsValue_zeros_append (s : List Char) (k : Nat) :
    digitsValue (NumberLayout.zeros k ++ s) = digitsValue s := by
  rw [digitsValue, NumberLayout.zeros, Nat.ofDigitChars_append, Nat.ofDigitChars_replicate_zero,
    Nat.mul_zero]
  rfl

theorem isDigit_zeros {k : Nat} : ∀ c ∈ NumberLayout.zeros k, c.isDigit := by
  intro c hc
  rw [List.eq_of_mem_replicate hc]
  rfl

theorem head_toDigits {n : Nat} (hn : 0 < n) : (Nat.toDigits 10 n).head? ≠ some '0' := by
  induction n using Nat.strongRecOn with
  | ind n ih =>
    rcases Nat.lt_or_ge n 10 with h | h
    · rw [Nat.toDigits_of_lt_base h]
      clear ih
      interval_cases n <;> decide
    · rw [Nat.toDigits_of_base_le (by decide) h, List.head?_append_of_ne_nil _ Nat.toDigits_ne_nil]
      exact ih (n / 10) (by omega) (by omega)

theorem isWhole_toDigits (n : Nat) : IsWhole (Nat.toDigits 10 n) where
  digits := fun c hc => Nat.isDigit_of_mem_toDigits (by decide) (by decide) hc
  ne_nil := Nat.toDigits_ne_nil
  zero := fun h => by
    rcases Nat.eq_zero_or_pos n with rfl | hn
    · rfl
    · exact absurd h (head_toDigits hn)

/-- A text with a point but without an exponent, and the number that it shows. -/
def IsPointed (s : List Char) (x : ℚ) : Prop :=
  ∃ whole part, s = whole ++ '.' :: part ∧ IsWhole whole ∧ part ≠ [] ∧ (∀ c ∈ part, c.isDigit) ∧
    (digitsValue (whole ++ part) : ℚ) / 10 ^ part.length = x

/-- Only zeros are cut off at the end. -/
theorem exists_zeros (s : List Char) :
    ∃ k, s = (s.reverse.dropWhile (· = '0')).reverse ++ NumberLayout.zeros k := by
  have hcut := congrArg List.reverse
    (List.takeWhile_append_dropWhile (p := (· = '0')) (l := s.reverse))
  have hzeros : s.reverse.takeWhile (· = '0') =
      NumberLayout.zeros (s.reverse.takeWhile (· = '0')).length :=
    List.eq_replicate_iff.mpr ⟨rfl, fun c hc => by simpa using List.mem_takeWhile_imp hc⟩
  refine ⟨(s.reverse.takeWhile (· = '0')).length, ?_⟩
  rw [List.reverse_reverse, List.reverse_append, hzeros, NumberLayout.zeros,
    List.reverse_replicate] at hcut
  exact hcut.symm

/-- The digits of a decimal number and the place of its point. -/
theorem Decimal.text_eq {x : Decimal} (hx : 0 < x.digits) : ∃ head rest,
    x.text.1 = head :: rest ∧ head ≠ '0' ∧ (∀ c ∈ x.text.1, c.isDigit) ∧
      (digitsValue x.text.1 : ℚ) * 10 ^ (x.text.2 - x.text.1.length) = x.toRat := by
  obtain ⟨hdigits, hne, -⟩ := isWhole_toDigits x.digits
  have hfirst := head_toDigits hx
  have hvalue : digitsValue (Nat.toDigits 10 x.digits) = x.digits :=
    Nat.ofDigitChars_toDigits (by decide) (by decide)
  unfold Decimal.text Decimal.toRat
  dsimp only
  generalize Nat.toDigits 10 x.digits = all at hdigits hne hfirst hvalue
  obtain ⟨k, hk⟩ := exists_zeros all
  generalize (all.reverse.dropWhile (· = '0')).reverse = ds at hk ⊢
  subst hk
  rw [digitsValue_append_zeros] at hvalue
  cases ds with
  | nil =>
    rw [show digitsValue [] = 0 from rfl, Nat.zero_mul] at hvalue
    omega
  | cons head rest =>
    refine ⟨head, rest, rfl, fun h => hfirst (congrArg some h), fun c hc =>
      hdigits c (List.mem_append_left _ hc), ?_⟩
    have hlen : ((head :: rest ++ NumberLayout.zeros k).length : Int) =
        (head :: rest).length + k := by
      rw [List.length_append, NumberLayout.zeros, List.length_replicate]
      push_cast
      rfl
    rw [hlen, ← hvalue, show ((head :: rest).length : Int) + k + x.exponent - (head :: rest).length =
      k + x.exponent by ring, zpow_add₀ (by norm_num), zpow_natCast]
    push_cast
    ring

theorem div_pow_eq (x : ℚ) (k : Nat) : x / 10 ^ k = x * 10 ^ (-(k : Int)) := by
  rw [zpow_neg, zpow_natCast, div_eq_mul_inv]

theorem NumberLayout.place_isPointed {head : Char} {rest : List Char} (hhead : head ≠ '0')
    (hdigits : ∀ c ∈ head :: rest, c.isDigit) (point : Int) :
    IsPointed (file.place (head :: rest) point)
      (digitsValue (head :: rest) * 10 ^ (point - (head :: rest).length)) := by
  have hne : head :: rest ≠ [] := List.cons_ne_nil _ _
  have hfirst : (head :: rest).head? ≠ some '0' := fun h => hhead (Option.some.inj h)
  generalize head :: rest = ds at hdigits hne hfirst
  unfold place
  by_cases h1 : point ≤ 0
  · rw [if_pos h1]
    refine ⟨['0'], zeros (-point).toNat ++ ds, rfl, isWhole_toDigits 0, by simp [hne], ?_, ?_⟩
    · intro c hc
      rcases List.mem_append.mp hc with hc | hc
      · exact isDigit_zeros c hc
      · exact hdigits c hc
    · rw [show ['0'] = zeros 1 from rfl, digitsValue_zeros_append, digitsValue_zeros_append,
        div_pow_eq, List.length_append, zeros, List.length_replicate]
      congr 2
      omega
  rw [if_neg h1]
  by_cases h2 : ds.length ≤ point.toNat
  · rw [if_pos h2, if_pos (show file.wholeMark = true from rfl)]
    refine ⟨ds ++ zeros (point.toNat - ds.length), ['0'], rfl, ⟨?_, by simp [hne], ?_⟩,
      List.cons_ne_nil _ _, isDigit_zeros (k := 1), ?_⟩
    · intro c hc
      rcases List.mem_append.mp hc with hc | hc
      · exact hdigits c hc
      · exact isDigit_zeros c hc
    · rw [List.head?_append_of_ne_nil _ hne]
      exact fun h => absurd h hfirst
    · rw [show ['0'] = zeros 1 from rfl, digitsValue_append_zeros, digitsValue_append_zeros,
        show point - ds.length = ((point.toNat - ds.length : Nat) : Int) by omega, zpow_natCast]
      push_cast
      rw [show (zeros 1).length = 1 from rfl]
      ring
  · rw [if_neg h2]
    have hpos : 0 < point.toNat := by omega
    refine ⟨ds.take point.toNat, ds.drop point.toNat, rfl, ⟨?_, ?_, ?_⟩, ?_,
      fun c hc => hdigits c (List.mem_of_mem_drop hc), ?_⟩
    · exact fun c hc => hdigits c (List.mem_of_mem_take hc)
    · rw [← List.length_pos_iff, List.length_take]
      omega
    · rw [List.head?_take]
      simp [hpos.ne', hfirst]
    · rw [← List.length_pos_iff, List.length_drop]
      omega
    · rw [List.take_append_drop, div_pow_eq, List.length_drop]
      congr 2
      omega

/-- A number as files show it: a zero, or a number of its rounding interval. -/
theorem NumberLayout.magnitude_isPointed {m : Nat} {e : Int} (hp : Binary.double.Parts m e) :
    ∃ x, IsPointed (file.magnitude .double m e) x ∧
      (m = 0 ∧ x = 0 ∨ 0 < m ∧ (Binary.double.interval m e).Holds (2 ^ (e - 2)) x) := by
  unfold magnitude
  by_cases hm : m = 0
  · rw [if_pos hm]
    exact ⟨0, ⟨['0'], ['0'], rfl, isWhole_toDigits 0, List.cons_ne_nil _ _, isDigit_zeros (k := 1),
      by simp [digitsValue, Nat.ofDigitChars]⟩, .inl ⟨hm, rfl⟩⟩
  · have hm' := Nat.pos_of_ne_zero hm
    have hholds := Decimal.shortest_holds hp hm'
    have hdigits : 0 < (Decimal.shortest .double m e).digits := by
      by_contra! h
      have hpos := Binary.pos_of_holds hm' hholds
      rw [Decimal.toRat, Nat.le_zero.mp h, Nat.cast_zero, zero_mul] at hpos
      exact lt_irrefl _ hpos
    obtain ⟨head, rest, htext, hhead, hall, hvalue⟩ := Decimal.text_eq hdigits
    refine ⟨_, ?_, .inr ⟨hm', hholds⟩⟩
    rw [if_neg hm, ← hvalue]
    generalize (Decimal.shortest .double m e).text = placed at htext hall
    obtain ⟨digits, point⟩ := placed
    obtain rfl : digits = head :: rest := htext
    exact place_isPointed hhead hall point

/-! ### Reading -/

/-- The powers of ten around a decimal number. -/
theorem decimal_bounds {digits : Nat} (hd : 0 < digits) (exponent : Int) :
    (10 : ℚ) ^ (decimalLength digits + exponent - 1) ≤ digits * 10 ^ exponent ∧
      (digits : ℚ) * 10 ^ exponent < 10 ^ (decimalLength digits + exponent) := by
  have hpos : (0 : ℚ) < 10 ^ exponent := by positivity
  have hlen := decimalLength_pos digits
  have hlow : ((10 ^ (decimalLength digits - 1) : Nat) : ℚ) ≤ digits := by
    exact_mod_cast pow_decimalLength_le hd
  have hhigh : (digits : ℚ) < (10 ^ decimalLength digits : Nat) := by
    exact_mod_cast lt_pow_decimalLength digits
  push_cast at hlow hhigh
  constructor
  · rw [show decimalLength digits + exponent - 1 = ((decimalLength digits - 1 : Nat) : Int) + exponent
      by omega, zpow_add₀ (by norm_num), zpow_natCast]
    gcongr
  · rw [zpow_add₀ (by norm_num), zpow_natCast]
    gcongr

namespace Binary

variable {m : Nat} {e : Int}

theorem zpow_ten_le {power : Int} (h : power < -400) : (10 : ℚ) ^ power ≤ 2 ^ (-1203 : Int) := by
  obtain ⟨k, rfl⟩ : ∃ k : Nat, power = -(k : Int) := ⟨(-power).toNat, by omega⟩
  calc (10 : ℚ) ^ (-(k : Int)) ≤ 8 ^ (-(k : Int)) := by
        rw [zpow_neg, zpow_neg, zpow_natCast, zpow_natCast]
        gcongr
        norm_num
    _ = 2 ^ (3 * -(k : Int)) := by
        rw [show (8 : ℚ) = 2 ^ (3 : Int) by norm_num, ← zpow_mul]
    _ ≤ 2 ^ (-1203 : Int) := zpow_le_zpow_right₀ (by norm_num) (by omega)

theorem le_zpow_ten {power : Int} (h : 400 ≤ power) : (2 : ℚ) ^ (1200 : Int) ≤ 10 ^ power := by
  obtain ⟨k, rfl⟩ : ∃ k : Nat, power = k := ⟨power.toNat, by omega⟩
  calc (2 : ℚ) ^ (1200 : Int) ≤ 2 ^ (3 * (k : Int)) := zpow_le_zpow_right₀ (by norm_num) (by omega)
    _ = 8 ^ (k : Int) := by
        rw [show (8 : ℚ) = 2 ^ (3 : Int) by norm_num, ← zpow_mul]
    _ ≤ 10 ^ (k : Int) := by
        rw [zpow_natCast, zpow_natCast]
        gcongr
        norm_num

/-- The limits beyond which a decimal number is not looked at are far from the range of double
precision. -/
theorem power_bounds (hp : double.Parts m e) (hlt : double.pattern m e < double.infinity)
    (hm : 0 < m) {digits : Nat} {exponent : Int} (hd : 0 < digits)
    (h : double.Near m e (digits * 10 ^ exponent / 2 ^ e)) :
    -400 ≤ decimalLength digits + exponent ∧ decimalLength digits + exponent ≤ 400 := by
  obtain ⟨hlow, hhigh⟩ := decimal_bounds hd exponent
  generalize (decimalLength digits : Int) + exponent = power at hlow hhigh ⊢
  generalize (digits : ℚ) * 10 ^ exponent = x at h hlow hhigh
  have hpe : (0 : ℚ) < 2 ^ e := by positivity
  have hm1 : (1 : ℚ) ≤ m := by exact_mod_cast hm
  have hleast : (-1074 : Int) ≤ e := hp.least_le
  have htop : (e + 1074).toNat < 2047 := exponent_lt hlt
  have hbits : (m : ℚ) + 1 ≤ 2 ^ (53 : Int) := by
    have hF : 2 * double.fractionSize = 2 ^ 53 := rfl
    have hle : m + 1 ≤ 2 ^ 53 := hF ▸ hp.lt
    exact_mod_cast hle
  have hsmall : (2 : ℚ) ^ (-1203 : Int) < x := by
    calc (2 : ℚ) ^ (-1203 : Int) < 2 ^ (e - 1) := zpow_lt_zpow_right₀ (by norm_num) (by omega)
      _ = 1 / 2 * 2 ^ e := by
          rw [zpow_sub₀ (by norm_num), zpow_one]
          ring
      _ ≤ x := by
          rw [← le_div_iff₀ hpe]
          linarith [h.low]
  have hlarge : x < 2 ^ (1200 : Int) := by
    calc x ≤ 2 ^ (53 : Int) * 2 ^ e := by
          rw [← div_le_iff₀ hpe]
          linarith [h.high]
      _ = 2 ^ (53 + e) := (zpow_add₀ (by norm_num) _ _).symm
      _ < 2 ^ (1200 : Int) := zpow_lt_zpow_right₀ (by norm_num) (by omega)
  constructor
  · by_contra! hpower
    have := zpow_ten_le hpower
    linarith
  · by_contra! hpower
    have := le_zpow_ten (show 400 ≤ power - 1 by omega)
    linarith

/-- A decimal number of the rounding interval of a pattern is read as that pattern. -/
theorem ofDecimal_of_holds (hp : double.Parts m e) (hlt : double.pattern m e < double.infinity)
    (hm : 0 < m) {digits : Nat} {exponent : Int}
    (h : (double.interval m e).Holds (2 ^ (e - 2)) (digits * 10 ^ exponent)) :
    ofDecimal digits exponent = double.pattern m e := by
  have hpos := pos_of_holds hm h
  have hd : 0 < digits := by
    by_contra! hzero
    rw [Nat.le_zero.mp hzero, Nat.cast_zero, zero_mul] at hpos
    exact lt_irrefl _ hpos
  have hnear := near_of_holds hm h
  have hbounds := power_bounds hp hlt hm hd hnear
  unfold ofDecimal
  dsimp only
  rw [if_neg (by omega), if_neg (by omega), roundQuotient_of_near hp (Nat.mul_pos hd (Nat.pow_pos (by decide)))
    (Nat.pow_pos (by decide)), Nat.min_eq_right hlt.le]
  rwa [Nat.cast_mul, mul_div_assoc, pow_toNat_div (by decide)]

end Binary
end VectorTable
