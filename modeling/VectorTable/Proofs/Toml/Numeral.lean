import VectorTable.Toml.Section
import VectorTable.Toml.Numeral
import VectorTable.Proofs.Number.Decimal

/-! Numbers and flags as files show them are read back. Each is one word that is not a date or
a time: a sign stands only at its front, and it has no colon. -/
namespace VectorTable.Toml

/-- The characters of a class at the front of a text, where the text after them goes on with
another character. -/
theorem span_append {p : Char → Bool} {s rest : List Char} (hs : ∀ c ∈ s, p c = true)
    (hrest : ∀ c ∈ rest.head?, p c = false) :
    (s ++ rest).takeWhile p = s ∧ (s ++ rest).dropWhile p = rest := by
  rw [List.takeWhile_append_of_pos hs, List.dropWhile_append_of_pos hs]
  cases rest with
  | nil => exact ⟨List.append_nil s, rfl⟩
  | cons c rest => simp [hrest c rfl]

namespace Numeral

/-! ### Digits -/

theorem toNat_digit {c : Char} (h : c.isDigit) : 48 ≤ c.toNat ∧ c.toNat ≤ 57 := by
  simpa [Char.isDigit, UInt32.le_iff_toNat_le] using h

theorem isDigitOf_digit {c : Char} (h : c.isDigit) : isDigitOf 10 c = true := by
  have := toNat_digit h
  simp only [isDigitOf, digitValue, Char.isAlphanum, h, if_pos, Bool.or_true, Bool.true_and,
    decide_eq_true_eq]
  omega

theorem ungroup?_digits {s : List Char} (hne : s ≠ []) (hs : ∀ c ∈ s, c.isDigit) :
    ungroup? 10 s = some s := by
  induction s with
  | nil => exact absurd rfl hne
  | cons c rest ih =>
    have hc := isDigitOf_digit (hs c List.mem_cons_self)
    have hrest : ∀ c ∈ rest, c.isDigit := fun c hc => hs c (List.mem_cons_of_mem _ hc)
    cases rest with
    | nil => simp [ungroup?, hc]
    | cons d more =>
      have hd : d ≠ '_' := by
        rintro rfl
        exact absurd (hrest '_' List.mem_cons_self) (by decide)
      simp [ungroup?, hc, hd, ih (List.cons_ne_nil _ _) hrest]

theorem value_digits {s : List Char} (hs : ∀ c ∈ s, c.isDigit) : value 10 s = digitsValue s := by
  unfold value digitsValue
  generalize 0 = start
  induction s generalizing start with
  | nil => rfl
  | cons c rest ih =>
    rw [List.foldl_cons, Nat.ofDigitChars_cons, ih fun c hc => hs c (List.mem_cons_of_mem _ hc)]
    rw [digitValue, if_pos (hs c List.mem_cons_self)]
    rfl

theorem decimal?_whole {s : List Char} (hs : IsWhole s) : decimal? s = some s := by
  unfold decimal?
  split
  · rfl
  next h => exact absurd (List.cons.inj (hs.zero rfl)).2 h
  · exact ungroup?_digits hs.ne_nil hs.digits

/-! ### Numbers with a point -/

theorem sign_digit {c : Char} {rest : List Char} (hc : c.isDigit) :
    sign (c :: rest) = (false, c :: rest) := by
  unfold sign
  split
  next h =>
    cases h
    exact absurd hc (by decide)
  next h =>
    cases h
    exact absurd hc (by decide)
  · rfl

theorem magnitude?_pointed {whole part : List Char} (hw : IsWhole whole) (hne : part ≠ [])
    (hp : ∀ c ∈ part, c.isDigit) : magnitude? (whole ++ '.' :: part) =
      some (Binary.ofDecimal (digitsValue (whole ++ part)) (-(part.length : Int))) := by
  have hstop : ∀ c : Char, c.isDigit → (decide (c ≠ '.') && !isExponentMark c) = true := by
    intro c hc
    have h1 : c ≠ '.' := by rintro rfl; exact absurd hc (by decide)
    have h2 : c ≠ 'e' := by rintro rfl; exact absurd hc (by decide)
    have h3 : c ≠ 'E' := by rintro rfl; exact absurd hc (by decide)
    simp [isExponentMark, h1, h2, h3]
  have hmark : ∀ c ∈ '.' :: part, (!isExponentMark c) = true := by
    intro c hc
    rcases List.mem_cons.mp hc with rfl | hc
    · rfl
    · exact (Bool.and_eq_true_iff.mp (hstop c (hp c hc))).2
  have hpoint : ∀ c ∈ ('.' :: part).head?, (decide (c ≠ '.') && !isExponentMark c) = false := by
    simp
  obtain ⟨htake, hdrop⟩ := span_append (fun c hc => hstop c (hw.digits c hc)) hpoint
  have hall : ∀ c ∈ whole ++ part, c.isDigit := by
    intro c hc
    rcases List.mem_append.mp hc with hc | hc
    · exact hw.digits c hc
    · exact hp c hc
  unfold magnitude?
  simp only [htake, hdrop, decimal?_whole hw, List.takeWhile_eq_self_iff.mpr hmark,
    List.dropWhile_eq_nil_iff.mpr hmark, fraction?, ungroup?_digits hne hp, exponent?]
  simp [value_digits hall]

/-- The text of a finite number without its sign is read back. -/
theorem magnitude?_magnitude {m : Nat} {e : Int} (hp : Binary.double.Parts m e)
    (hlt : Binary.double.pattern m e < Binary.double.infinity) :
    magnitude? (NumberLayout.file.magnitude .double m e) = some (Binary.double.pattern m e) := by
  obtain ⟨x, ⟨whole, part, htext, hw, hne, hpart, hx⟩, hcase⟩ := NumberLayout.magnitude_isPointed hp
  rw [htext, magnitude?_pointed hw hne hpart]
  rw [div_pow_eq] at hx
  rcases hcase with ⟨rfl, rfl⟩ | ⟨hm, hholds⟩
  · have hzero : digitsValue (whole ++ part) = 0 := by
      rcases mul_eq_zero.mp hx with h | h
      · exact_mod_cast h
      · exact absurd h (by positivity)
    have he : e = Binary.double.leastExponent := hp.full.resolve_left (by decide)
    rw [hzero, he]
    rfl
  · rw [← hx] at hholds
    rw [Binary.ofDecimal_of_holds hp hlt hm hholds]

/-! ### Words -/

/-- What a word is made of that is not a date or a time. -/
structure IsPlainWord (w : List Char) : Prop where
  chars : ∀ c ∈ w, isWordChar c
  dash : '-' ∉ w.drop 1
  colon : ':' ∉ w

theorem dropDate?_eq_none {w : List Char} (h : '-' ∉ w.drop 1) : dropDate? w = none := by
  unfold dropDate?
  split
  · simp at h
  · rfl

theorem dropTime?_eq_none {w : List Char} (h : ':' ∉ w) : dropTime? w = none := by
  unfold dropTime?
  split
  · simp at h
  · rfl

theorem isMoment_eq_false {w : List Char} (h : IsPlainWord w) : isMoment w = false := by
  rw [isMoment, dropDate?_eq_none h.dash, dropTime?_eq_none h.colon]
  rfl

theorem read?_word {w rest : List Char} (h : IsPlainWord w)
    (hrest : ∀ c ∈ rest.head?, isWordChar c = false) :
    read? (w ++ rest) = (ofWord? w).map (·, rest) := by
  have hword : (w ++ rest).takeWhile isWordChar = w := (span_append h.chars hrest).1
  have hlength : wordLength (w ++ rest) = w.length := by
    rw [wordLength, hword, dropDate?_eq_none h.dash]
    rfl
  rw [read?, hlength, List.take_left, List.drop_left]

/-! ### Signed numbers -/

/-- A text with a minus sign at its front, or without. -/
def signed (negative : Bool) (body : List Char) : List Char :=
  (if negative then ['-'] else []) ++ body

theorem sign_signed {negative : Bool} {c : Char} {rest : List Char} (hc : c.isDigit) :
    sign (signed negative (c :: rest)) = (negative, c :: rest) := by
  cases negative
  · exact sign_digit hc
  · rfl

theorem isPlainWord_signed {negative : Bool} {body : List Char}
    (hbody : ∀ c ∈ body, c.isDigit ∨ c = '.') : IsPlainWord (signed negative body) := by
  have hchars : ∀ c ∈ body, isWordChar c ∧ c ≠ '-' ∧ c ≠ ':' := by
    intro c hc
    rcases hbody c hc with h | rfl
    · refine ⟨by simp [isWordChar, Char.isAlphanum, h], ?_, ?_⟩
      · rintro rfl
        exact absurd h (by decide)
      · rintro rfl
        exact absurd h (by decide)
    · decide
  have hdash : '-' ∉ body := fun h => (hchars _ h).2.1 rfl
  have hcolon : ':' ∉ body := fun h => (hchars _ h).2.2 rfl
  have hword : ∀ c ∈ body, isWordChar c := fun c hc => (hchars c hc).1
  cases negative
  · exact ⟨hword, fun h => hdash (List.mem_of_mem_drop h), hcolon⟩
  · refine ⟨?_, hdash, ?_⟩
    · exact List.forall_mem_cons.mpr ⟨rfl, hword⟩
    · exact List.not_mem_cons_of_ne_of_not_mem (by decide) hcolon

theorem ofWord?_signed {negative : Bool} {c : Char} {rest : List Char}
    (hc : c.isDigit) (hbody : ∀ d ∈ c :: rest, d.isDigit ∨ d = '.') :
    ofWord? (signed negative (c :: rest)) =
      match integer? (signed negative (c :: rest)) with
      | some n => some (.integer n)
      | none => (float? (signed negative (c :: rest))).map .float := by
  have h1 : c ≠ 't' := by rintro rfl; exact absurd hc (by decide)
  have h2 : c ≠ 'f' := by rintro rfl; exact absurd hc (by decide)
  rw [ofWord?, if_neg, if_neg, isMoment_eq_false (isPlainWord_signed hbody)]
  · rfl
  · cases negative <;> simp [signed, h2]
  · cases negative <;> simp [signed, h1]

/-! ### Whole numbers -/

theorem integer?_signed {negative : Bool} {digits : List Char} (h : IsWhole digits) :
    integer? (signed negative digits) =
      int64? (withSign negative (digitsValue digits)) := by
  obtain ⟨c, rest, rfl⟩ := List.exists_cons_of_ne_nil h.ne_nil
  have hc := h.digits c List.mem_cons_self
  have hsecond : ∀ d more, signed negative (c :: rest) ≠ '0' :: d :: more := by
    intro d more he
    cases negative
    · obtain ⟨rfl, rfl⟩ := List.cons.inj he
      exact List.cons_ne_nil _ _ (List.cons.inj (h.zero rfl)).2
    · exact absurd (List.cons.inj he).1 (by decide)
  unfold integer?
  split
  next he => exact absurd he (hsecond _ _)
  next he => exact absurd he (hsecond _ _)
  next he => exact absurd he (hsecond _ _)
  · rw [sign_signed hc, decimal?_whole h]
    simp [value_digits h.digits]

theorem toList_toString (z : Int) :
    (toString z).toList = signed (z < 0) (Nat.toDigits 10 z.natAbs) := by
  rw [Int.toString_eq_repr]
  cases z with
  | ofNat n =>
    rw [Int.repr, Nat.toList_repr]
    rfl
  | negSucc n =>
    rw [Int.repr, String.toList_append, Nat.toList_repr, signed,
      if_pos (decide_eq_true (Int.negSucc_lt_zero n))]
    simp

theorem int64?_toInt (n : Int64) : int64? n.toInt = some n := by
  have hlow := n.le_toInt
  have hhigh := n.toInt_lt
  rw [int64?, if_pos ⟨hlow, hhigh⟩, Int64.ofInt_toInt]

theorem ofWord?_integer (n : Int64) : IsPlainWord (toString n.toInt).toList ∧
    ofWord? (toString n.toInt).toList = some (.integer n) := by
  have hwhole := isWhole_toDigits n.toInt.natAbs
  have hvalue : digitsValue (Nat.toDigits 10 n.toInt.natAbs) = n.toInt.natAbs :=
    Nat.ofDigitChars_toDigits (by decide) (by decide)
  have hsign : withSign (n.toInt < 0) n.toInt.natAbs = n.toInt := by
    unfold withSign
    split_ifs with h
    · have := of_decide_eq_true h
      omega
    · have := of_decide_eq_false (Bool.not_eq_true _ ▸ h)
      omega
  rw [toList_toString]
  generalize Nat.toDigits 10 n.toInt.natAbs = digits at hwhole hvalue
  obtain ⟨c, rest, rfl⟩ := List.exists_cons_of_ne_nil hwhole.ne_nil
  have hbody : ∀ d ∈ c :: rest, d.isDigit ∨ d = '.' := fun d hd => .inl (hwhole.digits d hd)
  refine ⟨isPlainWord_signed hbody, ?_⟩
  rw [ofWord?_signed (hwhole.digits c List.mem_cons_self) hbody, integer?_signed hwhole, hvalue,
    hsign, int64?_toInt]

/-! ### Floating-point numbers -/

theorem ungroup?_point {radix : Nat} {s : List Char} (h : '.' ∈ s) : ungroup? radix s = none := by
  have hdot : isDigitOf radix '.' = false := rfl
  have hskip : ∀ {c : Char} {rest : List Char}, ¬(!isDigitOf radix c) = true → '.' ∈ c :: rest →
      '.' ∈ rest := by
    intro c rest hc hmem
    refine (List.mem_cons.mp hmem).resolve_left ?_
    rintro rfl
    exact hc (by rw [hdot]; rfl)
  fun_induction ungroup? radix s with
  | case1 => cases h
  | case2 => rfl
  | case3 c hc => exact absurd (hskip hc h) List.not_mem_nil
  | case4 c hc rest ih =>
    rw [ih ((List.mem_cons.mp (hskip hc h)).resolve_left (by decide))]
    rfl
  | case5 c hc rest _ _ ih =>
    rw [ih (hskip hc h)]
    rfl

theorem integer?_point {negative : Bool} {c : Char} {rest : List Char} (hc : c.isDigit)
    (h : '.' ∈ rest) : integer? (signed negative (c :: rest)) = none := by
  have hmem : '.' ∈ signed negative (c :: rest) :=
    List.mem_append_right _ (List.mem_cons_of_mem _ h)
  have hungroup : ∀ {radix : Nat} {d d' : Char} {more : List Char}, d ≠ '.' → d' ≠ '.' →
      signed negative (c :: rest) = d :: d' :: more → ungroup? radix more = none := by
    intro radix d d' more hd hd' he
    rw [he] at hmem
    exact ungroup?_point
      ((List.mem_cons.mp ((List.mem_cons.mp hmem).resolve_left hd.symm)).resolve_left hd'.symm)
  unfold integer?
  split
  next he => rw [hungroup (by decide) (by decide) he]; rfl
  next he => rw [hungroup (by decide) (by decide) he]; rfl
  next he => rw [hungroup (by decide) (by decide) he]; rfl
  · have hdecimal : decimal? (c :: rest) = none := by
      unfold decimal?
      split
      next he =>
        rw [(List.cons.inj he).2] at h
        cases h
      · rfl
      · exact ungroup?_point (List.mem_cons_of_mem _ h)
    rw [sign_signed hc, hdecimal]
    rfl

theorem write_finite {bits : Nat} {negative : Bool} {m : Nat} {e : Int}
    (h : Binary.double.decode bits = .finite negative m e) :
    (NumberLayout.file.write .double bits).toList =
      signed negative (NumberLayout.file.magnitude .double m e) := by
  rw [NumberLayout.write, h, String.toList_ofList]
  rfl

theorem write_infinite {bits : Nat} {negative : Bool}
    (h : Binary.double.decode bits = .infinite negative) :
    (NumberLayout.file.write .double bits).toList = signed negative ['i', 'n', 'f'] := by
  rw [NumberLayout.write, h]
  cases negative <;> decide

theorem ofWord?_infinite (negative : Bool) : IsPlainWord (signed negative ['i', 'n', 'f']) ∧
    ofWord? (signed negative ['i', 'n', 'f']) =
      some (.float (UInt64.ofNat (Binary.double.withSign negative Binary.double.infinity))) := by
  have hword : IsPlainWord (signed negative ['i', 'n', 'f']) := by
    cases negative <;> exact ⟨by simp [signed, isWordChar], by decide, by decide⟩
  have hsign : sign (signed negative ['i', 'n', 'f']) = (negative, ['i', 'n', 'f']) := by
    cases negative <;> rfl
  have hinteger : integer? (signed negative ['i', 'n', 'f']) = none := by
    cases negative <;> rfl
  have hfloat : float? (signed negative ['i', 'n', 'f']) =
      some (UInt64.ofNat (Binary.double.withSign negative Binary.double.infinity)) := by
    rw [float?, hsign]
    exact if_pos rfl
  refine ⟨hword, ?_⟩
  rw [ofWord?, if_neg (by cases negative <;> decide), if_neg (by cases negative <;> decide),
    isMoment_eq_false hword, hinteger, hfloat]
  rfl

theorem ofWord?_float {bits : Nat} (hb : bits < 2 * Binary.double.signBit)
    (hnan : Binary.double.decode bits ≠ .nan) :
    IsPlainWord (NumberLayout.file.write .double bits).toList ∧
      ofWord? (NumberLayout.file.write .double bits).toList = some (.float (UInt64.ofNat bits)) := by
  cases hd : Binary.double.decode bits with
  | nan => exact absurd hd hnan
  | infinite negative =>
    rw [write_infinite hd, Binary.decode_eq_infinite hb hd]
    exact ofWord?_infinite negative
  | finite negative m e =>
    obtain ⟨hp, hlt, hbits⟩ := Binary.decode_eq_finite hb hd
    have hread := magnitude?_magnitude hp hlt
    obtain ⟨x, ⟨whole, part, htext, hw, hne, hpart, -⟩, -⟩ := NumberLayout.magnitude_isPointed hp
    obtain ⟨c, more, rfl⟩ := List.exists_cons_of_ne_nil hw.ne_nil
    have hc := hw.digits c List.mem_cons_self
    rw [write_finite hd]
    rw [htext, List.cons_append] at hread ⊢
    have hbody : ∀ d ∈ c :: (more ++ '.' :: part), d.isDigit ∨ d = '.' := by
      intro d h
      rcases List.mem_append.mp (List.cons_append ▸ h : d ∈ (c :: more) ++ '.' :: part) with h | h
      · exact .inl (hw.digits d h)
      · exact (List.mem_cons.mp h).symm.imp_left (hpart d)
    refine ⟨isPlainWord_signed hbody, ?_⟩
    rw [ofWord?_signed hc hbody, integer?_point hc (by simp)]
    have hfloat : float? (signed negative (c :: (more ++ '.' :: part))) =
        some (UInt64.ofNat bits) := by
      rw [float?, sign_signed hc]
      dsimp only
      have hletter : ∀ {d : Char} {rest : List Char}, ¬d.isDigit →
          c :: (more ++ '.' :: part) ≠ d :: rest := by
        rintro d rest hd h
        exact hd ((List.cons.inj h).1 ▸ hc)
      rw [if_neg (hletter (by decide)), if_neg (hletter (by decide)), hread]
      dsimp only
      rw [if_neg fun h => hlt.ne h.1, ← hbits]
    rw [hfloat]
    rfl

/-! ### Scalars -/

theorem ofWord?_flag (b : Bool) : IsPlainWord (toString b).toList ∧
    ofWord? (toString b).toList = some (.flag b) := by
  cases b
  · rw [show (toString false).toList = ['f', 'a', 'l', 's', 'e'] by decide]
    exact ⟨⟨by simp [isWordChar], by decide, by decide⟩, by decide⟩
  · rw [show (toString true).toList = ['t', 'r', 'u', 'e'] by decide]
    exact ⟨⟨by simp [isWordChar], by decide, by decide⟩, by decide⟩

/-- The scalars that a word shows exactly. -/
def IsWord : Scalar → Prop
  | .integer _ | .flag _ => True
  | .float bits => Binary.double.decode bits.toNat ≠ .nan
  | .text _ | .moment _ => False

theorem ofWord?_write {s : Scalar} (hs : IsWord s) :
    IsPlainWord s.write ∧ ofWord? s.write = some s := by
  cases s with
  | text => exact hs.elim
  | moment => exact hs.elim
  | integer n => exact ofWord?_integer n
  | flag b => exact ofWord?_flag b
  | float bits =>
    have hfloat := ofWord?_float bits.toNat_lt hs
    rwa [UInt64.ofNat_toNat] at hfloat

theorem head_write {s : Scalar} (hs : IsWord s) :
    ∃ c more, s.write = c :: more ∧ isWordChar c = true := by
  obtain ⟨hword, hread⟩ := ofWord?_write hs
  cases hw : s.write with
  | nil =>
    rw [hw, show ofWord? [] = none from rfl] at hread
    cases hread
  | cons c more =>
    rw [hw] at hword
    exact ⟨c, more, rfl, hword.chars c List.mem_cons_self⟩

/-- A number or a flag is read back up to the end of its word. -/
theorem read?_write {s : Scalar} (hs : IsWord s) {rest : List Char}
    (hrest : ∀ c ∈ rest.head?, isWordChar c = false) : read? (s.write ++ rest) = some (s, rest) := by
  obtain ⟨hword, hread⟩ := ofWord?_write hs
  rw [read?_word hword hrest, hread]
  rfl

-- a tenth in single precision shows the digits of its double
example : NumberLayout.file.write .double (Single.widen ⟨0x3DCCCCCD⟩) = "0.10000000149011612" := by
  decide +kernel

end Numeral
end VectorTable.Toml
