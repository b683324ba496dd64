import VectorTable.Toml.Quotation
import Mathlib

/-! Text in quotation marks reads back as it was, whatever it holds. The style is chosen so that
every character either stands for itself or is escaped; the two things to look at are marks at
the end of a text, which stand before the closing ones, and marks in a row. -/
namespace VectorTable.Toml.Quotation

/-! ### Characters -/

theorem isPlain_of_not_isControl {c : Char} (h : isControl c = false) : isPlain c = true := by
  obtain ⟨h1, h2⟩ := Bool.or_eq_false_iff.mp h
  have hle : (' ' : Char).toNat ≤ c.toNat := by
    simpa using h1
  have hne : c ≠ '\x7f' := by
    rintro rfl
    exact absurd h2 (by decide)
  rw [isPlain, Bool.or_eq_true, Bool.and_eq_true]
  exact .inr ⟨decide_eq_true hle, decide_eq_true hne⟩

theorem isPlain_of_needsEscape {s : List Char} (h : needsEscape s = false) {c : Char} (hc : c ∈ s)
    (hne : c ≠ '\n') : isPlain c = true := by
  have hplain := List.any_eq_false.mp h c hc
  by_cases htab : c = '\t'
  · rw [htab]
    rfl
  · refine isPlain_of_not_isControl ?_
    simpa [htab, hne] using hplain

theorem scalar?_code : ∀ k < 128,
    scalar? ['0', '0', hexDigit (k / 16), hexDigit (k % 16)] = some (Char.ofNat k) := by
  decide

/-- What a character between double marks looks like: it stands for itself, or there is an escape
for it, which does not look like a joined line. -/
inductive Shown (c : Char) : List Char → Prop where
  | plain (hplain : isPlain c = true) (hmark : c ≠ '"') (hback : c ≠ '\\') : Shown c [c]
  | escape {text : List Char} (hjoined : ∀ rest, joined? (text ++ rest) = none)
      (hread : ∀ rest, escaped? (text ++ rest) = some (c, rest)) : Shown c ('\\' :: text)

theorem joined?_eq_none {d : Char} {rest : List Char} (h1 : isSpace d = false) (h2 : d ≠ '\n')
    (h3 : d ≠ '\r') : joined? (d :: rest) = none := by
  rw [joined?, List.dropWhile_cons_of_neg (by simp [h1])]
  unfold dropNewline?
  split <;> simp_all

theorem escapeChar_shown (c : Char) : Shown c (escapeChar c) := by
  unfold escapeChar
  split
  case h_8 hmark hback =>
    split
    next hcontrol =>
      have hk : c.toNat < 128 := by
        rw [isControl, Bool.or_eq_true, decide_eq_true_eq, beq_iff_eq] at hcontrol
        omega
      have hcode := scalar?_code c.toNat hk
      rw [Char.ofNat_toNat] at hcode
      refine .escape (fun rest => joined?_eq_none (by decide) (by decide) (by decide)) fun rest => ?_
      simp [escaped?, coded?, hcode]
    next hcontrol => exact .plain (isPlain_of_not_isControl (Bool.not_eq_true _ ▸ hcontrol)) hmark hback
  all_goals
    exact .escape (fun rest => joined?_eq_none (by decide) (by decide) (by decide)) fun rest => rfl

theorem Shown.head {c : Char} {text : List Char} (h : Shown c text) (rest : List Char) :
    ∃ d, (text ++ rest).head? = some d ∧ isPlain d = true ∧ d ≠ '"' := by
  cases h with
  | plain hplain hmark => exact ⟨c, rfl, hplain, hmark⟩
  | escape => exact ⟨'\\', rfl, by decide, by decide⟩

/-! ### One line -/

theorem basic?_write (s rest : List Char) :
    basic? (s.flatMap escapeChar ++ '"' :: rest) = some (s, rest) := by
  induction s with
  | nil =>
    rw [List.flatMap_nil, List.nil_append, basic?]
    rfl
  | cons c s ih =>
    rw [List.flatMap_cons, List.append_assoc]
    have hshown := escapeChar_shown c
    generalize escapeChar c = text at hshown
    cases hshown with
    | plain hplain hmark hback =>
      rw [List.cons_append, List.nil_append, basic?, if_neg hmark, if_neg hback, if_pos hplain, ih]
      rfl
    | escape hjoined hread =>
      rw [List.cons_append, basic?, if_neg (by decide), if_pos rfl]
      split
      next d after h =>
        obtain ⟨rfl, rfl⟩ := Prod.mk.inj (Option.some.inj ((hread _).symm.trans h))
        rw [ih]
        rfl
      next h => exact absurd ((hread _).symm.trans h) (by simp)

theorem literal?_write {s : List Char} (hs : ∀ c ∈ s, isPlain c = true ∧ c ≠ '\'')
    (rest : List Char) : literal? (s ++ '\'' :: rest) = some (s, rest) := by
  induction s with
  | nil => rfl
  | cons c s ih =>
    obtain ⟨hplain, hmark⟩ := hs c List.mem_cons_self
    rw [List.cons_append, literal?, if_neg hmark, if_pos hplain,
      ih fun d hd => hs d (List.mem_cons_of_mem _ hd)]
    rfl

/-! ### Several lines -/

theorem isPrefixOf_marks {mark : Char} {s : List Char} :
    [mark, mark, mark].isPrefixOf s = true ↔ ∃ more, s = mark :: mark :: mark :: more := by
  rw [List.isPrefixOf_iff_prefix]
  constructor
  · rintro ⟨more, rfl⟩
    exact ⟨more, rfl⟩
  · rintro ⟨more, rfl⟩
    exact ⟨more, rfl⟩

theorem dropNewline?_eq_none {c : Char} {rest : List Char} (h : isPlain c = true) :
    dropNewline? (c :: rest) = none := by
  unfold dropNewline?
  split
  next he =>
    rw [(List.cons.inj he).1] at h
    exact absurd h (by decide)
  next he =>
    rw [(List.cons.inj he).1] at h
    exact absurd h (by decide)
  · rfl

theorem basicLines?_close (rest : List Char) :
    basicLines? ('"' :: '"' :: '"' :: rest) = some (closing '"' rest) := by
  rw [basicLines?]
  rfl

theorem basicLines?_newline (rest : List Char) : basicLines? ('\n' :: rest) =
    (basicLines? rest).map fun (text, rest) => ('\n' :: text, rest) := by
  rw [basicLines?]
  rfl

theorem basicLines?_escape {text rest : List Char} {c : Char}
    (hjoined : joined? text = none) (hread : escaped? text = some (c, rest)) :
    basicLines? ('\\' :: text) = (basicLines? rest).map fun (text, rest) => (c :: text, rest) := by
  rw [basicLines?, if_neg (by simp), if_pos rfl]
  split
  next _ h => exact absurd (hjoined.symm.trans h) (by simp)
  next d after _ h =>
    obtain ⟨rfl, rfl⟩ := Prod.mk.inj (Option.some.inj (hread.symm.trans h))
    rfl
  next h => exact absurd (hread.symm.trans h) (by simp)

theorem basicLines?_plain {c : Char} {rest : List Char} (hplain : isPlain c = true)
    (hback : c ≠ '\\') (hmarks : ∀ more, c :: rest ≠ '"' :: '"' :: '"' :: more) :
    basicLines? (c :: rest) = (basicLines? rest).map fun (text, rest) => (c :: text, rest) := by
  rw [basicLines?, if_neg (by rw [isPrefixOf_marks]; rintro ⟨more, h⟩; exact hmarks more h),
    if_neg hback]
  split
  next after h => exact absurd ((dropNewline?_eq_none hplain).symm.trans h) (by simp)
  next => rw [if_pos hplain]

/-- A text that does not go on with a mark. -/
def NoMark (rest : List Char) : Prop := ∀ c ∈ rest.head?, c ≠ '"' ∧ c ≠ '\''

theorem closing_nil {mark : Char} {rest : List Char} (h : rest.head? ≠ some mark) :
    closing mark rest = ([], rest) := by
  unfold closing
  split
  next a b more =>
    rw [if_neg fun ha => h (congrArg some ha)]
  next a =>
    rw [if_neg fun ha => h (congrArg some ha)]
  · rfl

theorem closing_one {mark : Char} {rest : List Char} (h : rest.head? ≠ some mark) :
    closing mark (mark :: rest) = ([mark], rest) := by
  cases rest with
  | nil => exact if_pos rfl
  | cons c rest =>
    rw [closing, if_pos rfl, if_neg fun hc => h (congrArg some hc)]

theorem closing_two (mark : Char) (rest : List Char) :
    closing mark (mark :: mark :: rest) = ([mark, mark], rest) := by
  rw [closing, if_pos rfl, if_pos rfl]

/-- Where a mark is escaped or there is none, the text does not go on with one. -/
theorem head_escapeLines {s : List Char} (hs : s ≠ []) {marks : Nat}
    (hfew : marks < 2 → s.head? ≠ some '"') (rest : List Char) :
    (escapeLines marks s ++ rest).head? ≠ some '"' := by
  obtain ⟨c, s, rfl⟩ := List.exists_cons_of_ne_nil hs
  rw [escapeLines]
  split_ifs with h1 h2 h3
  · rw [h1]
    simp
  · exact absurd (congrArg some h2) (hfew h3)
  · simp
  · obtain ⟨d, hd, -, hne⟩ := (escapeChar_shown c).head (escapeLines 0 s ++ rest)
    rw [List.append_assoc, hd]
    exact fun h => hne (Option.some.inj h)

/-- The text goes on with two marks only where its own marks meet the closing ones. -/
theorem escapeLines_marks {marks : Nat} (hmarks : marks < 2) {s rest more : List Char}
    (h : escapeLines (marks + 1) s ++ '"' :: '"' :: '"' :: rest = '"' :: '"' :: more) :
    s = [] ∨ s = ['"'] ∧ marks = 0 := by
  have hhead : (escapeLines (marks + 1) s ++ '"' :: '"' :: '"' :: rest).head? = some '"' := by
    rw [h]
    rfl
  rcases s with - | ⟨d, s⟩
  · exact .inl rfl
  refine .inr ?_
  have hfew : marks + 1 < 2 ∧ d = '"' := by
    by_contra hno
    refine head_escapeLines (List.cons_ne_nil d s) (fun hlt => ?_) _ hhead
    rintro hd
    exact hno ⟨hlt, Option.some.inj hd⟩
  obtain ⟨hlt, rfl⟩ := hfew
  obtain rfl : marks = 0 := by omega
  rw [escapeLines, if_neg (by decide), if_pos rfl, if_pos (by decide)] at h
  have hnext : (escapeLines 2 s ++ '"' :: '"' :: '"' :: rest).head? = some '"' :=
    congrArg List.head? (List.cons.inj h).2
  have hs : s = [] := by
    by_contra hs
    exact head_escapeLines hs (fun h => absurd h (by decide)) _ hnext
  exact ⟨by rw [hs], rfl⟩

theorem basicLines?_write {rest : List Char} (hrest : rest.head? ≠ some '"') (s : List Char)
    (marks : Nat) (hmarks : marks ≤ 2) :
    basicLines? (escapeLines marks s ++ '"' :: '"' :: '"' :: rest) = some (s, rest) := by
  induction s generalizing marks with
  | nil =>
    rw [escapeLines, List.nil_append, basicLines?_close, closing_nil hrest]
  | cons c s ih =>
    rw [escapeLines]
    split_ifs with hnewline hmark hfew
    · rw [hnewline, List.cons_append, basicLines?_newline, ih 0 (by omega)]
      rfl
    · rw [hmark, List.cons_append]
      by_cases hend : s = [] ∨ s = ['"'] ∧ marks = 0
      · rcases hend with rfl | ⟨rfl, rfl⟩
        · rw [escapeLines, List.nil_append, basicLines?_close, closing_one hrest]
        · rw [show escapeLines (0 + 1) ['"'] = ['"'] by decide, List.cons_append, List.nil_append,
            basicLines?_close, closing_two]
      · rw [basicLines?_plain (by decide) (by decide), ih (marks + 1) (by omega)]
        · rfl
        · exact fun more h => hend (escapeLines_marks hfew (List.cons.inj h).2)
    · rw [hmark, List.cons_append, List.cons_append,
        basicLines?_escape (joined?_eq_none (by decide) (by decide) (by decide)) rfl,
        ih 0 (by omega)]
      rfl
    · rw [List.append_assoc]
      have hshown := escapeChar_shown c
      generalize escapeChar c = text at hshown
      cases hshown with
      | plain hplain _ hback =>
        rw [List.cons_append, List.nil_append, basicLines?_plain hplain hback, ih 0 (by omega)]
        · rfl
        · rintro more h
          exact hmark (List.cons.inj h).1
      | escape hjoined hread =>
        rw [List.cons_append, basicLines?_escape (hjoined _) (hread _), ih 0 (by omega)]
        rfl

theorem literalLines?_close (rest : List Char) :
    literalLines? ('\'' :: '\'' :: '\'' :: rest) = some (closing '\'' rest) := by
  rw [literalLines?]
  rfl

theorem literalLines?_newline (rest : List Char) : literalLines? ('\n' :: rest) =
    (literalLines? rest).map fun (text, rest) => ('\n' :: text, rest) := by
  rw [literalLines?]
  rfl

theorem literalLines?_plain {c : Char} {rest : List Char} (hplain : isPlain c = true)
    (hmarks : ∀ more, c :: rest ≠ '\'' :: '\'' :: '\'' :: more) :
    literalLines? (c :: rest) = (literalLines? rest).map fun (text, rest) => (c :: text, rest) := by
  rw [literalLines?, if_neg (by rw [isPrefixOf_marks]; rintro ⟨more, h⟩; exact hmarks more h)]
  split
  next after h => exact absurd ((dropNewline?_eq_none hplain).symm.trans h) (by simp)
  next => rw [if_pos hplain]

theorem hasTriple_tail {mark c : Char} {s : List Char} (h : hasTriple mark (c :: s) = false) :
    hasTriple mark s = false := by
  match s with
  | [] | [_] => rfl
  | a :: b :: rest => exact (Bool.or_eq_false_iff.mp h).2

theorem literalLines?_write {rest : List Char} (hrest : rest.head? ≠ some '\'') {s : List Char}
    (hs : needsEscape s = false) (htriple : hasTriple '\'' s = false) :
    literalLines? (s ++ '\'' :: '\'' :: '\'' :: rest) = some (s, rest) := by
  induction s with
  | nil => rw [List.nil_append, literalLines?_close, closing_nil hrest]
  | cons c s ih =>
    have hrestEscape : needsEscape s = false := by
      rw [needsEscape, List.any_cons, Bool.or_eq_false_iff] at hs
      exact hs.2
    have ih := ih hrestEscape (hasTriple_tail htriple)
    by_cases hnewline : c = '\n'
    · rw [hnewline, List.cons_append, literalLines?_newline, ih]
      rfl
    have hplain := isPlain_of_needsEscape hs List.mem_cons_self hnewline
    rw [List.cons_append]
    by_cases hend : c = '\'' ∧ (s = [] ∨ s = ['\''])
    · rcases hend with ⟨rfl, rfl | rfl⟩
      · rw [List.nil_append, literalLines?_close, closing_one hrest]
      · rw [List.cons_append, List.nil_append, literalLines?_close, closing_two]
    · rw [literalLines?_plain hplain, ih]
      · rfl
      · rintro more h
        rcases s with - | ⟨d, - | ⟨d', s⟩⟩
        · exact hend ⟨(List.cons.inj h).1, .inl rfl⟩
        · simp only [List.cons_append, List.cons.injEq] at h
          exact hend ⟨h.1, .inr (by rw [h.2.1])⟩
        · simp only [List.cons_append, List.cons.injEq] at h
          simp [hasTriple, h.1, h.2.1, h.2.2.1] at htriple

/-! ### Styles -/

theorem Style.of_literal {s : List Char} (h : Style.of s = .literal) {c : Char} (hc : c ∈ s) :
    isPlain c = true ∧ c ≠ '\'' := by
  unfold Style.of at h
  dsimp only at h
  split_ifs at h with h1 h2
  simp only [Bool.and_eq_true, Bool.not_eq_true', List.contains_eq_mem, decide_eq_false_iff_not]
    at h2
  obtain ⟨⟨hescape, hmark⟩, hnewline⟩ := h2
  refine ⟨isPlain_of_needsEscape hescape hc ?_, ?_⟩
  · rintro rfl
    exact hnewline hc
  · rintro rfl
    exact hmark hc

theorem Style.of_literalLines {s : List Char} (h : Style.of s = .literalLines) :
    needsEscape s = false ∧ hasTriple '\'' s = false := by
  unfold Style.of at h
  dsimp only at h
  split_ifs at h with h1 h2 h3 h4
  simpa using h4

theorem read?_basic {s : List Char} (h : ∀ more, s ≠ '"' :: '"' :: more) :
    read? ('"' :: s) = basic? s := by
  unfold read?
  split
  next he => exact absurd (List.cons.inj he).2 (h _)
  next he => exact absurd (List.cons.inj he).1 (by decide)
  · rfl

theorem read?_literal {s : List Char} (h : ∀ more, s ≠ '\'' :: '\'' :: more) :
    read? ('\'' :: s) = literal? s := by
  unfold read?
  split
  next he => exact absurd (List.cons.inj he).1 (by decide)
  next he => exact absurd (List.cons.inj he).2 (h _)
  · rfl

/-- The line break after the opening marks is the only one that is dropped. -/
theorem dropFirstBreak_tripled {s text : List Char}
    (h : '\n' ∉ s → ∀ c ∈ text.head?, isPlain c = true) :
    dropFirstBreak ((if s.contains '\n' then ['\n'] else []) ++ text) = text := by
  split_ifs with hbreak
  · rfl
  · have hplain := h (by simpa using hbreak)
    rw [List.nil_append, dropFirstBreak]
    cases text with
    | nil => rfl
    | cons c text =>
      rw [dropNewline?_eq_none (hplain c rfl)]
      rfl

section Read

variable {s rest : List Char}

theorem read?_basicStyle (hrest : rest.head? ≠ some '"') :
    read? ('"' :: s.flatMap escapeChar ++ ['"'] ++ rest) = some (s, rest) := by
  have htext : '"' :: s.flatMap escapeChar ++ ['"'] ++ rest =
      '"' :: (s.flatMap escapeChar ++ '"' :: rest) := by simp
  rw [htext, read?_basic]
  · exact basic?_write s rest
  · rintro more h
    cases s with
    | nil => exact hrest (congrArg List.head? (List.cons.inj h).2)
    | cons c s =>
      obtain ⟨d, hd, -, hne⟩ := (escapeChar_shown c).head (s.flatMap escapeChar ++ '"' :: rest)
      rw [List.flatMap_cons, List.append_assoc] at h
      rw [h] at hd
      exact hne (Option.some.inj hd).symm

theorem read?_literalStyle (hrest : rest.head? ≠ some '\'')
    (hs : ∀ c ∈ s, isPlain c = true ∧ c ≠ '\'') :
    read? ('\'' :: s ++ ['\''] ++ rest) = some (s, rest) := by
  have htext : '\'' :: s ++ ['\''] ++ rest = '\'' :: (s ++ '\'' :: rest) := by simp
  rw [htext, read?_literal]
  · exact literal?_write hs rest
  · rintro more h
    cases s with
    | nil => exact hrest (congrArg List.head? (List.cons.inj h).2)
    | cons c s => exact (hs c List.mem_cons_self).2 (List.cons.inj h).1

theorem read?_basicLinesStyle (hrest : rest.head? ≠ some '"') :
    read? (tripled '"' (escapeLines 0 s) s ++ rest) = some (s, rest) := by
  have hhead : '\n' ∉ s → ∀ c ∈ (escapeLines 0 s ++ '"' :: '"' :: '"' :: rest).head?,
      isPlain c = true := by
    rintro hbreak d hd
    rcases s with - | ⟨c, s⟩
    · obtain rfl := Option.some.inj hd
      decide
    have hne : c ≠ '\n' := fun h => hbreak (h ▸ List.mem_cons_self)
    rw [escapeLines, if_neg hne] at hd
    split_ifs at hd with hmark
    · obtain rfl := Option.some.inj hd
      rw [hmark]
      decide
    · omega
    · obtain ⟨d', hd', hplain, -⟩ :=
        (escapeChar_shown c).head (escapeLines 0 s ++ '"' :: '"' :: '"' :: rest)
      rw [List.append_assoc, hd'] at hd
      exact Option.some.inj hd ▸ hplain
  have hread := basicLines?_write hrest s 0 (by omega)
  rw [← dropFirstBreak_tripled hhead] at hread
  simpa [tripled, read?] using hread

theorem read?_literalLinesStyle (hrest : rest.head? ≠ some '\'') (hescape : needsEscape s = false)
    (htriple : hasTriple '\'' s = false) :
    read? (tripled '\'' s s ++ rest) = some (s, rest) := by
  have hhead : '\n' ∉ s → ∀ c ∈ (s ++ '\'' :: '\'' :: '\'' :: rest).head?,
      isPlain c = true := by
    rintro hbreak d hd
    rcases s with - | ⟨c, s⟩
    · obtain rfl := Option.some.inj hd
      decide
    · obtain rfl := Option.some.inj hd
      exact isPlain_of_needsEscape hescape List.mem_cons_self
        fun h => hbreak (h ▸ List.mem_cons_self)
  have hread := literalLines?_write hrest hescape htriple
  rw [← dropFirstBreak_tripled hhead] at hread
  simpa [tripled, read?] using hread

end Read

/-- Text in quotation marks is read back. -/
theorem read?_write (s : List Char) {rest : List Char} (hrest : NoMark rest) :
    read? (write s ++ rest) = some (s, rest) := by
  have hdouble : rest.head? ≠ some '"' := fun h => (hrest _ h).1 rfl
  have hsingle : rest.head? ≠ some '\'' := fun h => (hrest _ h).2 rfl
  unfold write
  split
  next => exact read?_basicStyle hdouble
  next hstyle => exact read?_literalStyle hsingle fun c hc => Style.of_literal hstyle hc
  next => exact read?_basicLinesStyle hdouble
  next hstyle =>
    obtain ⟨hescape, htriple⟩ := Style.of_literalLines hstyle
    exact read?_literalLinesStyle hsingle hescape htriple

-- marks of both kinds in rows of three leave only the style with escapes over several lines
example : write ['"', '"', '"', '\'', '\'', '\'', '\n'] =
    ['"', '"', '"', '\n', '"', '"', '\\', '"', '\'', '\'', '\'', '\n', '"', '"', '"'] := by
  decide

theorem head_write (s : List Char) : ∃ c more, write s = c :: more ∧ (c = '"' ∨ c = '\'') := by
  unfold write
  split
  · exact ⟨_, _, rfl, .inl rfl⟩
  · exact ⟨_, _, rfl, .inr rfl⟩
  · exact ⟨_, _, rfl, .inl rfl⟩
  · exact ⟨_, _, rfl, .inr rfl⟩

end VectorTable.Toml.Quotation
