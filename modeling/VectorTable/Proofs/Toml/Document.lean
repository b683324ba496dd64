import VectorTable.Toml.Document
import VectorTable.Toml.Section
import VectorTable.Proofs.Toml.Numeral
import VectorTable.Proofs.Toml.Quotation

/-! A written document is read as the headers and pairs that it was written from. Every scanner
takes the text of its part from the front and leaves the rest, so the parts are put together by
following the text from left to right. -/
namespace VectorTable.Toml

namespace Scan

variable {α β : Type} {s rest : List Char}

theorem bind_ok {p : Scan α} {a : α} (f : α → Scan β) (h : p s = .ok (a, rest)) :
    (p >>= f) s = f a rest := by
  show (p s).bind (fun r => f r.1 r.2) = f a rest
  rw [h]
  rfl

theorem map_ok {p : Scan α} {a : α} (f : α → β) (h : p s = .ok (a, rest)) :
    (f <$> p) s = .ok (f a, rest) := by
  show (do let r ← p s; pure (f r.1, r.2) : Except TomlFault _) = _
  rw [h]
  rfl

theorem front_ok {f : List Char → Option (α × List Char)} {a : α} (h : f s = some (a, rest)) :
    front f s = .ok (a, rest) := by
  rw [front, h]

theorem get_bind (f : List Char → Scan β) : (get >>= f) s = f s s := rfl

theorem takes_self (c : Char) : takes c (c :: rest) = .ok (true, rest) := if_pos rfl

theorem takes_other {c : Char} (h : s.head? ≠ some c) : takes c s = .ok (false, s) := by
  cases s with
  | nil => rfl
  | cons d s => exact if_neg fun hd => h (congrArg some hd)

theorem expect_ok (c : Char) : expect c (c :: rest) = .ok ((), rest) :=
  bind_ok _ (takes_self c)

theorem repeated_none {step : Scan (Option α)} (h : step s = .ok (none, rest)) :
    repeated step s = .ok ([], rest) := by
  rw [repeated, h]

theorem repeated_some {step : Scan (Option α)} {a : α} {more : List α} {after : List Char}
    (h : step s = .ok (some a, after)) (hlt : after.length < s.length)
    (hmore : repeated step after = .ok (more, rest)) :
    repeated step s = .ok (a :: more, rest) := by
  rw [repeated, h]
  dsimp only
  rw [if_pos hlt, hmore]

end Scan

/-! ### Values -/

/-- What may stand after a value: a comma, a bracket or a line break. -/
def Ends (rest : List Char) : Prop := ∃ c ∈ rest.head?, c = ',' ∨ c = ']' ∨ c = '\n'

theorem ends_comma (rest : List Char) : Ends (',' :: rest) := ⟨',', rfl, .inl rfl⟩

theorem ends_bracket (rest : List Char) : Ends (']' :: rest) := ⟨']', rfl, .inr (.inl rfl)⟩

theorem ends_break (rest : List Char) : Ends ('\n' :: rest) := ⟨'\n', rfl, .inr (.inr rfl)⟩

theorem Ends.noMark {rest : List Char} (h : Ends rest) : Quotation.NoMark rest := by
  obtain ⟨c, hc, h⟩ := h
  intro d hd
  obtain rfl := Option.mem_unique hc hd
  rcases h with rfl | rfl | rfl <;> decide

theorem Ends.not_isWordChar {rest : List Char} (h : Ends rest) :
    ∀ c ∈ rest.head?, Numeral.isWordChar c = false := by
  obtain ⟨c, hc, h⟩ := h
  intro d hd
  obtain rfl := Option.mem_unique hc hd
  rcases h with rfl | rfl | rfl <;> decide

/-- The scalars that a document shows exactly. -/
def Scalar.IsExact : Scalar → Prop
  | .text _ => True
  | s => Numeral.IsWord s

theorem Scalar.isExact_cases {s : Scalar} (h : s.IsExact) :
    (∃ text, s = .text text) ∨ Numeral.IsWord s := by
  cases s with
  | text text => exact .inl ⟨text, rfl⟩
  | _ => exact .inr h

/-- What a written scalar may start with. -/
def Starts (c : Char) : Prop := c = '"' ∨ c = '\'' ∨ Numeral.isWordChar c = true

instance (c : Char) : Decidable (Starts c) := inferInstanceAs (Decidable (_ ∨ _ ∨ _))

theorem Starts.ne {c d : Char} (h : Starts c) (hd : ¬Starts d) : c ≠ d := fun he => hd (he ▸ h)

theorem Scalar.head_write {s : Scalar} (h : s.IsExact) : ∃ c more, s.write = c :: more ∧ Starts c := by
  rcases Scalar.isExact_cases h with ⟨text, rfl⟩ | hword
  · obtain ⟨c, more, hw, hc⟩ := Quotation.head_write text.toList
    exact ⟨c, more, hw, hc.imp_right .inl⟩
  · obtain ⟨c, more, hw, hc⟩ := Numeral.head_write hword
    exact ⟨c, more, hw, .inr (.inr hc)⟩

/-! ### Gaps -/

theorem dropGap_blank {c : Char} (hc : isSpace c = true ∨ c = '\n') (s : List Char) :
    dropGap (c :: s) = dropGap s := by
  conv_lhs => rw [dropGap.eq_def]
  refine if_pos ?_
  rcases hc with hc | rfl
  · rw [hc]
    rfl
  · rfl

/-- The characters that may stand in a gap or start a comment in one. -/
def gapChars : List Char := [' ', '\t', '\n', '\r', '#']

theorem isSpace_of_not_gap {c : Char} (hc : c ∉ gapChars) : isSpace c = false := by
  simp only [gapChars, List.mem_cons, not_or] at hc
  simp [isSpace, hc.1, hc.2.1]

theorem dropGap_self {c : Char} (hc : c ∉ gapChars) (s : List Char) : dropGap (c :: s) = c :: s := by
  have hspace := isSpace_of_not_gap hc
  simp only [gapChars, List.mem_cons, not_or] at hc
  obtain ⟨-, -, hbreak, hreturn, hcomment, -⟩ := hc
  rw [dropGap.eq_def]
  dsimp only
  rw [if_neg (by simp [hspace, hbreak]), if_neg (by simpa using hreturn),
    if_neg (by simpa using hcomment)]

theorem Starts.not_gap {c : Char} (h : Starts c) : c ∉ gapChars := by
  intro hc
  simp only [gapChars, List.mem_cons, List.not_mem_nil, or_false] at hc
  rcases hc with rfl | rfl | rfl | rfl | rfl <;> exact absurd h (by decide)

/-! ### Scalars -/

namespace Scan

variable {rest : List Char}

theorem scalar_text {s text : List Char} {c : Char} (hc : c = '"' ∨ c = '\'')
    (h : Quotation.read? (c :: s) = some (text, rest)) :
    scalar (c :: s) = .ok (.scalar (.text (String.ofList text)), rest) := by
  rw [scalar, get_bind]
  rcases hc with rfl | rfl
  · exact bind_ok _ (front_ok h)
  · exact bind_ok _ (front_ok h)

theorem scalar_word {s : List Char} {c : Char} {v : Scalar} (hc : Numeral.isWordChar c = true)
    (h : Numeral.read? (c :: s) = some (v, rest)) : scalar (c :: s) = .ok (.scalar v, rest) := by
  rw [scalar, get_bind]
  refine (congrFun (?_ : _ = Value.scalar <$> front Numeral.read?) _).trans (map_ok _ (front_ok h))
  split
  next he =>
    rw [(List.cons.inj he).1] at hc
    exact absurd hc (by decide)
  next he =>
    rw [(List.cons.inj he).1] at hc
    exact absurd hc (by decide)
  · rfl

theorem scalar_write {s : Scalar} (hs : s.IsExact) (hrest : Ends rest) :
    scalar (s.write ++ rest) = .ok (.scalar s, rest) := by
  rcases Scalar.isExact_cases hs with ⟨text, rfl⟩ | hword
  · have hread := Quotation.read?_write text.toList hrest.noMark
    obtain ⟨c, more, hw, hc⟩ := Quotation.head_write text.toList
    rw [Scalar.write]
    rw [hw, List.cons_append] at hread ⊢
    rw [scalar_text hc hread, String.ofList_toList]
  · have hread := Numeral.read?_write hword hrest.not_isWordChar
    obtain ⟨c, more, hw, hc⟩ := Numeral.head_write hword
    rw [hw, List.cons_append] at hread ⊢
    exact scalar_word hc hread

theorem value_scalar {c : Char} {s : List Char} (hc : Starts c) (depth : Nat) :
    value depth (c :: s) = scalar (c :: s) := by
  cases depth with
  | zero => rfl
  | succ depth =>
    rw [value, get_bind]
    refine congrFun (?_ : _ = scalar) _
    split
    next he => exact absurd (List.cons.inj he).1 (hc.ne (by decide))
    next he => exact absurd (List.cons.inj he).1 (hc.ne (by decide))
    · rfl

theorem value_write {s : Scalar} (hs : s.IsExact) (hrest : Ends rest) (depth : Nat) :
    value depth (s.write ++ rest) = .ok (.scalar s, rest) := by
  obtain ⟨c, more, hw, hc⟩ := Scalar.head_write hs
  rw [← scalar_write hs hrest, hw, List.cons_append, value_scalar hc]

/-! ### Arrays -/

theorem gap_bind {β : Type} (s : List Char) (p : Scan β) : (do gap; p) s = p (dropGap s) := rfl

theorem element_none {value : Scan Value} {s : List Char} (h : dropGap s = ']' :: rest) :
    element value s = .ok (none, ']' :: rest) := by
  rw [element, gap_bind, h]
  rfl

theorem element_some {value : Scan Value} {s after : List Char} {c : Char} {more : List Char}
    {v : Value} (h : dropGap s = c :: more) (hc : c ≠ ']') (hv : value (c :: more) = .ok (v, after))
    (hsep : separator (dropGap after) = .ok ((), rest)) : element value s = .ok (some v, rest) := by
  rw [element, gap_bind, h, get_bind]
  refine (congrFun (?_ : _ = (do
    let item ← value
    gap
    separator
    pure (some item) : Scan (Option Value))) _).trans ?_
  · split
    next he => exact absurd (List.cons.inj he).1 hc
    · rfl
  · rw [bind_ok _ hv, gap_bind, bind_ok _ hsep]
    rfl

theorem element_write {s : Scalar} (hs : s.IsExact) {text next : List Char}
    (htext : dropGap text = s.write ++ rest) (hrest : Ends rest)
    (hsep : separator (dropGap rest) = .ok ((), next)) (depth : Nat) :
    element (value depth) text = .ok (some (.scalar s), next) := by
  have hvalue := value_write hs hrest depth
  obtain ⟨c, more, hw, hc⟩ := Scalar.head_write hs
  rw [hw, List.cons_append] at htext hvalue
  exact element_some htext (hc.ne (by decide)) hvalue hsep

theorem elements_items {items : List Scalar} (hitems : ∀ s ∈ items, s.IsExact) (depth : Nat)
    (rest : List Char) : repeated (element (value depth))
      ('\n' :: (items.flatMap (fun s => "    ".toList ++ s.write ++ [',', '\n']) ++ ']' :: rest)) =
      .ok (items.map .scalar, ']' :: rest) := by
  induction items with
  | nil =>
    refine repeated_none (element_none ?_)
    rw [dropGap_blank (.inr rfl)]
    exact dropGap_self (by decide) rest
  | cons s items ih =>
    have hmore := ih fun t ht => hitems t (List.mem_cons_of_mem _ ht)
    have hs := hitems s List.mem_cons_self
    obtain ⟨c, more, hw, hc⟩ := Scalar.head_write hs
    rw [List.flatMap_cons, List.append_assoc]
    generalize items.flatMap _ ++ ']' :: rest = tail at hmore ⊢
    rw [List.append_assoc, List.append_assoc, List.cons_append, List.cons_append, List.nil_append]
    refine repeated_some (element_write hs ?_ (ends_comma ('\n' :: tail)) ?_ depth) ?_ hmore
    · rw [hw]
      simp [dropGap_blank, isSpace, dropGap_self hc.not_gap]
    · rw [dropGap_self (by decide)]
      rfl
    · simp only [List.length_cons, List.length_append]
      omega

end Scan

/-- The fields that a document shows exactly. -/
def Field.IsExact : Field → Prop
  | .one s => s.IsExact
  | .list items => ∀ s ∈ items, s.IsExact

namespace Scan

variable {rest : List Char}

theorem elements_ok {value : Scan Value} {s : List Char} {items : List Value}
    (h : repeated (element value) s = .ok (items, ']' :: rest)) :
    elements value s = .ok (.array items, rest) := by
  rw [elements, bind_ok _ h, bind_ok _ (expect_ok ']')]
  rfl

theorem value_array (depth : Nat) (s : List Char) :
    value (depth + 1) ('[' :: s) = elements (value depth) s := rfl

theorem value_field {f : Field} (hf : f.IsExact) (hrest : Ends rest) :
    value maxDepth (f.write ++ rest) = .ok (f.value, rest) := by
  have hclose : dropGap (']' :: rest) = ']' :: rest := dropGap_self (by decide) rest
  obtain ⟨depth, hdepth⟩ : ∃ depth, maxDepth = depth + 1 := ⟨_, rfl⟩
  rw [hdepth]
  rcases f with s | ⟨- | ⟨s, - | ⟨t, items⟩⟩⟩
  · exact value_write hf hrest (depth + 1)
  · exact (value_array depth _).trans (elements_ok (repeated_none (element_none hclose)))
  · have hs : s.IsExact := hf s List.mem_cons_self
    obtain ⟨c, more, hw, hc⟩ := Scalar.head_write hs
    have htext : Field.write (.list [s]) ++ rest = '[' :: (s.write ++ ']' :: rest) := by
      simp [Field.write]
    rw [htext]
    refine (value_array depth _).trans (elements_ok (repeated_some
      (element_write hs ?_ (ends_bracket rest) ?_ depth) ?_ (repeated_none (element_none hclose))))
    · rw [hw, List.cons_append, dropGap_self hc.not_gap]
    · rw [hclose]
      rfl
    · rw [hw]
      simp
  · have htext : Field.write (.list (s :: t :: items)) ++ rest = '[' :: '\n' ::
        ((s :: t :: items).flatMap (fun s => "    ".toList ++ s.write ++ [',', '\n']) ++
          ']' :: rest) := by
      simp [Field.write]
    rw [htext]
    exact (value_array depth _).trans (elements_ok (elements_items hf depth rest))

theorem head_field {f : Field} (hf : f.IsExact) :
    ∃ c more, f.write = c :: more ∧ isSpace c = false := by
  rcases f with s | ⟨- | ⟨s, - | ⟨t, items⟩⟩⟩
  · obtain ⟨c, more, hw, hc⟩ := Scalar.head_write hf
    exact ⟨c, more, hw, isSpace_of_not_gap hc.not_gap⟩
  · exact ⟨_, _, rfl, rfl⟩
  · exact ⟨_, _, rfl, rfl⟩
  · exact ⟨_, _, rfl, rfl⟩

end Scan

/-! ### Keys -/

/-- Whether a name may stand in a key without quotation marks. -/
def IsBare (name : String) : Prop := name.toList ≠ [] ∧ ∀ c ∈ name.toList, isBareKeyChar c = true

namespace Scan

variable {rest : List Char}

theorem bareKey_name {name : String} (h : IsBare name)
    (hrest : ∀ c ∈ rest.head?, isBareKeyChar c = false) :
    bareKey (name.toList ++ rest) = .ok (name.toList, rest) := by
  obtain ⟨htake, hdrop⟩ := span_append h.2 hrest
  have hspan : span isBareKeyChar (name.toList ++ rest) = .ok (name.toList, rest) := by
    rw [span, htake, hdrop]
  rw [bareKey, bind_ok _ hspan, if_neg (by simp [h.1])]
  rfl

theorem spaces_ok {s : List Char} (hs : ∀ c ∈ s, isSpace c = true)
    (hrest : ∀ c ∈ rest.head?, isSpace c = false) : spaces (s ++ rest) = .ok ((), rest) := by
  rw [spaces, (span_append hs hrest).2]

theorem isBareKeyChar_ne {c : Char} (h : isBareKeyChar c = true) :
    c ∉ gapChars ∧ c ≠ '"' ∧ c ≠ '\'' ∧ c ≠ '[' := by
  refine ⟨fun hc => ?_, ?_, ?_, ?_⟩
  · simp only [gapChars, List.mem_cons, List.not_mem_nil, or_false] at hc
    rcases hc with rfl | rfl | rfl | rfl | rfl <;> exact absurd h (by decide)
  all_goals
    rintro rfl
    exact absurd h (by decide)

theorem keyPart_name {name : String} (h : IsBare name) (blank rest : List Char)
    (hblank : ∀ c ∈ blank, isSpace c = true)
    (hrest : ∀ c ∈ rest.head?, isSpace c = false ∧ isBareKeyChar c = false) :
    keyPart (name.toList ++ (blank ++ rest)) = .ok (name, rest) := by
  have hafter : ∀ c ∈ (blank ++ rest).head?, isBareKeyChar c = false := by
    cases blank with
    | nil => exact fun c hc => (hrest c hc).2
    | cons d blank =>
      intro c hc
      obtain rfl := Option.some.inj hc
      have hd := hblank d List.mem_cons_self
      rw [isSpace, Bool.or_eq_true, beq_iff_eq, beq_iff_eq] at hd
      rcases hd with rfl | rfl <;> decide
  have hname := bareKey_name h hafter
  have hend := spaces_ok hblank fun c hc => (hrest c hc).1
  obtain ⟨c, more, hc⟩ := List.exists_cons_of_ne_nil h.1
  obtain ⟨hgap, hquote, hsingle, -⟩ := isBareKeyChar_ne (h.2 c (hc ▸ List.mem_cons_self))
  have hstart : spaces (name.toList ++ (blank ++ rest)) = .ok ((), name.toList ++ (blank ++ rest)) := by
    refine spaces_ok (s := []) (by simp) ?_
    rw [hc]
    exact fun d hd => Option.some.inj hd ▸ isSpace_of_not_gap hgap
  rw [keyPart, bind_ok _ hstart, get_bind]
  refine (congrFun (?_ : _ = (do
    let name ← bareKey
    spaces
    pure (String.ofList name) : Scan String)) _).trans ?_
  · rw [hc]
    split
    next he => exact absurd (List.cons.inj he).1 hquote
    next he => exact absurd (List.cons.inj he).1 hsingle
    · rfl
  · rw [bind_ok _ hname, bind_ok _ hend, String.ofList_toList]
    rfl

theorem nextPart_none {s : List Char} (h : s.head? ≠ some '.') : nextPart s = .ok (none, s) := by
  rw [nextPart, bind_ok _ (takes_other h)]
  rfl

theorem nextPart_some {s : List Char} {name : String} (h : keyPart s = .ok (name, rest)) :
    nextPart ('.' :: s) = .ok (some name, rest) := by
  rw [nextPart, bind_ok _ (takes_self '.')]
  exact map_ok some h

theorem key_name {name : String} (h : IsBare name) (rest : List Char) :
    key (name.toList ++ " = ".toList ++ rest) = .ok (⟨[], name⟩, '=' :: ' ' :: rest) := by
  have hpart := keyPart_name h [' '] ('=' :: ' ' :: rest)
    (by simp [isSpace]) (by simp [isSpace, isBareKeyChar])
  have htext : name.toList ++ " = ".toList ++ rest =
      name.toList ++ ([' '] ++ '=' :: ' ' :: rest) := by simp
  have hmore : nextPart ('=' :: ' ' :: rest) = .ok (none, '=' :: ' ' :: rest) :=
    nextPart_none (by simp)
  rw [htext, key, bind_ok _ hpart, bind_ok _ (repeated_none hmore)]
  rfl

theorem head_dotted (parts : List String) (rest : List Char) :
    ∀ c ∈ (parts.flatMap (fun p => '.' :: p.toList) ++ ']' :: rest).head?,
      isSpace c = false ∧ isBareKeyChar c = false := by
  cases parts <;> simp [isSpace, isBareKeyChar]

theorem repeated_nextPart {parts : List String} (h : ∀ p ∈ parts, IsBare p) (rest : List Char) :
    repeated nextPart (parts.flatMap (fun p => '.' :: p.toList) ++ ']' :: rest) =
      .ok (parts, ']' :: rest) := by
  induction parts with
  | nil => exact repeated_none (nextPart_none (by simp))
  | cons p parts ih =>
    have hmore := ih fun q hq => h q (List.mem_cons_of_mem _ hq)
    have hpart := keyPart_name (h p List.mem_cons_self) [] _ (by simp) (head_dotted parts rest)
    rw [List.flatMap_cons, List.cons_append, List.cons_append, List.append_assoc]
    refine repeated_some (nextPart_some hpart) ?_ hmore
    simp only [List.length_cons, List.length_append]
    omega

end Scan

/-- All parts of a key. -/
def Key.parts (k : Key) : List String := k.parents ++ [k.last]

/-- A key is put together from its first part and the others. -/
theorem Key.exists_parts (k : Key) : ∃ first more, k.parts = first :: more ∧
    k = more.getLast?.elim ⟨[], first⟩ fun last => ⟨first :: more.dropLast, last⟩ := by
  obtain ⟨- | ⟨first, parents⟩, last⟩ := k
  · exact ⟨last, [], rfl, rfl⟩
  · exact ⟨first, parents ++ [last], rfl, by simp⟩

/-- The keys that can be written in a header. -/
structure Key.IsBare (k : Key) : Prop where
  parts : ∀ p ∈ k.parts, Toml.IsBare p
  depth : k.parents.length < maxDepth

theorem toList_dotted (first : String) (more : List String) :
    (".".intercalate (first :: more)).toList =
      first.toList ++ more.flatMap fun p => '.' :: p.toList := by
  induction more generalizing first with
  | nil => simp
  | cons next more ih =>
    rw [String.intercalate_cons_cons, String.toList_append, ih, List.flatMap_cons]
    simp

namespace Scan

variable {rest : List Char}

theorem key_parts {k : Key} (h : k.IsBare) (rest : List Char) :
    key ((".".intercalate k.parts).toList ++ ']' :: rest) = .ok (k, ']' :: rest) := by
  obtain ⟨hparts, hdepth⟩ := h
  obtain ⟨first, more, hk, hkey⟩ := k.exists_parts
  have hlength : more.length < maxDepth := by
    have hlen := congrArg List.length hk
    simp only [Key.parts, List.length_append, List.length_cons, List.length_nil] at hlen
    omega
  rw [hk] at hparts ⊢
  have hfirst := keyPart_name (hparts first List.mem_cons_self) [] _ (by simp) (head_dotted more rest)
  have hmore := repeated_nextPart (fun p hp => hparts p (List.mem_cons_of_mem _ hp)) rest
  rw [List.nil_append] at hfirst
  rw [toList_dotted, List.append_assoc, key, bind_ok _ hfirst, bind_ok _ hmore,
    if_neg (Nat.not_le.mpr hlength), hkey]
  cases more.getLast? <;> rfl

/-! ### Lines -/

theorem lineEnd_newline (rest : List Char) : lineEnd ('\n' :: rest) = .ok ((), rest) := rfl

theorem pair_write {name : String} (hname : IsBare name) {f : Field} (hf : f.IsExact)
    (rest : List Char) :
    pair (value maxDepth) (name.toList ++ " = ".toList ++ (f.write ++ '\n' :: rest)) =
      .ok ((⟨[], name⟩, f.value), '\n' :: rest) := by
  have hvalue := value_field hf (ends_break rest)
  obtain ⟨c, more, hw, hc⟩ := head_field hf
  have hspaces : spaces (' ' :: (f.write ++ '\n' :: rest)) = .ok ((), f.write ++ '\n' :: rest) := by
    refine spaces_ok (s := [' ']) (by simp [isSpace]) ?_
    rw [hw]
    exact fun d hd => Option.some.inj hd ▸ hc
  rw [pair, bind_ok _ (key_name hname _), bind_ok _ (expect_ok '='), bind_ok _ hspaces,
    bind_ok _ hvalue]
  rfl

theorem head_bare {name : String} (h : IsBare name) (s : List Char) : ∃ c more,
    name.toList ++ s = c :: more ∧ c ∉ gapChars ∧ c ≠ '[' := by
  obtain ⟨c, more, hc⟩ := List.exists_cons_of_ne_nil h.1
  obtain ⟨hgap, -, -, hbracket⟩ := isBareKeyChar_ne (h.2 c (hc ▸ List.mem_cons_self))
  exact ⟨c, more ++ s, by rw [hc]; rfl, hgap, hbracket⟩

theorem nextStatement_some {s more : List Char} {c : Char} {line : Statement}
    (hgap : dropGap s = c :: more) (h : statement (c :: more) = .ok (line, rest)) :
    nextStatement s = .ok (some line, rest) := by
  rw [nextStatement, gap_bind, hgap, get_bind]
  exact map_ok some h

theorem nextStatement_pair {name : String} (hname : IsBare name) {f : Field} (hf : f.IsExact)
    {s : List Char} (hs : dropGap s = dropGap (name.toList ++ " = ".toList ++ (f.write ++ '\n' :: rest))) :
    nextStatement s = .ok (some (.pair ⟨[], name⟩ f.value), rest) := by
  have hpair := pair_write hname hf rest
  rw [List.append_assoc] at hs hpair
  obtain ⟨c, more, hc, hgap, hbracket⟩ :=
    head_bare hname (" = ".toList ++ (f.write ++ '\n' :: rest))
  rw [hc] at hs hpair
  rw [dropGap_self hgap] at hs
  refine nextStatement_some hs ?_
  have htakes : takes '[' (c :: more) = .ok (false, c :: more) :=
    takes_other fun h => hbracket (Option.some.inj h)
  rw [statement, bind_ok _ htakes]
  refine (bind_ok (fun line : Key × Value => do
    lineEnd
    pure (Statement.pair line.1 line.2)) hpair).trans ?_
  rw [bind_ok _ (lineEnd_newline rest)]
  rfl

theorem nextStatement_header {k : Key} (h : k.IsBare) {s : List Char} (hs : dropGap s =
      '[' :: ((".".intercalate k.parts).toList ++ ']' :: '\n' :: rest)) :
    nextStatement s = .ok (some (.header k), rest) := by
  refine nextStatement_some hs ?_
  rw [statement, bind_ok _ (takes_self '[')]
  have hheader : header ((".".intercalate k.parts).toList ++ ']' :: '\n' :: rest) =
      .ok (.header k, '\n' :: rest) := by
    obtain ⟨first, more, hk, -⟩ := k.exists_parts
    have hkey := key_parts h ('\n' :: rest)
    have hfirst := h.parts first (hk ▸ List.mem_cons_self)
    rw [hk, toList_dotted, List.append_assoc] at hkey ⊢
    obtain ⟨c, text, hc, -, hbracket⟩ := head_bare hfirst
      (more.flatMap (fun p => '.' :: p.toList) ++ ']' :: '\n' :: rest)
    rw [hc] at hkey ⊢
    have htakes : takes '[' (c :: text) = .ok (false, c :: text) :=
      takes_other fun h => hbracket (Option.some.inj h)
    rw [header, bind_ok _ htakes]
    refine (bind_ok (fun name => do
      expect ']'
      pure (Statement.header name)) hkey).trans ?_
    rw [bind_ok _ (expect_ok ']')]
    rfl
  refine (bind_ok (fun line => do
    lineEnd
    pure line) hheader).trans ?_
  rw [bind_ok _ (lineEnd_newline rest)]
  rfl

end Scan

/-! ### Documents -/

/-- A section under a key that a document shows exactly. -/
structure Section.Shows (s : Section) (k : Key) : Prop where
  path : s.path = k.parts
  bare : k.IsBare
  fields : ∀ f ∈ s.fields, IsBare f.1 ∧ f.2.IsExact

/-- The lines of a section. -/
def Section.lines (k : Key) (fields : List (String × Field)) : List Statement :=
  .header k :: fields.map fun f => .pair ⟨[], f.1⟩ f.2.value

namespace Scan

theorem repeated_fields {fields : List (String × Field)}
    (h : ∀ f ∈ fields, IsBare f.1 ∧ f.2.IsExact) {rest : List Char} {more : List Statement}
    (hmore : repeated nextStatement rest = .ok (more, [])) :
    repeated nextStatement (fields.flatMap (fun (key, field) =>
      key.toList ++ " = ".toList ++ field.write ++ ['\n']) ++ rest) =
        .ok (fields.map (fun f => .pair ⟨[], f.1⟩ f.2.value) ++ more, []) := by
  induction fields with
  | nil => exact hmore
  | cons f fields ih =>
    obtain ⟨hname, hf⟩ := h f List.mem_cons_self
    have hfields := ih fun g hg => h g (List.mem_cons_of_mem _ hg)
    rw [List.flatMap_cons, List.append_assoc]
    refine repeated_some (nextStatement_pair hname hf ?_) ?_ hfields
    · simp
    · simp only [List.length_append, List.length_cons]
      omega

theorem dropGap_breaks {blank : List Char} (h : ∀ c ∈ blank, c = '\n') (s : List Char) :
    dropGap (blank ++ s) = dropGap s := by
  induction blank with
  | nil => rfl
  | cons c blank ih =>
    rw [List.cons_append, dropGap_blank (.inr (h c List.mem_cons_self)),
      ih fun d hd => h d (List.mem_cons_of_mem _ hd)]

theorem repeated_section {s : Section} {k : Key} (h : s.Shows k) {blank : List Char}
    (hblank : ∀ c ∈ blank, c = '\n') {rest : List Char} {more : List Statement}
    (hmore : repeated nextStatement rest = .ok (more, [])) :
    repeated nextStatement (blank ++ (s.write ++ rest)) =
      .ok (Section.lines k s.fields ++ more, []) := by
  have hfields := repeated_fields h.fields hmore
  have htext : s.write ++ rest = '[' :: ((".".intercalate k.parts).toList ++ ']' :: '\n' ::
      (s.fields.flatMap (fun (key, field) =>
        key.toList ++ " = ".toList ++ field.write ++ ['\n']) ++ rest)) := by
    rw [Section.write, h.path]
    simp
  rw [htext]
  refine repeated_some (nextStatement_header h.bare ?_) ?_ hfields
  · rw [dropGap_breaks hblank, dropGap_self (by decide)]
  · simp only [List.length_append, List.length_cons]
    omega

/-- The lines of a document, section by section. -/
theorem statements_write {parts : List (Section × Key)} (h : ∀ p ∈ parts, p.1.Shows p.2)
    (blank : List Char) (hblank : ∀ c ∈ blank, c = '\n') :
    repeated nextStatement (blank ++ ['\n'].intercalate (parts.map (·.1.write))) =
      .ok (parts.flatMap fun p => Section.lines p.2 p.1.fields, []) := by
  induction parts generalizing blank with
  | nil =>
    refine repeated_none ?_
    rw [List.map_nil, List.intercalate_nil, nextStatement, gap_bind, dropGap_breaks hblank, dropGap]
    rfl
  | cons p parts ih =>
    have hp := h p List.mem_cons_self
    have hparts : ∀ q ∈ parts, q.1.Shows q.2 := fun q hq => h q (List.mem_cons_of_mem _ hq)
    rw [List.flatMap_cons]
    cases parts with
    | nil =>
      have hmore : repeated nextStatement [] = .ok ([], []) := ih hparts [] (by simp)
      have hsection := repeated_section hp hblank hmore
      rw [List.append_nil] at hsection
      rw [List.map_cons, List.map_nil, List.intercalate_singleton]
      exact hsection
    | cons q parts =>
      -- the blank line between two sections is part of the gap before the next header
      have hmore := ih hparts ['\n'] (by simp)
      rw [List.map_cons, List.map_cons, List.intercalate_cons_cons, List.append_assoc]
      exact repeated_section hp hblank hmore

end Scan

theorem dropMark_eq_self {s : List Char} (h : s.head? ≠ some '\ufeff') : dropMark s = s := by
  unfold dropMark
  split
  · exact absurd rfl h
  · rfl

/-- The tree of a written document is the one that its headers and pairs build. -/
theorem parse_writeSections {parts : List (Section × Key)} (h : ∀ p ∈ parts, p.1.Shows p.2) :
    parse (writeSections (parts.map (·.1))) =
      Value.ofStatements (parts.flatMap fun p => Section.lines p.2 p.1.fields) := by
  have hread := Scan.statements_write h [] (by simp)
  have hhead : (['\n'].intercalate (parts.map (·.1.write))).head? ≠ some '\ufeff' := by
    rcases parts with - | ⟨p, - | ⟨q, parts⟩⟩
    · simp
    · simp [Section.write]
    · simp [List.intercalate_cons_cons, Section.write]
  have htext : (writeSections (parts.map (·.1))).toList =
      ['\n'].intercalate (parts.map (·.1.write)) := by
    rw [writeSections, String.toList_ofList, List.map_map]
    rfl
  rw [parse, htext, dropMark_eq_self hhead, Scan.statements, ← List.nil_append (List.intercalate _ _),
    hread]
  rfl

end VectorTable.Toml
