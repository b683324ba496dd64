import VectorTable.ConfigFile
import VectorTable.Proofs.Parameter
import VectorTable.Proofs.Toml.Tree

/-! Options are got back from the document that they were written to, but for a handler, which a
document cannot hold. Only a number that is too large keeps options from being written. -/
namespace VectorTable

open Toml (Scalar Value Field Section)

/-! ### Scalars -/

namespace Toml

theorem Scalar.ofNat?_eq_none {n : Nat} : Scalar.ofNat? n = none ↔ 2 ^ 63 ≤ n := by
  unfold Scalar.ofNat?
  split_ifs with h
  · simpa using h
  · simpa using h

theorem Scalar.ofNat?_eq_some {n : Nat} {s : Scalar} (h : Scalar.ofNat? n = some s) :
    ∃ i : Int64, s = .integer i ∧ i.toInt = n := by
  unfold Scalar.ofNat? at h
  split_ifs at h with hn
  cases h
  exact ⟨_, rfl, Int64.toInt_ofNat_of_lt hn⟩

theorem Scalar.within?_integer {low high : Int} {i : Int64} (hlow : low ≤ i.toInt)
    (hhigh : i.toInt ≤ high) : (Scalar.integer i).within? low high = some i.toInt :=
  if_pos ⟨hlow, hhigh⟩

theorem Value.size?_ofNat? {n : Nat} {s : Scalar} (h : Scalar.ofNat? n = some s) :
    (Value.scalar s).size? = some n := by
  obtain ⟨i, rfl, hi⟩ := Scalar.ofNat?_eq_some h
  have hlt := i.toInt_lt
  have hwithin : (Scalar.integer i).within? 0 (2 ^ 64 - 1) = some i.toInt :=
    Scalar.within?_integer (by omega) (by omega)
  rw [Value.size?, Value.scalar?, Option.bind_some, hwithin, hi]
  rfl

end Toml

/-! ### Items -/

/-- Items that a document gives back, all but those that are too large for it. -/
structure TomlItem.Kept (α : Type) [TomlItem α] (big : α → Prop) : Prop where
  eq_none : ∀ x : α, TomlItem.toScalar x = none ↔ big x
  back : ∀ {x : α} {s : Scalar}, TomlItem.toScalar x = some s →
    s.IsExact ∧ TomlItem.ofScalar s = some x

namespace TomlItem

theorem kept_string : Kept String fun _ => False where
  eq_none x := by simp [TomlItem.toScalar]
  back h := by
    cases h
    exact ⟨trivial, rfl⟩

/-- Natural numbers of some width are kept where a document has room for them. -/
theorem back_ofNat? {α : Type} (toNat : α → Nat) {ofInt : Int → α} {top : Int} {x : α} {s : Scalar}
    (hback : ofInt (toNat x) = x) (htop : toNat x ≤ top) (h : Scalar.ofNat? (toNat x) = some s) :
    s.IsExact ∧ (s.within? 0 top).map ofInt = some x := by
  obtain ⟨i, rfl, hi⟩ := Toml.Scalar.ofNat?_eq_some h
  refine ⟨trivial, ?_⟩
  rw [Toml.Scalar.within?_integer (by omega) (by omega), hi, Option.map_some, hback]

theorem kept_uint32 : Kept UInt32 fun _ => False where
  eq_none n := by
    have hlt := n.toNat_lt
    refine Toml.Scalar.ofNat?_eq_none.trans ?_
    simp only [iff_false]
    omega
  back {n s} h := by
    have hlt := n.toNat_lt
    refine back_ofNat? UInt32.toNat ?_ (by omega) h
    rw [UInt32.ofInt, Int.emod_eq_of_lt (by omega) (by omega), Int.toNat_natCast,
      UInt32.ofNat_toNat]

theorem kept_uint64 : Kept UInt64 fun n => 2 ^ 63 ≤ n.toNat where
  eq_none n := Toml.Scalar.ofNat?_eq_none
  back {n s} h := by
    have hlt := n.toNat_lt
    refine back_ofNat? UInt64.toNat ?_ (by omega) h
    rw [UInt64.ofInt, Int.emod_eq_of_lt (by omega) (by omega), Int.toNat_natCast,
      UInt64.ofNat_toNat]

theorem kept_int32 : Kept Int32 fun _ => False where
  eq_none n := by simp [TomlItem.toScalar]
  back {n s} h := by
    have hlow := n.le_toInt
    have hhigh := n.toInt_lt
    cases h
    refine ⟨trivial, ?_⟩
    show ((Scalar.integer n.toInt64).within? _ _).map Int32.ofInt = _
    rw [Toml.Scalar.within?_integer, Option.map_some, Int32.toInt_toInt64, Int32.ofInt_toInt]
    all_goals
      rw [Int32.toInt_toInt64]
      omega

theorem kept_int64 : Kept Int64 fun _ => False where
  eq_none n := by simp [TomlItem.toScalar]
  back {n s} h := by
    have hlow := n.le_toInt
    have hhigh := n.toInt_lt
    cases h
    refine ⟨trivial, ?_⟩
    show ((Scalar.integer n).within? _ _).map Int64.ofInt = _
    rw [Toml.Scalar.within?_integer (by omega) (by omega), Option.map_some, Int64.ofInt_toInt]

variable {α : Type} [TomlItem α] {big : α → Prop} (h : Kept α big)

include h

theorem Kept.mapM_eq_none {items : List α} :
    items.mapM (toScalar (α := α)) = none ↔ ∃ x ∈ items, big x := by
  induction items with
  | nil => simp
  | cons x items ih =>
    rw [List.mapM_cons, List.exists_mem_cons_iff, ← ih, ← h.eq_none x]
    cases toScalar x with
    | none => simp
    | some s => cases items.mapM (toScalar (α := α)) <;> simp

theorem Kept.mapM_eq_some {items : List α} {scalars : List Scalar}
    (hs : items.mapM toScalar = some scalars) : (∀ s ∈ scalars, s.IsExact) ∧
      (scalars.map Value.scalar).mapM (fun v => v.scalar?.bind ofScalar) = some items := by
  induction items generalizing scalars with
  | nil =>
    cases hs
    exact ⟨by simp, rfl⟩
  | cons x items ih =>
    rw [List.mapM_cons] at hs
    obtain ⟨s, hx, hs⟩ := Option.bind_eq_some_iff.mp hs
    obtain ⟨more, hitems, hs⟩ := Option.bind_eq_some_iff.mp hs
    cases hs
    obtain ⟨hexact, hback⟩ := h.back hx
    obtain ⟨hexacts, hbacks⟩ := ih hitems
    refine ⟨List.forall_mem_cons.mpr ⟨hexact, hexacts⟩, ?_⟩
    rw [List.map_cons, List.mapM_cons, hbacks, Toml.Value.scalar?, Option.bind_some, hback]
    rfl

end TomlItem

/-! ### Fillings -/

/-- No number of the filling is a NaN. -/
def Filling.NoNan : Filling → Prop
  | .normal a b | .uniform a b => a.value ≠ .nan ∧ b.value ≠ .nan
  | .zeros | .xavier => True

theorem widened {x : Single} (h : x.value ≠ .nan) :
    (Scalar.float (UInt64.ofNat x.widen)).IsExact ∧
      (Value.scalar (.float (UInt64.ofNat x.widen))).single? = some x := by
  obtain ⟨hnan, hlt, hback⟩ := Single.decode_widen h
  have hbits : (UInt64.ofNat x.widen).toNat = x.widen := UInt64.toNat_ofNat_of_lt' hlt
  constructor
  · show Binary.double.decode _ ≠ _
    rwa [hbits]
  · show some (Single.ofDouble _) = _
    rw [hbits, hback]

theorem Filling.toFields_bare (f : Filling) :
    (∀ field ∈ f.toFields, Toml.IsBare field.1) ∧ (f.toFields.map Prod.fst).Nodup := by
  cases f <;> simp [toFields, Toml.IsBare, Toml.isBareKeyChar]

theorem Filling.toFields_exact {f : Filling} (h : f.NoNan) : ∀ field ∈ f.toFields, field.2.IsExact := by
  cases f with
  | zeros => exact List.forall_mem_cons.mpr ⟨trivial, List.forall_mem_nil _⟩
  | xavier => exact List.forall_mem_cons.mpr ⟨trivial, List.forall_mem_nil _⟩
  | normal a b | uniform a b =>
    exact List.forall_mem_cons.mpr ⟨trivial, List.forall_mem_cons.mpr ⟨(widened h.1).1,
      List.forall_mem_cons.mpr ⟨(widened h.2).1, List.forall_mem_nil _⟩⟩⟩

theorem Filling.ofValue?_toFields {f : Filling} (h : f.NoNan) :
    ofValue? (.table .header (Toml.entriesOf f.toFields)) = some f := by
  cases f with
  | zeros => simp [ofValue?, toFields, Toml.entriesOf, Field.value]
  | xavier => simp [ofValue?, toFields, Toml.entriesOf, Field.value]
  | normal a b =>
    have ha := (widened h.1).2
    have hb := (widened h.2).2
    simp [ofValue?, toFields, Toml.entriesOf, Field.value, List.lookup, withNumbers?, ha, hb]
  | uniform a b =>
    have ha := (widened h.1).2
    have hb := (widened h.2).2
    simp [ofValue?, toFields, Toml.entriesOf, Field.value, List.lookup, withNumbers?, ha, hb]

/-! ### Documents -/

namespace Config

variable {α : Type} [Item α]

/-- Whether some number of the options is too large for a document. -/
def TooLarge (big : α → Prop) (c : Config α) : Prop :=
  2 ^ 63 ≤ c.width ∨ (∃ x ∈ c.items, big x) ∨ ∃ x ∈ c.defaultItem, big x

/-- The fields of the table with the options. -/
def fields (c : Config α) (items : List Scalar) (width : Scalar) (defaultItem : Option Scalar) :
    List (String × Field) :=
  [("items", .list items), ("embedding_size", .one width), ("data_type", .one (.text c.dataType.name)),
    ("sparse_grad", .one (.flag c.sparseGrad)), ("use_default_row", .one (.flag c.useDefaultRow))] ++
      (defaultItem.map fun s => ("default_item", Field.one s)).toList

theorem fields_bare (c : Config α) (items : List Scalar) (width : Scalar)
    (defaultItem : Option Scalar) :
    (∀ field ∈ c.fields items width defaultItem, Toml.IsBare field.1) ∧
      ((c.fields items width defaultItem).map Prod.fst).Nodup ∧
      "init" ∉ (c.fields items width defaultItem).map Prod.fst := by
  cases defaultItem <;> simp [fields, Toml.IsBare, Toml.isBareKeyChar]

theorem isExact_fields {c : Config α} {items : List Scalar} {width : Scalar}
    {defaultItem : Option Scalar} (hitems : ∀ s ∈ items, s.IsExact) (hwidth : width.IsExact)
    (hdefault : ∀ s ∈ defaultItem, s.IsExact) :
    ∀ field ∈ c.fields items width defaultItem, field.2.IsExact := by
  have hlast : ∀ field ∈ (defaultItem.map fun s => ("default_item", Field.one s)).toList,
      field.2.IsExact := by
    cases defaultItem with
    | none => exact List.forall_mem_nil _
    | some s => exact List.forall_mem_singleton.mpr (hdefault s rfl)
  simp only [fields, List.forall_mem_append, List.forall_mem_cons]
  exact ⟨⟨hitems, hwidth, trivial, trivial, trivial, List.forall_mem_nil _⟩, hlast⟩

/-- The entries of the table that the document of some options has. -/
def entries (c : Config α) (items : List Scalar) (width : Scalar) (defaultItem : Option Scalar) :
    List (String × Value) :=
  Toml.entriesOf (c.fields items width defaultItem) ++
    [("init", .table .header (Toml.entriesOf c.filling.toFields))]

theorem shows_sections {c : Config α} {items : List Scalar} {width : Scalar}
    {defaultItem : Option Scalar} (hitems : ∀ s ∈ items, s.IsExact) (hwidth : width.IsExact)
    (hdefault : ∀ s ∈ defaultItem, s.IsExact) (hnan : c.filling.NoNan) :
    Section.Shows ⟨[tableName], c.fields items width defaultItem⟩ ⟨[], tableName⟩ ∧
      Section.Shows ⟨[tableName, "init"], c.filling.toFields⟩ ⟨[tableName], "init"⟩ := by
  have htable : Toml.IsBare tableName := by
    simp [Toml.IsBare, Toml.isBareKeyChar, tableName]
  have hinit : Toml.IsBare "init" := by
    simp [Toml.IsBare, Toml.isBareKeyChar]
  constructor
  · refine ⟨rfl, ⟨?_, by decide⟩, fun field hfield => ?_⟩
    · exact List.forall_mem_singleton.mpr htable
    · exact ⟨(c.fields_bare items width defaultItem).1 field hfield,
        isExact_fields hitems hwidth hdefault field hfield⟩
  · refine ⟨rfl, ⟨?_, by decide⟩, fun field hfield => ?_⟩
    · exact List.forall_mem_cons.mpr ⟨htable, List.forall_mem_singleton.mpr hinit⟩
    · exact ⟨c.filling.toFields_bare.1 field hfield, Filling.toFields_exact hnan field hfield⟩

/-- The document of some options is one table with the filling in a table at its end. -/
theorem parse_sections {c : Config α} {items : List Scalar} {width : Scalar}
    {defaultItem : Option Scalar} (hitems : ∀ s ∈ items, s.IsExact) (hwidth : width.IsExact)
    (hdefault : ∀ s ∈ defaultItem, s.IsExact) (hnan : c.filling.NoNan) :
    Toml.parse (Toml.writeSections [⟨[tableName], c.fields items width defaultItem⟩,
      ⟨[tableName, "init"], c.filling.toFields⟩]) =
      .ok (.table .header [(tableName, .table .header (c.entries items width defaultItem))]) := by
  obtain ⟨hfirst, hsecond⟩ := shows_sections hitems hwidth hdefault hnan
  obtain ⟨-, hnodup, hfresh⟩ := c.fields_bare items width defaultItem
  have hshows : ∀ p ∈ [((⟨[tableName], c.fields items width defaultItem⟩ : Section),
      (⟨[], tableName⟩ : Toml.Key)), (⟨[tableName, "init"], c.filling.toFields⟩,
      ⟨[tableName], "init"⟩)], p.1.Shows p.2 :=
    List.forall_mem_cons.mpr ⟨hfirst, List.forall_mem_singleton.mpr hsecond⟩
  have hparse := Toml.parse_writeSections hshows
  rw [List.flatMap_cons, List.flatMap_singleton,
    Toml.ofStatements_nested hnodup hfresh c.filling.toFields_bare.2] at hparse
  exact hparse

variable [TomlItem α] {big : α → Prop}

theorem toSections?_eq (c : Config α) : c.toSections? =
    (c.items.mapM TomlItem.toScalar).bind fun items => (Scalar.ofNat? c.width).bind fun width =>
      (c.defaultItem.mapM TomlItem.toScalar).bind fun defaultItem =>
        some [⟨[tableName], c.fields items width defaultItem⟩,
          ⟨[tableName, "init"], c.filling.toFields⟩] := by
  unfold toSections?
  cases c.items.mapM TomlItem.toScalar with
  | none => rfl
  | some items =>
    cases Scalar.ofNat? c.width with
    | none => rfl
    | some width =>
      cases c.defaultItem with
      | none => rfl
      | some x => cases hx : TomlItem.toScalar x <;> simp [hx, fields]

theorem toSections?_eq_none (h : TomlItem.Kept α big) (c : Config α) :
    c.toSections? = none ↔ c.TooLarge big := by
  have hdefault : c.defaultItem.mapM TomlItem.toScalar = none ↔ ∃ x ∈ c.defaultItem, big x := by
    cases c.defaultItem with
    | none => simp
    | some x => simp [← h.eq_none x]
  rw [toSections?_eq, TooLarge, ← h.mapM_eq_none, ← hdefault, ← Toml.Scalar.ofNat?_eq_none]
  cases c.items.mapM TomlItem.toScalar with
  | none => simp
  | some items =>
    cases Scalar.ofNat? c.width with
    | none => simp
    | some width => cases c.defaultItem.mapM TomlItem.toScalar <;> simp

theorem toToml_eq_error (h : TomlItem.Kept α big) (c : Config α) {e : Error} :
    c.toToml = .error e ↔ e = .tomlSerialize ∧ c.TooLarge big := by
  rw [← toSections?_eq_none h, toToml]
  cases c.toSections? <;> simp [eq_comm]

theorem fieldOr_some {β : Type} {entries : List (String × Value)} {name : String} {v : Value}
    (h : entries.lookup name = some v) (read : Value → Option β) (default : β) :
    fieldOr entries name read default = read v := by
  rw [fieldOr, h]

theorem ofValue?_fields {c : Config α} {items : List Scalar} {width : Scalar}
    {defaultItem : Option Scalar}
    (hitems : (items.map Value.scalar).mapM (fun v => v.scalar?.bind TomlItem.ofScalar) = some c.items)
    (hwidth : (Value.scalar width).size? = some c.width)
    (hdefault : fieldOr (c.entries items width defaultItem) "default_item"
      (fun v => (v.scalar?.bind TomlItem.ofScalar).map some) none = some c.defaultItem)
    (hnan : c.filling.NoNan) (hhandler : c.handler = none) :
    ofValue? (.table .header (c.entries items width defaultItem)) = some c := by
  have hinit : (c.entries items width defaultItem).lookup "init" =
      some (.table .header (Toml.entriesOf c.filling.toFields)) := by
    cases defaultItem <;> rfl
  have hfilling := fieldOr_some hinit Filling.ofValue? .xavier
  rw [Filling.ofValue?_toFields hnan] at hfilling
  have htype : fieldOr (c.entries items width defaultItem) "data_type" Value.dataType? .float32 =
      some c.dataType := (DataType.ofName?_eq_some.mpr rfl : DataType.ofName? c.dataType.name = _)
  have hlist : fieldOr (c.entries items width defaultItem) "items" itemsOf? [] = some c.items := hitems
  have hsize : fieldOr (c.entries items width defaultItem) "embedding_size" Value.size? 0 =
      some c.width := hwidth
  have hgrad : fieldOr (c.entries items width defaultItem) "sparse_grad" Value.flag? true =
      some c.sparseGrad := rfl
  have hrow : fieldOr (c.entries items width defaultItem) "use_default_row" Value.flag? false =
      some c.useDefaultRow := rfl
  simp only [ofValue?, Value.fields?, Option.bind_eq_bind, Option.bind_some, hlist, hsize, htype,
    hgrad, hrow, hdefault, hfilling, ← hhandler]

/-- The default item, which is absent in a document if there is none. -/
theorem defaultItem_kept (h : TomlItem.Kept α big) {c : Config α} {defaultItem : Option Scalar}
    (hdefault : c.defaultItem.mapM TomlItem.toScalar = some defaultItem) (items : List Scalar)
    (width : Scalar) : (∀ s ∈ defaultItem, s.IsExact) ∧
      fieldOr (c.entries items width defaultItem) "default_item"
        (fun v => (v.scalar?.bind TomlItem.ofScalar).map some) none = some c.defaultItem := by
  cases hd : c.defaultItem with
  | none =>
    rw [hd] at hdefault
    obtain rfl : none = defaultItem := Option.some.inj hdefault
    exact ⟨by simp, rfl⟩
  | some x =>
    rw [hd] at hdefault
    obtain ⟨s, hs, rfl⟩ := Option.map_eq_some_iff.mp hdefault
    obtain ⟨hexact, hback⟩ := h.back hs
    exact ⟨by simpa using hexact, congrArg (Option.map some) hback⟩

/-- What is written is read back. -/
theorem ofToml_of_toToml (h : TomlItem.Kept α big) {c : Config α} {text : String}
    (htext : c.toToml = .ok text) (hhandler : c.handler = none) (hnan : c.filling.NoNan) :
    ofToml text = .ok c := by
  cases hsections : c.toSections? with
  | none =>
    rw [toToml, hsections] at htext
    cases htext
  | some sections =>
    rw [toToml, hsections] at htext
    cases htext
    rw [toSections?_eq] at hsections
    obtain ⟨items, hitems, hsections⟩ := Option.bind_eq_some_iff.mp hsections
    obtain ⟨width, hwidth, hsections⟩ := Option.bind_eq_some_iff.mp hsections
    obtain ⟨defaultItem, hdefault, hsections⟩ := Option.bind_eq_some_iff.mp hsections
    cases hsections
    obtain ⟨hexact, hback⟩ := h.mapM_eq_some hitems
    obtain ⟨hdefaultExact, hdefaultBack⟩ := defaultItem_kept h hdefault items width
    have hwidthExact : width.IsExact := by
      obtain ⟨i, rfl, -⟩ := Toml.Scalar.ofNat?_eq_some hwidth
      trivial
    have hdocument := parse_sections hexact hwidthExact hdefaultExact hnan
    have hlookup : [(tableName, Value.table .header (c.entries items width defaultItem))].lookup
        tableName = some (.table .header (c.entries items width defaultItem)) :=
      List.lookup_cons_self
    have hvalue := ofValue?_fields hback (Toml.Value.size?_ofNat? hwidth) hdefaultBack hnan hhandler
    rw [ofToml, hdocument]
    dsimp only
    rw [hlookup, Option.bind_some, hvalue]

/-- That options with one type of items keep all that a document can hold: they are written unless
a number is too large, and they are read back as they were, unless they have a handler or a NaN. -/
def KeptByToml (α : Type) [Item α] [TomlItem α] (big : α → Prop) : Prop :=
  ∀ c : Config α,
    (c.toToml = .error .tomlSerialize ↔ c.TooLarge big) ∧
    (∀ e, c.toToml = .error e → e = .tomlSerialize) ∧
    ∀ text, c.toToml = .ok text → c.handler = none → c.filling.NoNan → ofToml text = .ok c

theorem keptByToml (h : TomlItem.Kept α big) : KeptByToml α big := by
  intro c
  refine ⟨?_, fun e he => ((toToml_eq_error h c).mp he).1, fun text htext hhandler hnan =>
    ofToml_of_toToml h htext hhandler hnan⟩
  rw [toToml_eq_error h]
  exact and_iff_right rfl

/-- Options with items of any type are got back from their document. Only an item that is an
unsigned number of 64 bits can itself be too large. -/
theorem keptByToml_of_types :
    KeptByToml String (fun _ => False) ∧ KeptByToml UInt32 (fun _ => False) ∧
    KeptByToml UInt64 (fun n => 2 ^ 63 ≤ n.toNat) ∧ KeptByToml Int32 (fun _ => False) ∧
    KeptByToml Int64 (fun _ => False) :=
  ⟨keptByToml TomlItem.kept_string, keptByToml TomlItem.kept_uint32,
    keptByToml TomlItem.kept_uint64, keptByToml TomlItem.kept_int32, keptByToml TomlItem.kept_int64⟩

/-- Options whose items have quotation marks, a backslash, a line break or nothing in them. -/
def quoted : Config String where
  items := ["say \"hi\"", "it's \"\"\"", "a\\b\n", ""]
  width := 3
  defaultItem := some "\t'\x01"
  filling := .uniform ⟨0xBF000000⟩ ⟨0x3F000000⟩

/-- Options with an item that is too large. -/
def oversized : Config UInt64 where
  items := [1, 0xFFFFFFFFFFFFFFFF]

theorem keptByToml_quoted : quoted.filling.NoNan ∧
    (∃ text, quoted.toToml = .ok text ∧ ofToml text = .ok quoted) ∧
    oversized.toToml = .error .tomlSerialize := by
  obtain ⟨hstring, -, hword, -⟩ := keptByToml_of_types
  have hnan : quoted.filling.NoNan := ⟨by decide, by decide⟩
  obtain ⟨herror, honly, hread⟩ := hstring quoted
  have hsmall : ¬quoted.TooLarge fun _ => False := by
    simp [TooLarge, quoted]
  refine ⟨hnan, ?_, ?_⟩
  · cases htext : quoted.toToml with
    | ok text => exact ⟨text, rfl, hread text htext rfl hnan⟩
    | error e =>
      rw [honly e htext] at htext
      exact absurd (herror.mp htext) hsmall
  · exact (hword oversized).1.mpr (.inr (.inl ⟨0xFFFFFFFFFFFFFFFF, by simp [oversized], by decide⟩))

end Config
end VectorTable
