import VectorTable.Proofs.Gather
import VectorTable.Proofs.Persisted

/-! Index and matrix of a table fit together, whatever the table has been
through. Every way to get a table makes it coherent, every load and every change
of the gradient flag keeps it so. -/
namespace VectorTable.Table

variable {α : Type} [Item α]

/-- The index numbers the rows of the matrix, and all parts are such as files
can hold. -/
structure Coherent (t : Table α) : Prop where
  index : t.index.Valid
  slots : SlotsFit t.index.entries
  matrix : ∃ type, t.matrix.Storable type t.index.numItems t.width
  inputShapes : Shape.AllStorable t.inputShapes

theorem allStorable_defaultShapes : Shape.AllStorable defaultShapes := by
  refine ⟨by decide, ?_⟩
  intro s hs
  rw [List.mem_singleton.mp hs]
  exact ⟨by decide, by decide⟩

theorem matrixDataType_eq_ok {matrix : Tensor} {type : DataType} :
    matrixDataType matrix = .ok type ↔ matrix.elementType = .storable type := by
  unfold matrixDataType
  cases h : matrix.elementType with
  | storable type' => simp [ElementType.dataType?]
  | int16 => simp [ElementType.dataType?]
  | int32 => simp [ElementType.dataType?]

variable [DecidableEq α]

theorem ofConfig_eq_ok {config : Config α} {noise : Noise} {t : Table α} :
    (ofConfig config noise).result = .ok t ↔ ∃ fallthrough index matrix,
      config.validate = .ok () ∧ config.fallthrough = .ok fallthrough ∧
      (Index.ofItems config.items).result = .ok index ∧
      config.filling.matrix noise config.dataType index.numItems config.width = .ok matrix ∧
      t = ⟨index, matrix, config.width, config.dataType, config.sparseGrad, fallthrough,
        defaultShapes⟩ := by
  unfold ofConfig
  constructor
  · intro h
    obtain ⟨⟨⟩, hv, h⟩ := Run.bind_eq_ok.mp h
    obtain ⟨fallthrough, hf, h⟩ := Run.bind_eq_ok.mp h
    obtain ⟨index, hi, h⟩ := Run.bind_eq_ok.mp h
    obtain ⟨matrix, hm, h⟩ := Run.bind_eq_ok.mp h
    obtain ⟨-, -, h⟩ := Run.bind_eq_ok.mp h
    cases h
    exact ⟨fallthrough, index, matrix, hv, hf, hi, hm, rfl⟩
  · rintro ⟨fallthrough, index, matrix, hv, hf, hi, hm, rfl⟩
    refine Run.bind_eq_ok.mpr ⟨(), hv, Run.bind_eq_ok.mpr ⟨fallthrough, hf, ?_⟩⟩
    refine Run.bind_eq_ok.mpr ⟨index, hi, Run.bind_eq_ok.mpr ⟨matrix, hm, ?_⟩⟩
    exact Run.bind_eq_ok.mpr ⟨(), rfl, rfl⟩

theorem coherent_of_ofConfig {config : Config α} {noise : Noise} {t : Table α}
    (h : (ofConfig config noise).result = .ok t) : t.Coherent := by
  obtain ⟨fallthrough, index, matrix, -, -, hi, hm, rfl⟩ := ofConfig_eq_ok.mp h
  have hdense := Index.dense_of_ofItems hi
  obtain ⟨he, hd⟩ := Filling.matrix_eq_ok hm
  exact ⟨hdense.valid, fun e he => hdense.slot_le he, ⟨_, he, hd⟩, allStorable_defaultShapes⟩

/-- What becomes of a trained matrix with a row for every slot, or for every item. -/
def Aligns (matrix : Tensor) (rows items : Nat) (aligned : Tensor) : Prop :=
  rows = items + 1 ∧ aligned = matrix ∨
    rows = items ∧ Migration.prependZeroRow matrix = .ok aligned

omit [Item α] [DecidableEq α] in
theorem alignRows_eq_ok {index : Index α} {matrix aligned : Tensor} {rows : Nat}
    (hn : index.numItems = index.size + 1) : (alignRows index matrix rows).result = .ok aligned ↔
      Aligns matrix rows index.size aligned := by
  unfold alignRows Aligns
  rw [hn]
  split_ifs with h1 h2
  · have h2 : ¬ rows = index.size := by omega
    simp [h1, eq_comm]
  · rw [Run.result_bind, Run.result_tell]
    constructor
    · exact fun h => .inr ⟨h2, h⟩
    · rintro (⟨h, -⟩ | ⟨-, h⟩)
      · exact absurd h h1
      · exact h
  · simp [h1, h2]

theorem Aligns.dims_eq {matrix aligned : Tensor} {rows cols items : Nat}
    (h : Aligns matrix rows items aligned) (hd : matrix.dims = [rows, cols]) :
    aligned.dims = [items + 1, cols] := by
  rcases h with ⟨hr, rfl⟩ | ⟨hr, h⟩
  · rw [hd, hr]
  · rw [(Migration.prepended_of_dims hd h).dims_eq, hr]

theorem ofPretrained_eq_ok {matrix : Tensor} {items : List α} {fallthrough : Fallthrough α}
    {t : Table α} : (ofPretrained matrix items fallthrough).result = .ok t ↔
      ∃ index rows cols aligned type, (Index.ofItems items).result = .ok index ∧
        matrix.dims = [rows, cols] ∧ 1 ≤ cols ∧ Aligns matrix rows index.size aligned ∧
        aligned.elementType = .storable type ∧
        t = ⟨index, aligned, cols, type, true, fallthrough, defaultShapes⟩ := by
  unfold ofPretrained
  constructor
  · intro h
    obtain ⟨index, hi, h⟩ := Run.bind_eq_ok.mp h
    obtain ⟨⟨rows, cols⟩, hd, h⟩ := Run.bind_eq_ok.mp h
    dsimp only at h
    split_ifs at h with h0
    · cases h
    · obtain ⟨aligned, ha, h⟩ := Run.bind_eq_ok.mp h
      obtain ⟨type, ht, h⟩ := Run.bind_eq_ok.mp h
      obtain ⟨-, -, h⟩ := Run.bind_eq_ok.mp h
      cases h
      have hn := (Index.dense_of_ofItems hi).numItems_eq
      exact ⟨index, rows, cols, aligned, type, hi, Tensor.rowsCols_eq_ok.mp hd,
        Nat.one_le_iff_ne_zero.mpr h0, (alignRows_eq_ok hn).mp ha, matrixDataType_eq_ok.mp ht, rfl⟩
  · rintro ⟨index, rows, cols, aligned, type, hi, hd, hc, ha, ht, rfl⟩
    have hn := (Index.dense_of_ofItems hi).numItems_eq
    refine Run.bind_eq_ok.mpr ⟨index, hi, ?_⟩
    refine Run.bind_eq_ok.mpr ⟨(rows, cols), Tensor.rowsCols_eq_ok.mpr hd, ?_⟩
    dsimp only
    rw [if_neg (Nat.one_le_iff_ne_zero.mp hc)]
    refine Run.bind_eq_ok.mpr ⟨aligned, (alignRows_eq_ok hn).mpr ha, ?_⟩
    refine Run.bind_eq_ok.mpr ⟨type, matrixDataType_eq_ok.mpr ht, ?_⟩
    exact Run.bind_eq_ok.mpr ⟨(), rfl, rfl⟩

theorem coherent_of_ofPretrained {matrix : Tensor} {items : List α} {fallthrough : Fallthrough α}
    {t : Table α} (h : (ofPretrained matrix items fallthrough).result = .ok t) : t.Coherent := by
  obtain ⟨index, rows, cols, aligned, type, hi, hd, -, ha, ht, rfl⟩ := ofPretrained_eq_ok.mp h
  have hdense := Index.dense_of_ofItems hi
  have hdims := ha.dims_eq hd
  rw [← hdense.numItems_eq] at hdims
  exact ⟨hdense.valid, fun e he => hdense.slot_le he, ⟨type, ht, hdims⟩, allStorable_defaultShapes⟩

omit [DecidableEq α] [Item α] in
/-- A matrix of storable cells has a type for the table to fall back on. -/
theorem exists_dataTypeAfter {p : Persisted α} {type : DataType}
    (h : p.matrix.elementType = .storable type) : ∃ dataType, dataTypeAfter p = .ok dataType := by
  unfold dataTypeAfter
  cases p.dataType with
  | some dataType => exact ⟨dataType, rfl⟩
  | none => exact ⟨type, matrixDataType_eq_ok.mpr h⟩

/-- The table that a file makes of a table, if the two go together. -/
def applied (t : Table α) (p : Persisted α) : Except Error (Table α) := do
  let index ← t.indexAfter p
  let dataType ← dataTypeAfter p
  .ok ⟨index, p.matrix, p.width, dataType, p.sparseGrad.getD t.sparseGrad, t.fallthrough,
    p.inputShapes.getD t.inputShapes⟩

omit [DecidableEq α] in
theorem run_assign (t : Table α) (p : Persisted α) (index : Index α) (dataType : DataType) :
    (assign p index dataType).run t =
      (.ok (), ⟨index, p.matrix, p.width, dataType, p.sparseGrad.getD t.sparseGrad, t.fallthrough,
        p.inputShapes.getD t.inputShapes⟩) := by
  unfold assign
  cases p.sparseGrad <;> cases p.inputShapes <;> rfl

/-- Taking in a file makes that table of the one it works on. Where it fails, it has not come to
the first of its changes. -/
theorem apply_eq (t : Table α) (p : Persisted α) :
    t.apply p = ((t.applied p).toOption.getD t, (t.applied p).map fun _ => ()) := by
  have hrun : (takeIn p).run t = (liftM (t.indexAfter p) >>= fun index =>
      liftM (dataTypeAfter p) >>= assign p index : Method α Unit).run t := rfl
  unfold apply applied
  rw [hrun]
  cases t.indexAfter p with
  | error e => rfl
  | ok index =>
    cases dataTypeAfter p with
    | error e => rfl
    | ok dataType => exact congrArg Prod.swap (run_assign t p index dataType)

theorem applied_eq_ok {t t' : Table α} {p : Persisted α} : t.applied p = .ok t' ↔
    ∃ index dataType, t.indexAfter p = .ok index ∧ dataTypeAfter p = .ok dataType ∧
      t' = ⟨index, p.matrix, p.width, dataType, p.sparseGrad.getD t.sparseGrad, t.fallthrough,
        p.inputShapes.getD t.inputShapes⟩ := by
  rw [applied, except_bind_eq_ok]
  constructor
  · rintro ⟨index, hi, h⟩
    obtain ⟨dataType, hd, h⟩ := except_bind_eq_ok.mp h
    cases h
    exact ⟨index, dataType, hi, hd, rfl⟩
  · rintro ⟨index, dataType, hi, hd, rfl⟩
    exact ⟨index, hi, except_bind_eq_ok.mpr ⟨dataType, hd, rfl⟩⟩

theorem indexAfter_sound {t : Table α} {p : Persisted α} {index : Index α} (hp : p.Sound)
    (hs : SlotsFit t.index.entries) (h : t.indexAfter p = .ok index) :
    index.Valid ∧ SlotsFit index.entries ∧ index.numItems = p.numItems := by
  unfold indexAfter at h
  cases hi : p.index with
  | some i =>
    rw [hi] at h
    cases h
    exact hp.index index hi
  | none =>
    rw [hi] at h
    refine ⟨Index.valid_of_ofEntries h, ?_, Index.numItems_of_ofEntries h⟩
    intro e he
    exact hs e ((Index.perm_of_ofEntries h).mem_iff.mp he)

theorem coherent_of_apply {t t' : Table α} {p : Persisted α} (hp : p.Sound)
    (hs : SlotsFit t.index.entries) (ht : Shape.AllStorable t.inputShapes)
    (h : t.applied p = .ok t') : t'.Coherent := by
  obtain ⟨index, dataType, hi, -, rfl⟩ := applied_eq_ok.mp h
  obtain ⟨hv, hf, hn⟩ := indexAfter_sound hp hs hi
  refine ⟨hv, hf, ?_, ?_⟩
  · obtain ⟨type, hm⟩ := hp.storable
    dsimp only
    rw [hn]
    exact ⟨type, hm⟩
  · cases hshapes : p.inputShapes with
    | none => exact ht
    | some shapes => exact hp.inputShapes shapes hshapes

/-- The table and what is left of the source after a load that succeeds, or its error. -/
def loaded (t : Table α) (source : Source) : Except Error (Table α × Source) :=
  (t.load source).2.result.map fun rest => (t.attempt source, rest)

theorem load_eq (t : Table α) (source : Source) :
    ((t.load source).1, (t.load source).2.result) =
      (((Persisted.read source).result >>= fun x => t.applied x.1).toOption.getD t,
        (Persisted.read source).result >>= fun x => (t.applied x.1).map fun _ => x.2) := by
  unfold load
  dsimp only
  cases (Persisted.read (α := α) source).result with
  | error e => rfl
  | ok x =>
    obtain ⟨p, rest⟩ := x
    show _ = ((t.applied p).toOption.getD t, (t.applied p).map fun _ => rest)
    dsimp only
    rw [apply_eq]
    cases t.applied p <;> rfl

/-- A load that fails leaves the table as it was. -/
theorem attempt_of_error {t : Table α} {source : Source} {e : Error}
    (h : (t.load source).2.result = .error e) : t.attempt source = t := by
  obtain ⟨htable, hresult⟩ := Prod.mk.inj (t.load_eq source)
  rw [h] at hresult
  rw [attempt, htable]
  cases hp : (Persisted.read (α := α) source).result with
  | error e => rfl
  | ok x =>
    rw [hp] at hresult
    cases ha : t.applied x.1 with
    | error e =>
      show (t.applied x.1).toOption.getD t = t
      rw [ha]
      rfl
    | ok t' =>
      have hok : .error e = (t.applied x.1).map fun _ => x.2 := hresult
      rw [ha] at hok
      cases hok

theorem loaded_eq (t : Table α) (source : Source) : t.loaded source =
    (Persisted.read source).result >>= fun x => (·, x.2) <$> t.applied x.1 := by
  obtain ⟨htable, hresult⟩ := Prod.mk.inj (t.load_eq source)
  rw [loaded, attempt, htable, hresult]
  cases (Persisted.read (α := α) source).result with
  | error e => rfl
  | ok x =>
    show ((t.applied x.1).map fun _ => x.2).map (fun rest => ((t.applied x.1).toOption.getD t, rest)) =
      (·, x.2) <$> t.applied x.1
    cases t.applied x.1 <;> rfl

theorem loaded_eq_ok {t t' : Table α} {source rest : Source} :
    t.loaded source = .ok (t', rest) ↔
      ∃ p, (Persisted.read source).result = .ok (p, rest) ∧ t.applied p = .ok t' := by
  rw [loaded_eq, except_bind_eq_ok]
  constructor
  · rintro ⟨⟨p, rest'⟩, hp, h⟩
    obtain ⟨t', ht, h⟩ := except_map_eq_ok.mp h
    cases h
    exact ⟨p, hp, ht⟩
  · rintro ⟨p, hp, ht⟩
    exact ⟨(p, rest), hp, except_map_eq_ok.mpr ⟨t', ht, rfl⟩⟩

theorem loaded_eq_error {t : Table α} {source : Source} {e : Error} :
    t.loaded source = .error e ↔ (t.load source).2.result = .error e := by
  unfold loaded
  cases (t.load source).2.result <;> simp [Except.map]

/-- The table that a file is read into when there is none yet. -/
def blank (p : Persisted α) (dataType : DataType) (fallthrough : Fallthrough α) : Table α :=
  ⟨Index.empty, p.matrix, p.width, dataType, true, fallthrough, defaultShapes⟩

theorem result_restore (source : Source) (fallthrough : Fallthrough α) :
    (restore source fallthrough).result = (Persisted.read source).result >>= fun x =>
      matrixDataType x.1.matrix >>= fun dataType =>
        (·, x.2) <$> (blank x.1 dataType fallthrough).applied x.1 := by
  unfold restore
  rw [Run.result_bind]
  congr 1
  funext x
  dsimp only
  rw [Run.result_bind, Run.result_liftM]
  congr 1
  funext dataType
  have happly := apply_eq (blank x.1 dataType fallthrough) x.1
  unfold blank at happly ⊢
  rw [happly]
  cases applied _ x.1 <;> rfl

theorem restore_eq_ok {source rest : Source} {fallthrough : Fallthrough α} {t : Table α} :
    (restore source fallthrough).result = .ok (t, rest) ↔
      ∃ p dataType, (Persisted.read source).result = .ok (p, rest) ∧
        matrixDataType p.matrix = .ok dataType ∧
        (blank p dataType fallthrough).applied p = .ok t := by
  rw [result_restore]
  constructor
  · intro h
    obtain ⟨⟨p, rest'⟩, hp, h⟩ := except_bind_eq_ok.mp h
    obtain ⟨dataType, hd, h⟩ := except_bind_eq_ok.mp h
    obtain ⟨t', ht, h⟩ := except_map_eq_ok.mp h
    cases h
    exact ⟨p, dataType, hp, hd, ht⟩
  · rintro ⟨p, dataType, hp, hd, ht⟩
    refine except_bind_eq_ok.mpr ⟨(p, rest), hp, except_bind_eq_ok.mpr ⟨dataType, hd, ?_⟩⟩
    exact except_map_eq_ok.mpr ⟨t, ht, rfl⟩

/-- Whatever is read makes a table. -/
theorem restore_of_read {source rest : Source} {p : Persisted α}
    (hp : (Persisted.read source).result = .ok (p, rest)) (fallthrough : Fallthrough α) :
    ∃ t, (restore source fallthrough).result = .ok (t, rest) := by
  have hsound := Persisted.sound_of_read hp
  obtain ⟨type, hm⟩ := hsound.storable
  have htype : matrixDataType p.matrix = .ok type := matrixDataType_eq_ok.mpr hm.elementType_eq
  have hindex : ∃ index, (blank p type fallthrough).indexAfter p = .ok index := by
    unfold indexAfter
    cases p.index with
    | some index => exact ⟨index, rfl⟩
    | none => exact ⟨_, Index.ofEntries_eq_ok.mpr ⟨hsound.numItems_pos, Assigned.nil, rfl⟩⟩
  obtain ⟨index, hi⟩ := hindex
  obtain ⟨dataType, hd⟩ := exists_dataTypeAfter hm.elementType_eq
  exact ⟨_, restore_eq_ok.mpr ⟨p, type, hp, htype, applied_eq_ok.mpr ⟨index, dataType, hi, hd, rfl⟩⟩⟩

theorem coherent_of_restore {source rest : Source} {fallthrough : Fallthrough α} {t : Table α}
    (h : (restore source fallthrough).result = .ok (t, rest)) : t.Coherent := by
  obtain ⟨p, dataType, hp, -, ht⟩ := restore_eq_ok.mp h
  refine coherent_of_apply (Persisted.sound_of_read hp) ?_ allStorable_defaultShapes ht
  intro e he
  cases he

/-- The file that a load takes in, if the load succeeds. -/
def taken? (t : Table α) (source : Source) : Option (Persisted α) :=
  match t.loaded source, (Persisted.read source).result with
  | .ok _, .ok (p, _) => some p
  | _, _ => none

/-- An attempt to load takes in a file, or it leaves the table as it was. -/
theorem attempt_cases (t : Table α) (source : Source) :
    (∃ p rest, t.taken? source = some p ∧ (Persisted.read source).result = .ok (p, rest) ∧
      t.applied p = .ok (t.attempt source)) ∨
    t.taken? source = none ∧ t.attempt source = t := by
  unfold taken?
  cases h : t.loaded source with
  | error e => exact .inr ⟨rfl, attempt_of_error (loaded_eq_error.mp h)⟩
  | ok x =>
    obtain ⟨t', rest⟩ := x
    have hattempt : t.attempt source = t' := by
      obtain ⟨rest', -, hx⟩ := except_map_eq_ok.mp h
      exact (Prod.mk.inj hx).1
    obtain ⟨p, hp, ht⟩ := loaded_eq_ok.mp h
    rw [hp, hattempt]
    exact .inl ⟨p, rest, rfl, rfl, ht⟩

theorem Coherent.attempt {t : Table α} (h : t.Coherent) (source : Source) :
    (t.attempt source).Coherent := by
  rcases t.attempt_cases source with ⟨p, rest, -, hp, ht⟩ | ⟨-, he⟩
  · exact coherent_of_apply (Persisted.sound_of_read hp) h.slots h.inputShapes ht
  · rw [he]
    exact h

/-- The tables that a program comes to hold: made in one of three ways, and then
taken through loads, failed ones among them, and changes of the gradient flag. -/
inductive Reachable : Table α → Prop
  | ofConfig {config : Config α} {noise : Noise} {t : Table α}
      (h : (ofConfig config noise).result = .ok t) : Reachable t
  | ofPretrained {matrix : Tensor} {items : List α} {fallthrough : Fallthrough α} {t : Table α}
      (h : (ofPretrained matrix items fallthrough).result = .ok t) : Reachable t
  | restore {source rest : Source} {fallthrough : Fallthrough α} {t : Table α}
      (h : (restore source fallthrough).result = .ok (t, rest)) : Reachable t
  | attempt {t : Table α} (h : Reachable t) (source : Source) : Reachable (t.attempt source)
  | withSparseGrad {t : Table α} (h : Reachable t) (sparseGrad : Bool) :
      Reachable (t.withSparseGrad sparseGrad)

theorem Reachable.coherent {t : Table α} (h : Reachable t) : t.Coherent := by
  induction h with
  | ofConfig h => exact coherent_of_ofConfig h
  | ofPretrained h => exact coherent_of_ofPretrained h
  | restore h => exact coherent_of_restore h
  | attempt h source ih => exact ih.attempt source
  | withSparseGrad h sparseGrad ih => exact ⟨ih.index, ih.slots, ih.matrix, ih.inputShapes⟩

namespace Coherent

variable {t : Table α}

theorem unembed_eq_some (h : t.Coherent) {slot : Slot} {item : α} (hs : slot ≠ reservedSlot) :
    t.unembed slot = .ok (some item) ↔ t.hasItem item = true ∧ t.embedOne item = .ok slot := by
  unfold unembed hasItem embedOne Index.contains
  rw [if_neg hs, Except.ok.injEq, h.index.item?_eq_some, ← h.index.slot?_eq_some]
  cases hi : t.index.slot? item with
  | none => simp
  | some slot' => simp

omit [DecidableEq α] in
theorem forward_ne_configuration (h : t.Coherent) (indices : Tensor) (misfit : Misfit) :
    (t.forward indices).result ≠ .error (.configuration misfit) := by
  obtain ⟨type, hm⟩ := h.matrix
  rw [forward_eq]
  exact gather_ne_configuration hm.dims_eq

end Coherent

/-- In every table there is to be had, index and matrix agree: there is a row for
each slot, the look-ups of items and of slots undo each other, and no row is out of
reach. -/
theorem reachable_agree {t : Table α} (h : t.Reachable) :
    t.matrix.dims = [t.numItems, t.width] ∧ 1 ≤ t.numItems ∧
    (∃ type, t.matrix.elementType = .storable type) ∧
    (∀ item slot, t.index.slot? item = some slot ↔ t.index.item? slot = some item) ∧
    (∀ e ∈ t.entries, t.index.slot? e.1 = some e.2 ∧ 1 ≤ e.2.toNat ∧ e.2.toNat < t.numItems ∧
      e.2 ≤ maxSlot ∧ e.2.toInt32.toInt = e.2.toNat) ∧
    (∀ slot item, slot ≠ reservedSlot → (t.unembed slot = .ok (some item) ↔
      t.hasItem item = true ∧ t.embedOne item = .ok slot)) ∧
    ∀ indices misfit, (t.forward indices).result ≠ .error (.configuration misfit) := by
  have hc := h.coherent
  obtain ⟨type, hm⟩ := hc.matrix
  refine ⟨hm.dims_eq, hc.index.numItems_pos, ⟨type, hm.elementType_eq⟩, ?_, ?_, ?_, ?_⟩
  · intro item slot
    rw [hc.index.slot?_eq_some, hc.index.item?_eq_some]
  · intro e he
    obtain ⟨h1, hn⟩ := hc.index.assigned.range e he
    exact ⟨hc.index.slot?_eq_some.mpr he, h1, hn, hc.slots e he, toInt_toInt32 (hc.slots e he)⟩
  · intro slot item hs
    exact hc.unembed_eq_some hs
  · exact hc.forward_ne_configuration

/-- One of the two items is named twice. -/
def pairConfig : Config UInt32 := { items := [5, 9, 5], width := 2, filling := .zeros }

def pair : Table UInt32 :=
  ⟨⟨[(5, 1), (9, 2)], 3⟩, Tensor.zeroed .float32 3 2, 2, .float32, true, .none, defaultShapes⟩

theorem reachable_pair : pair.Reachable := by
  have h : (ofConfig pairConfig ⟨fun _ => 0⟩).result = .ok pair := rfl
  exact .ofConfig h

theorem agree_after_failed_load :
    pair.Reachable ∧ pair.attempt ⟨[9], .endOfData⟩ = pair ∧ pair.matrix.dims = [3, 2] ∧
      pair.unembed 2 = .ok (some 9) := by
  have he : pair.attempt ⟨[9], .endOfData⟩ = pair := rfl
  obtain ⟨hd, -, -, -, -, hu, -⟩ := reachable_agree (reachable_pair.attempt ⟨[9], .endOfData⟩)
  rw [he] at hd hu
  exact ⟨reachable_pair, he, hd, (hu 2 9 (by decide)).mpr ⟨rfl, rfl⟩⟩

end VectorTable.Table
