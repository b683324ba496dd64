import VectorTable.Table
import VectorTable.Proofs.Tensor

/-! Selecting rows. Whether rows can be selected is a matter of the size of the matrix and of the
indices; if they can, there is a row of the matrix for each index, in the order of the indices,
and the dimensions are those of the indices with the width of a row behind them. -/
namespace VectorTable

theorem cellCount_append (dims more : List Nat) :
    cellCount (dims ++ more) = cellCount dims * cellCount more := by
  induction dims with
  | nil => simp [cellCount]
  | cons d dims ih =>
    have h : ∀ l, cellCount (d :: l) = d * cellCount l := fun _ => rfl
    rw [List.cons_append, h, h, ih, Nat.mul_assoc]

theorem pieces_append {width m : Nat} {front : List UInt8} (h : front.length = m * width) (n : Nat)
    (back : List UInt8) :
    pieces width (m + n) (front ++ back) = pieces width m front ++ pieces width n back := by
  induction m generalizing front with
  | zero =>
    rw [Nat.zero_mul] at h
    rw [List.eq_nil_of_length_eq_zero h, Nat.zero_add]
    rfl
  | succ m ih =>
    rw [Nat.succ_mul] at h
    have hw : width ≤ front.length := by omega
    have hrest : (front.drop width).length = m * width := by rw [List.length_drop]; omega
    rw [Nat.succ_add, pieces, pieces, List.take_append_of_le_length hw,
      List.drop_append_of_le_length hw, ih hrest, List.cons_append]

theorem pieces_flatMap {β : Type} {width n : Nat} {f : β → List UInt8} {l : List β}
    (h : ∀ x ∈ l, (f x).length = n * width) :
    pieces width (l.length * n) (l.flatMap f) = l.flatMap fun x => pieces width n (f x) := by
  induction l with
  | nil => simp [pieces]
  | cons x l ih =>
    rw [List.forall_mem_cons] at h
    rw [List.length_cons, Nat.succ_mul, Nat.add_comm, List.flatMap_cons, List.flatMap_cons,
      pieces_append h.1, ih h.2]

theorem take_drop_flatMap {β γ : Type} {f : β → List γ} {l : List β} {size k : Nat} {x : β}
    (h : ∀ y ∈ l, (f y).length = size) (hx : l[k]? = some x) :
    ((l.flatMap f).drop (k * size)).take size = f x := by
  induction l generalizing k with
  | nil => cases hx
  | cons y l ih =>
    rw [List.forall_mem_cons] at h
    rw [List.flatMap_cons]
    cases k with
    | zero =>
      cases hx
      rw [Nat.zero_mul, List.drop_zero, List.take_left' h.1]
    | succ k =>
      rw [Nat.succ_mul, Nat.add_comm, ← List.drop_drop, List.drop_left' h.1]
      exact ih h.2 hx

/-- The bytes of several cells in another type: cell by cell, or as they are if the type is the
same. -/
def recode (source target : ElementType) (count : Nat) (bytes : List UInt8) : List UInt8 :=
  if source = target then bytes
  else (pieces source.width count bytes).flatMap (convertCell source target)

theorem length_recode {source target : ElementType} {count : Nat} {bytes : List UInt8}
    (h : bytes.length = count * source.width) :
    (recode source target count bytes).length = count * target.width := by
  unfold recode
  split_ifs with he
  · rw [h, he]
  · rw [length_flatMap_const fun _ _ => length_convertCell _ _ _, length_pieces]

namespace Tensor

/-- The `k`-th run of `count` cells. -/
def stretch (t : Tensor) (count k : Nat) : List UInt8 :=
  (t.data.drop (k * (count * t.elementType.width))).take (count * t.elementType.width)

theorem data_convert {β : Type} {t : Tensor} {f : β → List UInt8} {l : List β} {n : Nat}
    (hdata : t.data = l.flatMap f) (hcount : cellCount t.dims = l.length * n)
    (h : ∀ x ∈ l, (f x).length = n * t.elementType.width) (type : ElementType) :
    (t.convert type).data = l.flatMap fun x => recode t.elementType type n (f x) := by
  unfold convert recode
  split_ifs with he
  · exact hdata
  · show t.cells.flatMap _ = _
    rw [cells, hdata, hcount, pieces_flatMap h, List.flatMap_assoc]

theorem convert_reshape (t : Tensor) {dims : List Nat} (h : cellCount dims = cellCount t.dims)
    (type : ElementType) : (t.reshape dims h).convert type =
      (t.convert type).reshape dims (by rw [dims_convert, h]) := by
  unfold convert
  by_cases he : t.elementType = type
  · have he' : (t.reshape dims h).elementType = type := he
    simp only [he, he', if_true]
  · have he' : ¬ (t.reshape dims h).elementType = type := he
    simp only [he, if_false, reshape, cells, h]

theorem integers_reshape (t : Tensor) {dims : List Nat} (h : cellCount dims = cellCount t.dims) :
    (t.reshape dims h).integers = t.integers := by
  rw [integers, convert_reshape, integers, cells, cells]
  simp only [reshape, dims_convert, h]

@[simp] theorem length_integers (t : Tensor) : t.integers.length = cellCount t.dims := by
  simp [integers, cells]

theorem selectRows_of_lt {t : Tensor} {rows : Nat} {tail : List Nat} {ids : List Nat}
    (hd : t.dims = rows :: tail) (hc : t.contiguous = true) (h : ∀ k ∈ ids, k < rows) :
    ∃ picked, t.selectRows ids = .ok picked ∧ picked.elementType = t.elementType ∧
      picked.dims = ids.length :: tail ∧ picked.data = ids.flatMap t.row := by
  obtain ⟨type, dims, data, c, hl⟩ := t
  dsimp only at hd hc
  subst hd hc
  have hnone : (ids.find? fun k => rows ≤ k) = none :=
    List.find?_eq_none.mpr fun k hk => by simpa using h k hk
  unfold selectRows
  dsimp only
  rw [if_pos rfl]
  split
  · rename_i hsome
    rw [hnone] at hsome
    cases hsome
  · exact ⟨_, rfl, rfl, rfl, rfl⟩

end Tensor

/-- Row numbers are the slots as they are, up to the first one that is outside. -/
theorem rowNumbers_eq (numItems : Nat) (slots : List Int) : rowNumbers numItems slots =
    match slots.find? fun slot => slot < 0 ∨ (numItems : Int) ≤ slot with
    | some slot => .error (.slotOutOfRange slot numItems)
    | none => .ok (slots.map fun slot => UInt32.ofNat slot.toNat) := by
  induction slots with
  | nil => rfl
  | cons slot rest ih =>
    rw [rowNumbers, List.find?_cons, ih]
    by_cases hs : slot < 0 ∨ (numItems : Int) ≤ slot
    · simp only [hs, if_true, decide_true]
    · simp only [hs, if_false, decide_false]
      cases rest.find? fun slot => slot < 0 ∨ (numItems : Int) ≤ slot <;> rfl

theorem rowNumbers_eq_error {numItems : Nat} {slots : List Int} {e : Error}
    (h : rowNumbers numItems slots = .error e) : ∃ slot, e = .slotOutOfRange slot numItems := by
  rw [rowNumbers_eq] at h
  split at h
  · cases h
    exact ⟨_, rfl⟩
  · cases h

/-- A slot below a count that 32 bits can hold loses nothing as a row number. -/
theorem toNat_rowNumber {numItems : Nat} {slots : List Int} (hn : numItems ≤ 2 ^ 32)
    (h : ∀ slot ∈ slots, 0 ≤ slot ∧ slot < (numItems : Int)) :
    ∀ slot ∈ slots, (UInt32.ofNat slot.toNat).toNat = slot.toNat := by
  intro slot hs
  have hb := h slot hs
  exact UInt32.toNat_ofNat_of_lt' (show slot.toNat < 2 ^ 32 by omega)

/-- What is left to do once the row numbers are there. -/
def gatherIds (indices matrix : Tensor) (plan : GatherPlan) (ids : List UInt32) :
    Run Event Error Tensor :=
  match matrix.selectRows (ids.map UInt32.toNat) with
  | .error fault => Run.fail (.tensor fault)
  | .ok picked =>
    if h : cellCount (indices.dims ++ [plan.width]) = cellCount picked.dims then do
      Run.tell (rowsGathered ids.length plan.sparseGrad)
      pure ((picked.reshape _ h).convert (.storable plan.dataType))
    else Run.fail (.tensor .dimensionsDiffer)

theorem dims_gatherIds {indices matrix out : Tensor} {plan : GatherPlan} {ids : List UInt32}
    (h : (gatherIds indices matrix plan ids).result = .ok out) :
    out.dims = indices.dims ++ [plan.width] := by
  unfold gatherIds at h
  split at h
  · cases h
  · split_ifs at h
    · cases h
      exact Tensor.dims_convert _ _
    · cases h

theorem gatherIds_eq_error {indices matrix : Tensor} {plan : GatherPlan} {ids : List UInt32}
    {e : Error} (h : (gatherIds indices matrix plan ids).result = .error e) :
    ∃ fault, e = .tensor fault := by
  unfold gatherIds at h
  split at h
  · cases h
    exact ⟨_, rfl⟩
  · split_ifs at h
    · cases h
    · cases h
      exact ⟨_, rfl⟩

/-- A matrix of the size that is asked for is not asked about its size again. -/
theorem gather_of_sides {matrix : Tensor} {plan : GatherPlan}
    (hd : matrix.dims = [plan.numItems, plan.width]) (indices : Tensor) :
    gather indices matrix plan =
      liftM (rowNumbers plan.numItems indices.integers) >>= gatherIds indices matrix plan := by
  unfold gather
  rw [Tensor.rowsCols_eq_ok.mpr hd, Run.bind_ok]
  exact if_neg (by simp)

theorem gather_ne_configuration {indices matrix : Tensor} {plan : GatherPlan} {misfit : Misfit}
    (hd : matrix.dims = [plan.numItems, plan.width]) :
    (gather indices matrix plan).result ≠ .error (.configuration misfit) := by
  intro h
  rw [gather_of_sides hd] at h
  rcases Run.bind_eq_error.mp h with hr | ⟨ids, -, hg⟩
  · obtain ⟨slot, hslot⟩ := rowNumbers_eq_error hr
    cases hslot
  · obtain ⟨fault, hfault⟩ := gatherIds_eq_error hg
    cases hfault

/-- A lone index is gathered alike with a list around it and without. -/
theorem gather_lone {indices : Tensor} (hd : indices.dims = [])
    (hone : cellCount [1] = cellCount indices.dims) (matrix : Tensor) (plan : GatherPlan) :
    (do
      let rows ← gather (indices.reshape [1] hone) matrix plan
      if hc : cellCount [plan.width] = cellCount rows.dims then pure (rows.reshape [plan.width] hc)
      else Run.fail (.tensor .dimensionsDiffer)) = gather indices matrix plan := by
  unfold gather
  rw [Tensor.integers_reshape]
  cases matrix.rowsCols with
  | error e => rfl
  | ok sides =>
    obtain ⟨rows, cols⟩ := sides
    simp only [Run.bind_ok]
    by_cases hs : rows ≠ plan.numItems ∨ cols ≠ plan.width
    · simp only [if_pos hs]
      rfl
    simp only [if_neg hs]
    cases rowNumbers plan.numItems indices.integers with
    | error e => rfl
    | ok ids =>
      simp only [Run.bind_ok]
      cases matrix.selectRows (ids.map UInt32.toNat) with
      | error fault => rfl
      | ok picked =>
        have hw : cellCount [plan.width] = cellCount [1, plan.width] := by simp [cellCount]
        have hdims : (indices.reshape [1] hone).dims ++ [plan.width] = [1, plan.width] := rfl
        simp only [hdims, hd, List.nil_append]
        by_cases hc : cellCount [plan.width] = cellCount picked.dims
        · rw [dif_pos (hw ▸ hc), dif_pos hc, Run.bind_assoc, Tensor.convert_reshape,
            Tensor.convert_reshape]
          exact congrArg _ (funext fun _ => dif_pos hw)
        · rw [dif_neg (hw ▸ hc), dif_neg hc]
          rfl

theorem Table.forward_eq {α : Type} [Item α] (t : Table α) (indices : Tensor) :
    t.forward indices = gather indices t.matrix t.plan := by
  unfold forward
  split_ifs with h
  · exact gather_lone (List.eq_nil_of_length_eq_zero h) _ _ _
  · rfl

theorem dims_gather {indices matrix out : Tensor} {plan : GatherPlan}
    (h : (gather indices matrix plan).result = .ok out) :
    out.dims = indices.dims ++ [plan.width] := by
  unfold gather at h
  obtain ⟨⟨rows, cols⟩, -, h⟩ := Run.bind_eq_ok.mp h
  dsimp only at h
  split_ifs at h
  · cases h
  · obtain ⟨ids, -, h⟩ := Run.bind_eq_ok.mp h
    exact dims_gatherIds h

/-- As many row numbers as there are cells in the index tensor, all of them inside, select the
rows that they name. -/
theorem gatherIds_of_lt (indices : Tensor) {matrix : Tensor} {plan : GatherPlan} {ids : List UInt32}
    (hd : matrix.dims = [plan.numItems, plan.width]) (hc : matrix.contiguous = true)
    (hl : ids.length = cellCount indices.dims) (h : ∀ id ∈ ids, id.toNat < plan.numItems) :
    ∃ out, (gatherIds indices matrix plan ids).result = .ok out ∧
      out.elementType = .storable plan.dataType ∧ ∀ k id, ids[k]? = some id →
        out.stretch plan.width k =
          recode matrix.elementType (.storable plan.dataType) plan.width (matrix.row id.toNat) := by
  have hrow : ∀ id ∈ ids,
      (matrix.row id.toNat).length = plan.width * matrix.elementType.width := by
    intro id hid
    rw [Tensor.length_row hd (h id hid)]
    simp [cellCount]
  obtain ⟨picked, hp, he, hpd, hdata⟩ :=
    Tensor.selectRows_of_lt hd hc (List.forall_mem_map.mpr h)
  rw [List.length_map] at hpd
  rw [List.flatMap_map] at hdata
  have hpicked : cellCount picked.dims = ids.length * plan.width := by rw [hpd, cellCount_pair]
  have hcount : cellCount (indices.dims ++ [plan.width]) = cellCount picked.dims := by
    rw [hpicked, cellCount_append, hl]
    simp [cellCount]
  refine ⟨(picked.reshape _ hcount).convert (.storable plan.dataType), ?_,
    Tensor.elementType_convert _ _, ?_⟩
  · unfold gatherIds
    rw [hp]
    exact congrArg Run.result (dif_pos hcount)
  · intro k id hk
    have htype : (picked.reshape _ hcount).elementType = matrix.elementType := he
    have hconv := Tensor.data_convert (t := picked.reshape _ hcount) hdata
      (hcount.trans hpicked) (htype ▸ hrow) (.storable plan.dataType)
    rw [htype] at hconv
    rw [Tensor.stretch, Tensor.elementType_convert, hconv]
    exact take_drop_flatMap (fun id hid => length_recode (hrow id hid)) hk

/-- `out` has for each index the row of the matrix that it addresses, in the type of the plan. -/
structure Gathered (indices matrix : Tensor) (plan : GatherPlan) (out : Tensor) : Prop where
  dims_eq : out.dims = indices.dims ++ [plan.width]
  elementType_eq : out.elementType = .storable plan.dataType
  row_eq : ∀ k slot, indices.integers[k]? = some slot → out.stretch plan.width k =
    recode matrix.elementType (.storable plan.dataType) plan.width (matrix.row slot.toNat)

theorem gather_of_inside {indices matrix : Tensor} {plan : GatherPlan}
    (hd : matrix.dims = [plan.numItems, plan.width]) (hc : matrix.contiguous = true)
    (hn : plan.numItems ≤ 2 ^ 32)
    (h : ∀ slot ∈ indices.integers, 0 ≤ slot ∧ slot < (plan.numItems : Int)) :
    ∃ out, (gather indices matrix plan).result = .ok out ∧ Gathered indices matrix plan out := by
  have hnone : (indices.integers.find? fun slot => slot < 0 ∨ (plan.numItems : Int) ≤ slot) =
      none := List.find?_eq_none.mpr fun slot hs => by
    have := h slot hs
    simp only [decide_eq_true_eq]
    omega
  have hids := toNat_rowNumber hn h
  have hlt : ∀ id ∈ indices.integers.map fun slot => UInt32.ofNat slot.toNat,
      id.toNat < plan.numItems := by
    refine List.forall_mem_map.mpr fun slot hs => ?_
    have hb := h slot hs
    rw [hids slot hs]
    omega
  obtain ⟨out, hout, he, hrows⟩ := gatherIds_of_lt indices hd hc
    (by rw [List.length_map, Tensor.length_integers]) hlt
  refine ⟨out, ?_, dims_gatherIds hout, he, ?_⟩
  · rw [gather_of_sides hd, rowNumbers_eq, hnone]
    exact hout
  · intro k slot hk
    rw [hrows k (UInt32.ofNat slot.toNat) (by rw [List.getElem?_map, hk, Option.map_some]),
      hids slot (List.mem_of_getElem? hk)]

/-- A matrix of another size than the plan says is refused whatever the indices are; then the
first index outside the table is reported; and if there is none, the answer is made of the rows
addressed. A table gathers that way by any index tensor, a lone index included, and the shape of
its answer is the one that it announces. -/
theorem gather_selects (indices : Tensor) {matrix : Tensor} {rows cols : Nat} {plan : GatherPlan}
    (hd : matrix.dims = [rows, cols]) (hc : matrix.contiguous = true)
    (hn : plan.numItems ≤ maxSlot.toNat + 1) :
    (rows ≠ plan.numItems ∨ cols ≠ plan.width → (gather indices matrix plan).result =
      .error (.configuration (.matrixSize rows cols plan.numItems plan.width))) ∧
    (rows = plan.numItems → cols = plan.width →
      (∀ slot, (indices.integers.find? fun slot => slot < 0 ∨ (plan.numItems : Int) ≤ slot) =
        some slot → (gather indices matrix plan).result =
          .error (.slotOutOfRange slot plan.numItems)) ∧
      ((∀ slot ∈ indices.integers, 0 ≤ slot ∧ slot < (plan.numItems : Int)) →
        ∃ out, (gather indices matrix plan).result = .ok out ∧
          Gathered indices matrix plan out)) ∧
    ∀ {α : Type} [Item α] (t : Table α), t.forward indices = gather indices t.matrix t.plan ∧
      ∀ out, (t.forward indices).result = .ok out →
        Shape.ofSizes out.dims = t.outputShape (Shape.ofSizes indices.dims) ∧
        (indices.dims = [] → out.dims = [t.width]) := by
  refine ⟨?_, ?_, ?_⟩
  · intro hs
    unfold gather
    rw [Tensor.rowsCols_eq_ok.mpr hd, Run.bind_ok]
    exact congrArg Run.result (if_pos hs)
  · rintro rfl rfl
    constructor
    · intro slot hslot
      rw [gather_of_sides hd, rowNumbers_eq, hslot]
      rfl
    · have hmax : maxSlot.toNat = 2147483647 := rfl
      exact gather_of_inside hd hc (by omega)
  · intro α _ t
    refine ⟨t.forward_eq indices, ?_⟩
    intro out ho
    rw [t.forward_eq] at ho
    have hdims := dims_gather ho
    constructor
    · rw [hdims]
      simp [Shape.ofSizes, Table.outputShape, Shape.append, Table.plan]
    · intro hnil
      rw [hdims, hnil]
      rfl

/-- The last row and then the one before it, as single precision numbers. -/
theorem gather_selects_backwards :
    let indices : Tensor := ⟨.int16, [2, 1], [2, 0, 1, 0], true, rfl⟩
    let matrix : Tensor := ⟨.storable .uint8, [3, 2], [0, 0, 1, 2, 3, 4], true, rfl⟩
    let plan : GatherPlan := ⟨2, 3, .float32, true⟩
    matrix.dims = [3, 2] ∧ matrix.contiguous = true ∧ plan.numItems ≤ maxSlot.toNat + 1 ∧
      ∃ out, (gather indices matrix plan).result = .ok out ∧ out.dims = [2, 1, 2] ∧
        out.stretch 2 0 = [0, 0, 0x40, 0x40, 0, 0, 0x80, 0x40] ∧
        out.stretch 2 1 = [0, 0, 0x80, 0x3F, 0, 0, 0, 0x40] := by
  intro indices matrix plan
  have hn : plan.numItems ≤ maxSlot.toNat + 1 := by decide
  have hints : indices.integers = [2, 1] := by decide +kernel
  obtain ⟨-, hselect, -⟩ := gather_selects indices
    (show matrix.dims = [3, 2] from rfl) rfl hn
  obtain ⟨out, ho, hg⟩ := (hselect rfl rfl).2 (by rw [hints]; decide)
  refine ⟨rfl, rfl, hn, out, ho, hg.dims_eq, ?_, ?_⟩
  · rw [hg.row_eq 0 2 (by rw [hints]; rfl)]
    decide +kernel
  · rw [hg.row_eq 1 1 (by rw [hints]; rfl)]
    decide +kernel

end VectorTable
