import VectorTable.Proofs.Index

/-! How a list of items is numbered. Each item gets the slot behind those of the distinct
items before it, so an index made of items is the numbering of the list without its
repetitions; it fails only where the slots run out. A repetition leaves a warning and
nothing else. -/
namespace VectorTable

section Distinct

variable {α : Type} [DecidableEq α]

theorem eraseDups_concat_of_mem {seen : List α} {item : α} (h : item ∈ seen) :
    (seen ++ [item]).eraseDups = seen.eraseDups := by
  rw [List.eraseDups_append]
  simp [List.removeAll, h]

theorem eraseDups_concat_of_not_mem {seen : List α} {item : α} (h : item ∉ seen) :
    (seen ++ [item]).eraseDups = seen.eraseDups ++ [item] := by
  rw [List.eraseDups_append]
  simp [List.removeAll, h, List.eraseDups_cons]

theorem eraseDups_of_nodup {l : List α} (h : l.Nodup) : l.eraseDups = l := by
  induction l using List.reverseRecOn with
  | nil => rfl
  | append_singleton l a ih =>
    obtain ⟨hl, -, hd⟩ := List.nodup_append.mp h
    have ha : a ∉ l := fun hm => hd a hm a (List.mem_singleton_self a) rfl
    rw [eraseDups_concat_of_not_mem ha, ih hl]

theorem nodup_eraseDups (l : List α) : l.eraseDups.Nodup := by
  induction l using List.reverseRecOn with
  | nil => exact List.nodup_nil
  | append_singleton l a ih =>
    by_cases ha : a ∈ l
    · rwa [eraseDups_concat_of_mem ha]
    · rw [eraseDups_concat_of_not_mem ha, ← List.concat_eq_append]
      exact ih.concat fun hm => ha (List.mem_eraseDups.mp hm)

/-- The items that stand behind an equal one, with their positions, where `seen` goes before
all of them. -/
def repeatedAfter (seen items : List α) : List (α × Nat) :=
  (items.zipIdx seen.length).filter fun e => e.1 ∈ (seen ++ items).take e.2

/-- The items of a list that stand behind an equal one, with their positions in it. -/
def repeated (items : List α) : List (α × Nat) := repeatedAfter [] items

theorem repeatedAfter_cons (seen : List α) (item : α) (rest : List α) :
    repeatedAfter seen (item :: rest) =
      if item ∈ seen then (item, seen.length) :: repeatedAfter (seen ++ [item]) rest
      else repeatedAfter (seen ++ [item]) rest := by
  have hrest : repeatedAfter (seen ++ [item]) rest = (rest.zipIdx (seen.length + 1)).filter
      fun e => e.1 ∈ (seen ++ item :: rest).take e.2 := by
    rw [repeatedAfter, List.append_assoc, List.length_append, List.length_singleton]
    rfl
  rw [hrest, repeatedAfter, List.zipIdx_cons, List.filter_cons]
  simp only [List.take_left', decide_eq_true_eq]

/-- Every item is a repetition or the first of its kind. -/
theorem length_repeatedAfter (seen items : List α) :
    (repeatedAfter seen items).length + (seen ++ items).eraseDups.length =
      seen.eraseDups.length + items.length := by
  induction items generalizing seen with
  | nil => simp [repeatedAfter]
  | cons item rest ih =>
    have hrest := ih (seen ++ [item])
    rw [List.append_assoc, List.singleton_append] at hrest
    rw [repeatedAfter_cons, List.length_cons]
    split_ifs with hm
    · rw [eraseDups_concat_of_mem hm] at hrest
      rw [List.length_cons]
      omega
    · rw [eraseDups_concat_of_not_mem hm, List.length_append, List.length_singleton] at hrest
      omega

theorem length_repeated (items : List α) :
    (repeated items).length = items.length - items.eraseDups.length := by
  have h := length_repeatedAfter [] items
  rw [List.nil_append, List.eraseDups_nil, List.length_nil, Nat.zero_add] at h
  rw [repeated]
  omega

end Distinct

namespace Index

variable {α : Type}

/-- The items of a list in the slots from 1 on. -/
def numbering (l : List α) : Index α :=
  ⟨(l.zipIdx 1).map fun e => (e.1, UInt32.ofNat e.2), l.length + 1⟩

theorem size_numbering (l : List α) : (numbering l).size = l.length := by simp [size, numbering]

theorem items_numbering (l : List α) : (numbering l).entries.map Prod.fst = l := by
  have h : ∀ n, (l.zipIdx n).map Prod.fst = l := fun n => by simp
  rw [numbering, List.map_map]
  exact h 1

/-- As long as there are enough of them, the slots are the numbers from 1 on. -/
theorem slots_numbering {l : List α} (h : l.length ≤ maxSlot.toNat) :
    (numbering l).entries.map (fun e => e.2.toNat) = List.range' 1 l.length := by
  have hmax : maxSlot.toNat = 2147483647 := rfl
  rw [numbering, List.map_map, ← List.zipIdx_map_snd 1 l]
  refine List.map_congr_left fun e he => UInt32.toNat_ofNat_of_lt' ?_
  have hlt := List.snd_lt_of_mem_zipIdx he
  show e.2 < 2 ^ 32
  omega

theorem numbering_concat (l : List α) (item : α) : numbering (l ++ [item]) =
    ⟨(numbering l).entries ++ [(item, UInt32.ofNat (l.length + 1))], l.length + 2⟩ := by
  simp only [numbering, List.zipIdx_append, List.map_append, List.length_append, List.zipIdx_cons,
    List.zipIdx_nil, List.map_cons, List.map_nil, List.length_singleton, Nat.add_comm 1]

variable [DecidableEq α]

theorem slot?_numbering (l : List α) (item : α) :
    (numbering l).slot? item = (l.idxOf? item).map fun k => UInt32.ofNat (k + 1) := by
  have h : ∀ n, (((l.zipIdx n).map fun e => (e.1, UInt32.ofNat e.2)).find?
      fun e => e.1 = item).map Prod.snd = (l.idxOf? item).map fun k => UInt32.ofNat (n + k) := by
    induction l with
    | nil => simp
    | cons a l ih =>
      intro n
      rw [List.zipIdx_cons, List.map_cons, List.find?_cons, List.idxOf?_cons]
      by_cases ha : a = item
      · simp [ha]
      · have hstep : ∀ k, n + 1 + k = n + (k + 1) := fun k => by omega
        simp only [ha, decide_false, beq_iff_eq, if_false, ih, hstep, Option.map_map,
          Function.comp_def]
  rw [slot?, numbering, h]
  simp only [Nat.add_comm]

theorem contains_numbering (l : List α) (item : α) :
    (numbering l).contains item = true ↔ item ∈ l := by
  rw [contains, slot?_numbering, Option.isSome_map, List.isSome_idxOf?]

theorem insert_numbering {l : List α} {item : α} (h : item ∉ l) :
    (numbering l).insert item =
      if l.length + 1 ≤ maxSlot.toNat then
        .ok (UInt32.ofNat (l.length + 1), numbering (l ++ [item]))
      else .error (.slotsExhausted (l.length + 1)) := by
  have hnone : (numbering l).slot? item = none := by
    rw [slot?_numbering, List.idxOf?_eq_none_iff.mpr h, Option.map_none]
  have hcount : (numbering l).numItems = l.length + 1 := rfl
  rw [insert, hnone, numbering_concat, hcount]
  split_ifs with hle
  · rw [nextSlot?_of_le hle]
  · rw [nextSlot?_of_lt (Nat.not_le.mp hle)]

variable [Item α]

/-- Adding items to a numbering numbers the longer list. The induction is on the items that
are left, the ones before them are open. -/
theorem addAll_numbering (seen items : List α)
    (h : seen.eraseDups.length ≤ maxSlot.toNat) :
    ((numbering seen.eraseDups).addAll items).result =
      if (seen ++ items).eraseDups.length ≤ maxSlot.toNat then
        .ok (numbering (seen ++ items).eraseDups)
      else .error (.slotsExhausted (maxSlot.toNat + 1)) := by
  induction items generalizing seen with
  | nil =>
    rw [List.append_nil, if_pos h]
    rfl
  | cons item rest ih =>
    rw [List.append_cons, addAll]
    by_cases hm : item ∈ seen
    · have hc := (contains_numbering _ _).mpr (List.mem_eraseDups.mpr hm)
      have hseen := eraseDups_concat_of_mem hm
      rw [if_pos hc, Run.result_bind, Run.result_tell, ← ih _ (by rwa [hseen]), hseen]
      rfl
    · have hn : item ∉ seen.eraseDups := fun h => hm (List.mem_eraseDups.mp h)
      have hseen := eraseDups_concat_of_not_mem hm
      have hlength : (seen ++ [item]).eraseDups.length = seen.eraseDups.length + 1 := by
        rw [hseen, List.length_append, List.length_singleton]
      rw [if_neg (fun h => hn ((contains_numbering _ _).mp h)), Run.result_bind, Run.result_liftM,
        insert_numbering hn, ← hseen]
      by_cases hle : seen.eraseDups.length + 1 ≤ maxSlot.toNat
      · rw [if_pos hle]
        exact ih _ (by rwa [hlength])
      · have hall : ¬ (seen ++ [item] ++ rest).eraseDups.length ≤ maxSlot.toNat := by
          rw [List.eraseDups_append, List.length_append, hlength]
          omega
        have hfull : seen.eraseDups.length = maxSlot.toNat := by omega
        rw [if_neg hle, if_neg hall, hfull]
        rfl

/-- Adding items to a numbering leaves a warning for each of them that came before. -/
theorem trail_addAll_numbering (seen items : List α)
    (h : (seen ++ items).eraseDups.length ≤ maxSlot.toNat) :
    ((numbering seen.eraseDups).addAll items).trail =
      (repeatedAfter seen items).map fun e => duplicateSkipped e.1 := by
  induction items generalizing seen with
  | nil => rfl
  | cons item rest ih =>
    rw [List.append_cons] at h
    have hrest := ih (seen ++ [item]) h
    rw [addAll, repeatedAfter_cons]
    by_cases hm : item ∈ seen
    · have hc := (contains_numbering _ _).mpr (List.mem_eraseDups.mpr hm)
      rw [eraseDups_concat_of_mem hm] at hrest
      rw [if_pos hc, if_pos hm, Run.trail_bind_ok _ (Run.result_tell _), Run.trail_tell, hrest]
      rfl
    · have hn : item ∉ seen.eraseDups := fun h => hm (List.mem_eraseDups.mp h)
      have hseen := eraseDups_concat_of_not_mem hm
      have hle : seen.eraseDups.length + 1 ≤ maxSlot.toNat := by
        rw [List.eraseDups_append, List.length_append, hseen, List.length_append,
          List.length_singleton] at h
        omega
      have hi := insert_numbering hn
      rw [if_pos hle, ← hseen] at hi
      rw [if_neg (fun h => hn ((contains_numbering _ _).mp h)), if_neg hm, hi]
      exact hrest

/-- Put items into an index one by one. -/
def insertAll (i : Index α) (items : List α) : Except Error (Index α) :=
  items.foldlM (fun j item => Prod.snd <$> j.insert item) i

/-- Passing over the items that are there already makes no difference to what comes out. -/
theorem result_addAll (i : Index α) (items : List α) :
    (i.addAll items).result = i.insertAll items := by
  induction items generalizing i with
  | nil => rfl
  | cons item rest ih =>
    rw [addAll, insertAll, List.foldlM_cons]
    cases hs : i.slot? item with
    | some slot =>
      have hc : i.contains item = true := by rw [contains, hs]; rfl
      have hi : i.insert item = .ok (slot, i) := insert_eq_ok.mpr (.inl ⟨hs, rfl⟩)
      rw [if_pos hc, Run.result_bind, Run.result_tell, hi]
      exact ih i
    | none =>
      have hc : ¬ i.contains item = true := by rw [contains, hs]; exact Bool.false_ne_true
      rw [if_neg hc, Run.result_bind, Run.result_liftM]
      cases i.insert item with
      | error e => rfl
      | ok x => exact ih x.2

/-- The items of a list are numbered in the order of their first occurrence. -/
theorem ofItems_eq (items : List α) : (ofItems items).result =
    if items.eraseDups.length ≤ maxSlot.toNat then .ok (numbering items.eraseDups)
    else .error (.slotsExhausted (maxSlot.toNat + 1)) :=
  addAll_numbering [] items (Nat.zero_le _)

theorem ofItems_eq_ok {items : List α} {i : Index α} : (ofItems items).result = .ok i ↔
    items.eraseDups.length ≤ maxSlot.toNat ∧ i = numbering items.eraseDups := by
  rw [ofItems_eq]
  split_ifs with h
  · simp [h, eq_comm]
  · simp [h]

end Index
end VectorTable
