import VectorTable.Proofs.Toml.Document

/-! The tree that the lines of a document build, where a section stands inside another one. Lines
only change the table that the last header opened, so a tree is a function of the entries of that
table. -/
namespace VectorTable.Toml

theorem replaceEntry_last {name : String} {entries : List (String × Value)} {old new : Value}
    (h : entries.lookup name = none) :
    replaceEntry name new (entries ++ [(name, old)]) = entries ++ [(name, new)] := by
  induction entries with
  | nil => exact if_pos rfl
  | cons entry entries ih =>
    rw [List.lookup_eq_none_iff] at h ih
    have hne : entry.1 ≠ name := fun he => bne_iff_ne.mp (h entry List.mem_cons_self) he.symm
    rw [List.cons_append, replaceEntry, if_neg hne, ih fun e he => h e (List.mem_cons_of_mem _ he)]
    rfl

theorem lookup_last {name : String} {entries : List (String × Value)} {v : Value}
    (h : entries.lookup name = none) : (entries ++ [(name, v)]).lookup name = some v := by
  rw [List.lookup_append, h, Option.none_or, List.lookup_cons_self]

theorem lookup_fresh {name : String} {entries : List (String × Value)}
    (h : name ∉ entries.map Prod.fst) : entries.lookup name = none := by
  rw [List.lookup_eq_none_iff]
  intro entry hentry
  refine bne_iff_ne.mpr ?_
  rintro rfl
  exact h (List.mem_map_of_mem hentry)

theorem Value.descend_append (dotted : Bool) (change : Value → Except TomlFault Value)
    (path more : List String) : Value.descend dotted change (path ++ more) =
      Value.descend dotted (Value.descend dotted change more) path := by
  induction path with
  | nil => rfl
  | cons name path ih =>
    funext v
    cases v <;> simp only [List.cons_append, Value.descend, ih]

/-- A tree whose table at the end of a path is open, as a function of the entries of that table. -/
def Opens (path : List String) (tree : List (String × Value) → Value) : Prop :=
  ∀ change entries entries', change (.table .header entries) = .ok (.table .header entries') →
    Value.descend false change path (tree entries) = .ok (tree entries')

theorem opens_root : Opens [] (.table .header) := fun _ _ _ h => h

/-- The entries that fields make. -/
def entriesOf (fields : List (String × Field)) : List (String × Value) :=
  fields.map fun f => (f.1, f.2.value)

section Lines

variable {path : List String} {tree : List (String × Value) → Value} (h : Opens path tree)
  {entries : List (String × Value)}

include h

/-- A table at the end of an open one is open too. -/
theorem Opens.below {name : String} (hname : entries.lookup name = none) :
    Opens (path ++ [name]) fun inside => tree (entries ++ [(name, .table .header inside)]) := by
  intro change inside inside' hchange
  rw [Value.descend_append]
  refine h _ _ _ ?_
  rw [Value.descend, lookup_last hname, Option.getD_some, Value.enter, if_neg (by simp),
    Value.descend, hchange]
  exact congrArg (fun all => Except.ok (Value.table .header all)) (replaceEntry_last hname)

theorem add_pair {name : String} (v : Value) (hname : entries.lookup name = none) :
    Draft.add ⟨tree entries, path⟩ (.pair ⟨[], name⟩ v) =
      .ok ⟨tree (entries ++ [(name, v)]), path⟩ := by
  have hinsert : Value.insert ⟨[], name⟩ v (.table .header entries) =
      .ok (.table .header (entries ++ [(name, v)])) := by
    rw [Value.insert, Value.descend]
    dsimp only
    rw [if_neg (by simp [hname])]
  rw [Draft.add, h _ _ _ hinsert]
  rfl

theorem add_header {name : String} (here : List String) (hname : entries.lookup name = none) :
    Draft.add ⟨tree entries, here⟩ (.header ⟨path, name⟩) =
      .ok ⟨tree (entries ++ [(name, .table .header [])]), path ++ [name]⟩ := by
  rw [Draft.add, Value.openTable, h _ entries (entries ++ [(name, .table .header [])])]
  · rfl
  · dsimp only
    rw [hname]

theorem add_fields {fields : List (String × Field)}
    (hfields : (entries.map Prod.fst ++ fields.map Prod.fst).Nodup) :
    (fields.map fun f => Statement.pair ⟨[], f.1⟩ f.2.value).foldlM Draft.add ⟨tree entries, path⟩ =
      .ok ⟨tree (entries ++ entriesOf fields), path⟩ := by
  induction fields generalizing entries with
  | nil =>
    rw [entriesOf, List.map_nil, List.map_nil, List.append_nil, List.foldlM_nil]
    rfl
  | cons f fields ih =>
    have hname : entries.lookup f.1 = none := lookup_fresh fun hf =>
      (List.nodup_append.mp hfields).2.2 f.1 hf f.1 List.mem_cons_self rfl
    rw [entriesOf, List.map_cons, List.map_cons, List.foldlM_cons, add_pair h f.2.value hname]
    have hmore := @ih (entries ++ [(f.1, f.2.value)]) (by simpa using hfields)
    rw [List.append_assoc] at hmore
    exact hmore

/-- A section adds its table at the end of the one that it stands in. -/
theorem add_section {name : String} (here : List String) (hname : entries.lookup name = none)
    {fields : List (String × Field)} (hfields : (fields.map Prod.fst).Nodup) :
    (Section.lines ⟨path, name⟩ fields).foldlM Draft.add ⟨tree entries, here⟩ =
      .ok ⟨tree (entries ++ [(name, .table .header (entriesOf fields))]),
        path ++ [name]⟩ := by
  have hnodup : (([] : List (String × Value)).map Prod.fst ++ fields.map Prod.fst).Nodup := hfields
  rw [Section.lines, List.foldlM_cons, add_header h here hname]
  exact add_fields (h.below hname) hnodup

end Lines

/-- A section and a second one inside it build a table with a table at its end. -/
theorem ofStatements_nested {outer inner : String} {fields more : List (String × Field)}
    (hfields : (fields.map Prod.fst).Nodup) (hinner : inner ∉ fields.map Prod.fst)
    (hmore : (more.map Prod.fst).Nodup) :
    Value.ofStatements (Section.lines ⟨[], outer⟩ fields ++ Section.lines ⟨[outer], inner⟩ more) =
      .ok (.table .header [(outer, .table .header (entriesOf fields ++
        [(inner, .table .header (entriesOf more))]))]) := by
  have hfresh : (entriesOf fields).lookup inner = none := by
    refine lookup_fresh ?_
    rwa [entriesOf, List.map_map]
  have hempty : ([] : List (String × Value)).lookup outer = none := rfl
  have hopen : Opens [outer] fun inside => .table .header [(outer, .table .header inside)] :=
    opens_root.below hempty
  have hfirst := add_section opens_root [] hempty hfields
  have hsecond := add_section hopen [outer] hfresh hmore
  rw [Value.ofStatements, List.foldlM_append, show ({} : Draft) = ⟨.table .header [], []⟩ from rfl,
    hfirst]
  exact congrArg (fun r : Except TomlFault Draft => r.bind fun d => .ok d.root) hsecond

end VectorTable.Toml
