import VectorTable.Proofs.Assignment
import VectorTable.Proofs.Command.Migration
import VectorTable.Proofs.Table.History

/-! What an inspection tells of a file, before it is migrated and after. An inspection reports on
the fields that were read, while a migration makes a table of them, saves it and leaves them to be
read again. A field that an old version lacks is filled in on that way, and all that the file
itself says comes out as it went in. -/
namespace VectorTable

namespace Table

variable {α : Type} [Item α]

/-- A table that says what a file says, and the usual where the file says nothing. -/
structure Echoes (t : Table α) (p : Persisted α) : Prop where
  numItems : t.numItems = p.numItems
  width : t.width = p.width
  matrix : t.matrix = p.matrix
  entries : t.entries = (p.index.map Index.entries).getD []
  dataType : some t.dataType = p.dataType.or p.matrix.elementType.dataType?
  sparseGrad : t.sparseGrad = p.sparseGrad.getD true
  inputShapes : t.inputShapes = p.inputShapes.getD defaultShapes

variable [DecidableEq α]

theorem echoes_of_restore {source rest rest' : Source} {fallthrough : Fallthrough α} {t : Table α}
    {p : Persisted α} (h : (restore source fallthrough).result = .ok (t, rest))
    (hp : (Persisted.read source).result = .ok (p, rest')) : t.Echoes p := by
  obtain ⟨p', dataType, hp', -, happly⟩ := restore_eq_ok.mp h
  cases hp.symm.trans hp'
  obtain ⟨index, dataType', hindex, htype, rfl⟩ := applied_eq_ok.mp happly
  have hslots : SlotsFit (blank p dataType fallthrough).index.entries := by
    intro e he
    cases he
  obtain ⟨-, -, hnum⟩ := indexAfter_sound (Persisted.sound_of_read hp) hslots hindex
  refine ⟨hnum, rfl, rfl, entries_of_indexAfter List.Pairwise.nil hindex, ?_, rfl, rfl⟩
  unfold dataTypeAfter at htype
  cases hd : p.dataType with
  | some d =>
    rw [hd] at htype
    cases htype
    rfl
  | none =>
    rw [hd] at htype
    dsimp only at htype
    have helement := matrixDataType_eq_ok.mp htype
    simp [helement, ElementType.dataType?]

/-- What is read from the file that a table is saved in. -/
def persisted (t : Table α) : Persisted α :=
  ⟨currentVersion, some t.inputShapes, some t.sparseGrad, some t.dataType, some t.index,
    t.matrix.rowMajor, t.numItems, t.width, false⟩

/-- What is saved of a table that was restored is read. -/
theorem read_of_save_restored [LawfulItem α] {source rest : Source} {fallthrough : Fallthrough α}
    {t : Table α} {saved : List UInt8} (h : (restore source fallthrough).result = .ok (t, rest))
    (hsave : (t.save none).result = .ok saved) (hr : t.numItems < 2 ^ 63) (hc : t.width < 2 ^ 63)
    (hb : t.matrix.data.length < 2 ^ 63) :
    (Persisted.read ⟨saved, .endOfData⟩).result = .ok (t.persisted, ⟨[], .endOfData⟩) := by
  have hcoh := coherent_of_restore h
  have hi := items_of_restore h
  obtain ⟨type, hm⟩ := hcoh.matrix
  have hlayout := (Persisted.holds_of_image (hcoh.image_storable hi) hm hr hc hb).1
  have hread := hcoh.read_layout hi hm hr hc hb [] .endOfData
  rw [← (save_iff_writes.mp hsave).2, hlayout.2]
  rwa [List.append_nil] at hread

end Table

namespace Command

/-- What a report says of a file, field by field. -/
structure Report.Tells {α : Type} [Item α] (report : Report) (p : Persisted α) : Prop where
  version : report.version = p.version
  retrofitted : report.retrofitted = p.retrofitted
  numItems : report.numItems = p.numItems
  width : report.width = p.width
  dataType : some report.dataType =
    (p.dataType.or p.matrix.elementType.dataType?).map DataType.name
  inputShapes : report.inputShapes = p.inputShapes.map fun shapes => shapes.map Shape.text
  sparseGrad : report.sparseGrad = p.sparseGrad
  explicitItems : report.explicitItems = p.index.map Index.size

/-- Two reports, the one on a file of version `v` and the other on what it is migrated to. -/
structure Report.RenewedBy (v : UInt8) (old new : Report) : Prop where
  version : new.version = 4
  retrofitted : new.retrofitted = false
  numItems : new.numItems = old.numItems
  width : new.width = old.width
  dataType : new.dataType = old.dataType
  recent : 3 ≤ v → new.inputShapes = old.inputShapes ∧ new.sparseGrad = old.sparseGrad ∧
    new.explicitItems = old.explicitItems ∧ new.items = old.items
  second : v = 2 → new.inputShapes = old.inputShapes
  early : v ≤ 2 → old.explicitItems = none ∧ new.explicitItems = some 0 ∧
    old.sparseGrad = none ∧ new.sparseGrad = some true
  first : v = 1 → old.inputShapes = none ∧ new.inputShapes = some ["(-1)"]

theorem tells_ofPersisted {α : Type} [Item α] {p : Persisted α} {type : DataType} (file : String)
    (n : Nat) (h : p.dataType.or p.matrix.elementType.dataType? = some type) :
    (Report.ofPersisted file n p).Tells p := by
  refine ⟨rfl, rfl, rfl, rfl, ?_, rfl, rfl, rfl⟩
  rw [Report.ofPersisted, h]
  rfl

theorem text_defaultShapes : Table.defaultShapes.map Shape.text = ["(-1)"] := by
  cbv

theorem renewedBy_of_echoes {α : Type} [DecidableEq α] [Item α] {t : Table α} {p : Persisted α}
    (h : t.Echoes p) (hv : p.Versioned) (file output : String) (n : Nat) :
    Report.RenewedBy p.version (Report.ofPersisted file n p)
      (Report.ofPersisted output n t.persisted) where
  version := rfl
  retrofitted := rfl
  numItems := h.numItems
  width := h.width
  dataType := by
    simp only [Report.ofPersisted, ← h.dataType]
    rfl
  recent := by
    intro h3
    have h2 : 2 ≤ p.version := UInt8.le_trans (by decide) h3
    obtain ⟨index, hi⟩ := Option.isSome_iff_exists.mp (hv.index.trans (decide_eq_true h3))
    obtain ⟨sparseGrad, hg⟩ := Option.isSome_iff_exists.mp (hv.sparseGrad.trans (decide_eq_true h3))
    obtain ⟨shapes, hs⟩ := Option.isSome_iff_exists.mp (hv.inputShapes.trans (decide_eq_true h2))
    have hentries : t.index.entries = index.entries := h.entries.trans (by rw [hi]; rfl)
    simp [Report.ofPersisted, Table.persisted, Index.size, h.inputShapes, h.sparseGrad, hentries,
      hi, hg, hs]
  second := by
    intro h2
    have h2 : 2 ≤ p.version := UInt8.le_of_eq h2.symm
    obtain ⟨shapes, hs⟩ := Option.isSome_iff_exists.mp (hv.inputShapes.trans (decide_eq_true h2))
    simp [Report.ofPersisted, Table.persisted, h.inputShapes, hs]
  early := by
    intro h2
    have h3 : ¬ 3 ≤ p.version := fun h3 => absurd (UInt8.le_trans h3 h2) (by decide)
    have hi : p.index = none := by simpa [h3] using hv.index
    have hg : p.sparseGrad = none := by simpa [h3] using hv.sparseGrad
    have hentries : t.index.entries = [] := h.entries.trans (by rw [hi]; rfl)
    simp [Report.ofPersisted, Table.persisted, Index.size, h.sparseGrad, hentries, hi, hg]
  first := by
    intro h1
    have h2 : ¬ 2 ≤ p.version := by
      rw [show p.version = 1 from h1]
      decide
    have hs : p.inputShapes = none := by simpa [h2] using hv.inputShapes
    simp [Report.ofPersisted, Table.persisted, h.inputShapes, hs, text_defaultShapes]

/-! ### Inspecting -/

namespace InspectRequest

variable {r : InspectRequest} {fs : Files}

theorem run_eq_ok {report : Report} : (r.run fs).result = .ok report ↔
    ∃ source p rest, fs.openSource r.file = .ok source ∧
      (Persisted.read (α := r.itemKind.type) source).result = .ok (p, rest) ∧
      Report.ofPersisted r.file r.showItems p = report := by
  unfold run runAs
  constructor
  · intro h
    obtain ⟨source, hopen, h⟩ := Run.bind_eq_ok.mp h
    obtain ⟨⟨p, rest⟩, hread, h⟩ := Run.bind_eq_ok.mp h
    obtain ⟨-, -, h⟩ := Run.bind_eq_ok.mp h
    cases h
    exact ⟨source, p, rest, except_mapError_eq_ok.mp hopen, except_mapError_eq_ok.mp hread, rfl⟩
  · rintro ⟨source, p, rest, hopen, hread, rfl⟩
    refine Run.bind_eq_ok.mpr ⟨source, except_mapError_eq_ok.mpr hopen, ?_⟩
    refine Run.bind_eq_ok.mpr ⟨(p, rest), except_mapError_eq_ok.mpr hread, ?_⟩
    exact Run.bind_eq_ok.mpr ⟨(), rfl, rfl⟩

/-- The request comes to a report, and prints it. -/
structure Reports (r : InspectRequest) (fs : Files) (filter : EventFilter) (format : LogFormat)
    (report : Report) : Prop where
  run : (r.run fs).result = .ok report
  code : ((Request.inspect r).outcome fs filter format).code = 0
  stdout : ((Request.inspect r).outcome fs filter format).stdout =
    if r.json then report.jsonText else report.text

theorem reports_of_read (filter : EventFilter) (format : LogFormat) {source rest : Source}
    {p : Persisted r.itemKind.type} (hopen : fs.openSource r.file = .ok source)
    (hread : (Persisted.read source).result = .ok (p, rest)) :
    r.Reports fs filter format (Report.ofPersisted r.file r.showItems p) := by
  have hrun := run_eq_ok.mpr ⟨source, p, rest, hopen, hread, rfl⟩
  have hprint : ((Request.inspect r).run fs).2.result = .ok (if r.json then
      (Report.ofPersisted r.file r.showItems p).jsonText
      else (Report.ofPersisted r.file r.showItems p).text) := by
    show ((fun report : Report => if r.json then report.jsonText else report.text) <$>
      r.run fs).result = _
    rw [Run.result_map, hrun]
    rfl
  obtain ⟨hcode, hstdout, -⟩ := Request.outcome_of_ok filter format hprint
  exact ⟨hrun, hcode, hstdout⟩

/-- An inspection comes to its end exactly if the bytes of a file are read. -/
theorem code_eq_zero_iff (filter : EventFilter) (format : LogFormat) :
    ((Request.inspect r).outcome fs filter format).code = 0 ↔
      ∃ bytes, fs.read r.file = .ok bytes ∧
        ∃ (p : Persisted r.itemKind.type) (rest : Source),
          (Persisted.read ⟨bytes, .endOfData⟩).result = .ok (p, rest) := by
  constructor
  · intro hcode
    obtain ⟨stdout, hprint⟩ := (Request.code_eq_zero_iff filter format).mp hcode
    obtain ⟨report, hrun, -⟩ := except_map_eq_ok.mp ((Run.result_map _ _).symm.trans hprint)
    obtain ⟨source, p, rest, hopen, hread, -⟩ := run_eq_ok.mp hrun
    have hbytes : source.bytes ≠ [] := by
      intro hnil
      have hhead := Persisted.head_of_read hread
      rw [hnil] at hhead
      cases hhead
    obtain ⟨bytes, ending⟩ := source
    obtain rfl : ending = .endOfData := Files.ending_of_openSource hopen hbytes
    exact ⟨bytes, Files.read_eq_ok.mpr hopen, p, rest, hread⟩
  · rintro ⟨bytes, hread, p, rest, hp⟩
    exact (reports_of_read filter format (Files.read_eq_ok.mp hread) hp).code

end InspectRequest

/-- A migration to a place where nothing stands in the way comes to its end exactly if the bytes
of its input make a table. -/
theorem MigrateRequest.code_eq_zero_iff {r : MigrateRequest} {fs : Files} (filter : EventFilter)
    (format : LogFormat) {place : List String} (hcreate : fs.create r.output = .ok place) :
    ((Request.migrate r).outcome fs filter format).code = 0 ↔ ∃ bytes t, r.Restores fs bytes t := by
  constructor
  · intro hcode
    rcases r.refused_or_restores fs with h | h | h
    · rw [(outcome_of_refused filter format h).1] at hcode
      cases hcode
    · rw [(outcome_of_outgrown filter format h).1] at hcode
      cases hcode
    · exact h
  · rintro ⟨bytes, t, h⟩
    obtain ⟨saved, -, hcode, -⟩ := outcome_of_restores filter format h hcreate
    exact hcode

/-- A file can be inspected exactly if it can be migrated to a new place, and what it is migrated
to is inspected with the same result, except for the version, the mark of an old layout and the
fields that an old version lacks. -/
theorem inspect_migrated (fs : Files) (file output : String) (kind : ItemKind) (force : Bool)
    (filter : EventFilter) (format : LogFormat) {place : List String}
    (hfresh : fs.pathExists output = false) (hcreate : fs.create output = .ok place) :
    let migration := (Request.migrate ⟨file, output, kind, force⟩).outcome fs filter format
    (∀ json n, ((Request.inspect ⟨file, kind, json, n⟩).outcome fs filter format).code = 0 ↔
      migration.code = 0) ∧
    ∀ bytes (p : Persisted kind.type) rest, migration.code = 0 → fs.read file = .ok bytes →
      (Persisted.read ⟨bytes, .endOfData⟩).result = .ok (p, rest) →
      p.numItems < 2 ^ 63 → p.width < 2 ^ 63 → p.matrix.data.length < 2 ^ 63 →
      ∃ entries : List (kind.type × Slot), entries.Pairwise (fun a b => a.2 < b.2) ∧
        (∀ index, p.index = some index → index.entries = entries) ∧
        ∀ json n, ∃ old new : Report,
          InspectRequest.Reports ⟨file, kind, json, n⟩ fs filter format old ∧
          InspectRequest.Reports ⟨output, kind, json, n⟩ migration.files filter format new ∧
          old.Tells p ∧ old.RenewedBy p.version new ∧
          new.items = (entries.take n).map fun e => (e.2, Item.debug e.1) := by
  intro migration
  have hmigration : migration.code = 0 ↔ ∃ bytes t,
      MigrateRequest.Restores ⟨file, output, kind, force⟩ fs bytes t :=
    MigrateRequest.code_eq_zero_iff filter format hcreate
  constructor
  · intro json n
    rw [InspectRequest.code_eq_zero_iff, hmigration]
    constructor
    · rintro ⟨bytes, hread, p, rest, hp⟩
      obtain ⟨t, ht⟩ := Table.restore_of_read hp .none
      refine ⟨bytes, t, ?_, hread, rest, ht⟩
      intro hexists
      cases hfresh.symm.trans hexists
    · rintro ⟨bytes, t, -, hread, rest, ht⟩
      obtain ⟨p, -, hp, -⟩ := Table.restore_eq_ok.mp ht
      exact ⟨bytes, hread, p, rest, hp⟩
  · intro bytes p rest hcode hread hp hr hc hb
    obtain ⟨bytes', t, hrestores⟩ := hmigration.mp hcode
    obtain rfl : bytes = bytes' := Except.ok.inj (hread.symm.trans hrestores.read)
    obtain ⟨rest', hrestore⟩ := hrestores.restored
    obtain ⟨saved, hsave, -, hfiles⟩ :=
      MigrateRequest.outcome_of_restores filter format hrestores hcreate
    have hechoes := Table.echoes_of_restore hrestore hp
    have hsaved := Table.read_of_save_restored hrestore hsave (by rwa [hechoes.numItems])
      (by rwa [hechoes.width]) (by rwa [hechoes.matrix])
    have hopen : migration.files.openSource output = .ok ⟨saved, .endOfData⟩ := by
      rw [show migration.files = fs.put place saved from hfiles]
      exact (Files.names_put hcreate saved).openSource_eq
    refine ⟨t.entries, (Table.coherent_of_restore hrestore).index.ascending, ?_, ?_⟩
    · intro index hindex
      rw [hechoes.entries, hindex]
      rfl
    · intro json n
      refine ⟨_, _, InspectRequest.reports_of_read filter format (Files.read_eq_ok.mp hread) hp,
        InspectRequest.reports_of_read filter format hopen hsaved,
        tells_ofPersisted file n hechoes.dataType.symm, ?_, rfl⟩
      exact renewedBy_of_echoes hechoes (Persisted.versioned_of_read hp) file output n

theorem inspect_migrated_shelf :
    shelf.pathExists "new" = false ∧ shelf.create "new" = .ok ["new"] ∧ ∃ old new : Report,
      InspectRequest.Reports ⟨"old", .string, true, 10⟩ shelf ⟨[]⟩ .json old ∧
      InspectRequest.Reports ⟨"new", .string, true, 10⟩
        ((Request.migrate ⟨"old", "new", .string, false⟩).outcome shelf ⟨[]⟩ .json).files
        ⟨[]⟩ .json new ∧
      old.version = 3 ∧ old.numItems = 2 ∧ old.RenewedBy 3 new := by
  have hplace : shelf.place "new" = .ok (.vacant ["new"]) :=
    (Files.place_eq_ok checkedPath_new).mpr ⟨rfl, .inl rfl⟩
  have hfresh : shelf.pathExists "new" = false := by
    rw [Files.pathExists, hplace]
  have hcreate : shelf.create "new" = .ok ["new"] :=
    Files.create_eq_ok.mpr ⟨_, _, checkedPath_new, rfl, rfl, rfl⟩
  obtain ⟨p, -, hp, -⟩ := Table.restore_eq_ok.mp Table.restore_movedText
  have hechoes := Table.echoes_of_restore Table.restore_movedText hp
  have hread : shelf.read "old" = .ok (Persisted.oneItem 0).bytes := names_shelf.read_eq
  have hcode := (InspectRequest.reports_of_read (r := ⟨"old", .string, true, 10⟩) ⟨[]⟩ .json
    (Files.read_eq_ok.mp hread) hp).code
  obtain ⟨hboth, hrenew⟩ :=
    inspect_migrated shelf "old" "new" .string false ⟨[]⟩ .json hfresh hcreate
  obtain ⟨entries, -, -, hreports⟩ := hrenew _ p _ ((hboth true 10).mp hcode) hread hp
    (by rw [← hechoes.numItems]; decide) (by rw [← hechoes.width]; decide)
    (by rw [← hechoes.matrix]; decide)
  obtain ⟨old, new, hold, hnew, htells, hrenewed, -⟩ := hreports true 10
  have hversion : p.version = 3 := (Option.some.inj (Persisted.head_of_read hp)).symm
  rw [hversion] at hrenewed
  exact ⟨hfresh, hcreate, old, new, hold, hnew, htells.version.trans hversion,
    htells.numItems.trans hechoes.numItems.symm, hrenewed⟩

end Command
end VectorTable
