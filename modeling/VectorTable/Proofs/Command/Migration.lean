import VectorTable.Command.Execution
import VectorTable.Proofs.Files
import VectorTable.Proofs.Table.Codes
import VectorTable.Proofs.Table.Hostile

/-! What a migration leaves. The output is emptied as soon as it is opened, so that the files are
safe only if whatever can go wrong has gone wrong before. Whether the output may be replaced is
asked first, then the whole input is read and made a table, and a table that was made from a file
is saved without fail. -/
namespace VectorTable

namespace Command

instance : (kind : ItemKind) → LawfulItem kind.type
  | .string => inferInstanceAs (LawfulItem String)
  | .u64 => inferInstanceAs (LawfulItem UInt64)
  | .i64 => inferInstanceAs (LawfulItem Int64)

/-! ### Outcomes -/

section Request

variable {request : Request} {fs : Files} (filter : EventFilter) (format : LogFormat)

theorem Request.outcome_of_ok {stdout : String} (h : (request.run fs).2.result = .ok stdout) :
    (request.outcome fs filter format).code = 0 ∧
      (request.outcome fs filter format).stdout = stdout ∧
      (request.outcome fs filter format).files = (request.run fs).1 := by
  simp [outcome, h]

theorem Request.outcome_of_error {f : Failure} (h : (request.run fs).2.result = .error f) :
    (request.outcome fs filter format).code = f.code ∧
      (request.outcome fs filter format).files = (request.run fs).1 := by
  cases f <;> simp [outcome, h]

theorem Failure.code_ne_zero (f : Failure) : f.code ≠ 0 := by
  cases f <;> simp [code]

theorem Failure.code_ofReading {e : Error} (path : String) (h : e ≠ .outOfMemory) :
    (Failure.ofReading path e).code = 1 := by
  cases e <;> first | rfl | exact absurd rfl h

theorem Request.code_eq_zero_iff : (request.outcome fs filter format).code = 0 ↔
    ∃ stdout, (request.run fs).2.result = .ok stdout := by
  constructor
  · intro hcode
    cases h : (request.run fs).2.result with
    | ok stdout => exact ⟨stdout, rfl⟩
    | error f =>
      rw [(outcome_of_error filter format h).1] at hcode
      exact absurd hcode f.code_ne_zero
  · rintro ⟨stdout, h⟩
    exact (outcome_of_ok filter format h).1

end Request

/-! ### Migrating -/

section Input

variable {α : Type} [DecidableEq α] [Item α] {fs : Files} {input : String} {bytes : List UInt8}

theorem restoreInput_eq_ok {t : Table α} :
    (restoreInput α fs input).result = .ok (bytes, t) ↔ fs.read input = .ok bytes ∧
      ∃ rest, (Table.restore ⟨bytes, .endOfData⟩ .none).result = .ok (t, rest) := by
  unfold restoreInput
  constructor
  · intro h
    obtain ⟨bytes', hread, h⟩ := Run.bind_eq_ok.mp h
    obtain ⟨⟨t', rest⟩, hrestore, h⟩ := Run.bind_eq_ok.mp h
    cases h
    exact ⟨except_mapError_eq_ok.mp hread, rest, except_mapError_eq_ok.mp hrestore⟩
  · rintro ⟨hread, rest, hrestore⟩
    refine Run.bind_eq_ok.mpr ⟨bytes, except_mapError_eq_ok.mpr hread, ?_⟩
    exact Run.bind_eq_ok.mpr ⟨(t, rest), except_mapError_eq_ok.mpr hrestore, rfl⟩

theorem restoreInput_of_unread {fault : IoFault} (hread : fs.read input = .error fault) :
    (restoreInput α fs input).result = .error (.reading input fault) :=
  Run.bind_eq_error.mpr (.inl (by rw [hread]; rfl))

theorem restoreInput_of_error {e : Error} (hread : fs.read input = .ok bytes)
    (hrestore : (Table.restore (α := α) ⟨bytes, .endOfData⟩ .none).result = .error e) :
    (restoreInput α fs input).result = .error (.ofReading input e) := by
  refine Run.bind_eq_error.mpr (.inr ⟨bytes, except_mapError_eq_ok.mpr hread, ?_⟩)
  refine Run.bind_eq_error.mpr (.inl ?_)
  rw [Run.result_mapError, hrestore]
  rfl

omit [DecidableEq α] in
/-- A table with bytes to be saved in is written wherever a file can be created. -/
theorem saveFile_of_created {t : Table α} {output : String} {place : List String}
    (hsave : (t.save none).result = .ok bytes) (hcreate : fs.create output = .ok place) :
    (t.saveFile fs output).1 = fs.put place bytes ∧ (t.saveFile fs output).2.result = .ok () := by
  obtain ⟨hresult, htrail⟩ := Table.save_iff_writes.mp hsave
  unfold Table.saveFile Files.write
  rw [hcreate, ← htrail]
  exact ⟨rfl, Run.bind_eq_ok.mpr ⟨(), hresult, rfl⟩⟩

omit [DecidableEq α] in
theorem saveFile_of_not_created {t : Table α} {output : String} {fault : IoFault}
    (hcreate : fs.create output = .error fault) :
    (t.saveFile fs output).1 = fs ∧ (t.saveFile fs output).2.result = .error (.io fault) := by
  unfold Table.saveFile Files.write
  rw [hcreate]
  exact ⟨rfl, rfl⟩

/-- With a table in hand, what is left to go wrong is the writing. -/
theorem runAs_of_restored {r : MigrateRequest} {t : Table α}
    (h : (restoreInput α fs r.input).result = .ok (bytes, t)) :
    (r.runAs α fs).1 = (t.saveFile fs r.output).1 ∧
      (r.runAs α fs).2.result =
        (t.saveFile fs r.output).2.result.mapError (Failure.writing r.output) := by
  unfold MigrateRequest.runAs
  dsimp only
  rw [h]
  refine ⟨rfl, ?_⟩
  show (Run.tellAll _ >>= fun _ => _).result = _
  rw [Run.result_bind, Run.result_tellAll]
  show (Run.mapError _ _ >>= fun _ => _).result = _
  rw [Run.result_bind, Run.result_mapError]
  cases (t.saveFile fs r.output).2.result <;> rfl

theorem runAs_of_not_restored {r : MigrateRequest} {f : Failure}
    (h : (restoreInput α fs r.input).result = .error f) :
    (r.runAs α fs).1 = fs ∧ (r.runAs α fs).2.result = .error f := by
  unfold MigrateRequest.runAs
  dsimp only
  rw [h]
  exact ⟨rfl, rfl⟩

end Input

namespace MigrateRequest

variable {r : MigrateRequest} {fs : Files}

/-- The output may be written to. -/
def Allowed (r : MigrateRequest) (fs : Files) : Prop :=
  fs.pathExists r.output = true → r.force = true

theorem allowed_iff : r.Allowed fs ↔ (fs.pathExists r.output && !r.force) = false := by
  unfold Allowed
  cases fs.pathExists r.output <;> cases r.force <;> simp

/-- The output is in the way, or there is no input, or it is rejected. -/
inductive Refused (r : MigrateRequest) (fs : Files) : Prop
  | occupied (hexists : fs.pathExists r.output = true) (hforce : r.force = false)
  | missing {fault : IoFault} (hread : fs.read r.input = .error fault)
  | rejected {bytes : List UInt8} {e : Error} (hread : fs.read r.input = .ok bytes)
      (hrestore : (Table.restore (α := r.itemKind.type) ⟨bytes, .endOfData⟩ .none).result = .error e)
      (hfits : e ≠ .outOfMemory)

/-- The input asks for more memory than there can be. -/
structure Outgrown (r : MigrateRequest) (fs : Files) : Prop where
  allowed : r.Allowed fs
  outgrowing : ∃ bytes, fs.read r.input = .ok bytes ∧
    ∃ (header : Header r.itemKind.type) (stored : Tensor) (type : DataType) (rows cols : Nat),
      Persisted.Outgrowing ⟨bytes, .endOfData⟩ header stored type rows cols

/-- The bytes of the input make a table. -/
structure Restores (r : MigrateRequest) (fs : Files) (bytes : List UInt8)
    (t : Table r.itemKind.type) : Prop where
  allowed : r.Allowed fs
  read : fs.read r.input = .ok bytes
  restored : ∃ rest, (Table.restore ⟨bytes, .endOfData⟩ .none).result = .ok (t, rest)

theorem outgrown_iff : r.Outgrown fs ↔ r.Allowed fs ∧ ∃ bytes, fs.read r.input = .ok bytes ∧
    (Table.restore (α := r.itemKind.type) ⟨bytes, .endOfData⟩ .none).result =
      .error .outOfMemory := by
  constructor
  · rintro ⟨hallowed, bytes, hread, houtgrowing⟩
    exact ⟨hallowed, bytes, hread,
      (Table.explains_restore bytes .none).outOfMemory_iff.mpr houtgrowing⟩
  · rintro ⟨hallowed, bytes, hread, hrestore⟩
    exact ⟨hallowed, bytes, hread,
      (Table.explains_restore bytes .none).outOfMemory_iff.mp hrestore⟩

/-- There is no other way for a migration to begin. -/
theorem refused_or_restores (r : MigrateRequest) (fs : Files) :
    r.Refused fs ∨ r.Outgrown fs ∨ ∃ bytes t, r.Restores fs bytes t := by
  by_cases hallowed : r.Allowed fs
  · cases hread : fs.read r.input with
    | error fault => exact .inl (.missing hread)
    | ok bytes =>
      cases hrestore :
          (Table.restore (α := r.itemKind.type) ⟨bytes, .endOfData⟩ .none).result with
      | ok x => exact .inr (.inr ⟨bytes, x.1, hallowed, hread, x.2, hrestore⟩)
      | error e =>
        by_cases he : e = .outOfMemory
        · subst he
          exact .inr (.inl (outgrown_iff.mpr ⟨hallowed, bytes, hread, hrestore⟩))
        · exact .inl (.rejected hread hrestore he)
  · obtain ⟨hexists, hforce⟩ := Classical.not_imp.mp hallowed
    exact .inl (.occupied hexists (by simpa using hforce))

theorem Restores.not_refused {bytes : List UInt8} {t : Table r.itemKind.type}
    (h : r.Restores fs bytes t) : ¬ r.Refused fs := by
  obtain ⟨hallowed, hread, rest, hrestore⟩ := h
  intro hr
  cases hr with
  | occupied hexists hforce => simp [hallowed hexists] at hforce
  | missing hread' => cases hread.symm.trans hread'
  | rejected hread' hrestore' _ =>
    cases hread.symm.trans hread'
    cases hrestore.symm.trans hrestore'

theorem Restores.not_outgrown {bytes : List UInt8} {t : Table r.itemKind.type}
    (h : r.Restores fs bytes t) : ¬ r.Outgrown fs := by
  rw [outgrown_iff]
  rintro ⟨-, bytes', hread, hrestore'⟩
  obtain ⟨rest, hrestore⟩ := h.restored
  cases h.read.symm.trans hread
  cases hrestore.symm.trans hrestore'

/-! ### What is left -/

/-- A migration prints nothing. -/
theorem result_migrate (r : MigrateRequest) (fs : Files) :
    ((Request.migrate r).run fs).2.result = (fun _ => "") <$> (r.run fs).2.result :=
  Run.result_map _ (r.run fs).2

section Outcome

variable (filter : EventFilter) (format : LogFormat)

theorem outcome_of_run_error {f : Failure} (hfiles : (r.run fs).1 = fs)
    (h : (r.run fs).2.result = .error f) :
    ((Request.migrate r).outcome fs filter format).code = f.code ∧
      ((Request.migrate r).outcome fs filter format).files = fs := by
  have hrun : ((Request.migrate r).run fs).2.result = .error f := by
    rw [result_migrate, h]
    rfl
  obtain ⟨hcode, hf⟩ := Request.outcome_of_error filter format hrun
  exact ⟨hcode, hf.trans hfiles⟩

theorem run_of_allowed (h : r.Allowed fs) : r.run fs = r.runAs r.itemKind.type fs := by
  unfold run
  rw [allowed_iff.mp h]
  rfl

theorem run_of_not_allowed (h : ¬ r.Allowed fs) :
    r.run fs = (fs, Run.fail (.outputExists r.output)) := by
  have hoccupied : (fs.pathExists r.output && !r.force) = true := by
    simpa [allowed_iff] using h
  unfold run
  rw [hoccupied]
  rfl

/-- What is run for a table that was read is to save it. -/
theorem run_of_restores {bytes : List UInt8} {t : Table r.itemKind.type}
    (h : r.Restores fs bytes t) :
    (r.run fs).1 = (t.saveFile fs r.output).1 ∧
      (r.run fs).2.result =
        (t.saveFile fs r.output).2.result.mapError (Failure.writing r.output) := by
  rw [run_of_allowed h.allowed]
  exact runAs_of_restored (restoreInput_eq_ok.mpr ⟨h.read, h.restored⟩)

/-- Nothing is written where there is no table to write. -/
theorem outcome_of_not_restored {f : Failure} (hallowed : r.Allowed fs)
    (h : (restoreInput r.itemKind.type fs r.input).result = .error f) :
    ((Request.migrate r).outcome fs filter format).code = f.code ∧
      ((Request.migrate r).outcome fs filter format).files = fs := by
  obtain ⟨hfiles, hresult⟩ := runAs_of_not_restored h
  rw [← run_of_allowed hallowed] at hfiles hresult
  exact outcome_of_run_error filter format hfiles hresult

theorem outcome_of_outgrown (h : r.Outgrown fs) :
    ((Request.migrate r).outcome fs filter format).code = 101 ∧
      ((Request.migrate r).outcome fs filter format).files = fs := by
  obtain ⟨hallowed, bytes, hread, hrestore⟩ := outgrown_iff.mp h
  exact outcome_of_not_restored filter format hallowed (restoreInput_of_error hread hrestore)

theorem outcome_of_refused (h : r.Refused fs) :
    ((Request.migrate r).outcome fs filter format).code = 1 ∧
      ((Request.migrate r).outcome fs filter format).files = fs := by
  by_cases hallowed : r.Allowed fs
  · cases h with
    | occupied hexists hforce => simp [hallowed hexists] at hforce
    | missing hread =>
      exact outcome_of_not_restored filter format hallowed (restoreInput_of_unread hread)
    | rejected hread hrestore hfits =>
      rw [← Failure.code_ofReading r.input hfits]
      exact outcome_of_not_restored filter format hallowed (restoreInput_of_error hread hrestore)
  · have hrun := run_of_not_allowed hallowed
    have hresult : (r.run fs).2.result = .error (.outputExists r.output) := by
      rw [hrun]
      rfl
    exact outcome_of_run_error filter format (by rw [hrun]) hresult

theorem outcome_of_restores {bytes : List UInt8} {t : Table r.itemKind.type}
    {place : List String} (h : r.Restores fs bytes t) (hcreate : fs.create r.output = .ok place) :
    ∃ saved, (t.save none).result = .ok saved ∧
      ((Request.migrate r).outcome fs filter format).code = 0 ∧
      ((Request.migrate r).outcome fs filter format).files = fs.put place saved := by
  obtain ⟨rest, hrestore⟩ := h.restored
  obtain ⟨saved, hsave⟩ := Table.save_of_restored hrestore
  obtain ⟨hfiles, hresult⟩ := run_of_restores h
  obtain ⟨hput, hok⟩ := saveFile_of_created hsave hcreate
  have hrun : ((Request.migrate r).run fs).2.result = .ok "" := by
    rw [result_migrate, hresult, hok]
    rfl
  obtain ⟨hcode, -, hf⟩ := Request.outcome_of_ok filter format hrun
  exact ⟨saved, hsave, hcode, hf.trans (hfiles.trans hput)⟩

theorem outcome_of_not_created {bytes : List UInt8} {t : Table r.itemKind.type} {fault : IoFault}
    (h : r.Restores fs bytes t) (hcreate : fs.create r.output = .error fault) :
    ((Request.migrate r).outcome fs filter format).code = 1 ∧
      ((Request.migrate r).outcome fs filter format).files = fs := by
  obtain ⟨hfiles, hresult⟩ := run_of_restores h
  obtain ⟨hsame, herror⟩ := saveFile_of_not_created (t := t) hcreate
  rw [herror] at hresult
  exact outcome_of_run_error filter format (hfiles.trans hsame) hresult

end Outcome

/-- A migration that is refused leaves every file as it was, and so does any other that does not
come to its end. One that does has put at its output the bytes that the table of its input is
saved in, and has changed no other file. The one input that is neither refused nor migrated is
an old layout whose matrix outgrows memory. -/
theorem outcome_of_migrate (r : MigrateRequest) (fs : Files) (filter : EventFilter)
    (format : LogFormat) :
    let outcome := (Request.migrate r).outcome fs filter format
    (r.Refused fs → outcome.code = 1 ∧ outcome.files = fs) ∧
    (∀ place, ¬ r.Refused fs → ¬ r.Outgrown fs → fs.create r.output = .ok place →
      ∃ bytes t saved, r.Restores fs bytes t ∧ (t.save none).result = .ok saved ∧
        saved.head? = some 4 ∧ outcome.code = 0 ∧ outcome.files = fs.put place saved ∧
        outcome.files.read r.output = .ok saved ∧
        outcome.files.isDirectory = fs.isDirectory ∧
        ∀ other, other ≠ place → outcome.files.get? other = fs.get? other) ∧
    (∀ fault, ¬ r.Outgrown fs → fs.create r.output = .error fault → outcome.code = 1) ∧
    (r.Outgrown fs → outcome.code = 101) ∧
    (outcome.code ≠ 0 → outcome.files = fs) ∧
    ∀ source fallthrough (t : Table r.itemKind.type) rest,
      (Table.restore source fallthrough).result = .ok (t, rest) →
        ∃ saved, (t.save none).result = .ok saved := by
  intro outcome
  refine ⟨outcome_of_refused filter format, ?_, ?_,
    fun h => (outcome_of_outgrown filter format h).1, ?_, ?_⟩
  · intro place hrefused houtgrown hcreate
    rcases r.refused_or_restores fs with h | h | ⟨bytes, t, h⟩
    · exact absurd h hrefused
    · exact absurd h houtgrown
    · obtain ⟨saved, hsave, hcode, hfiles⟩ := outcome_of_restores filter format h hcreate
      refine ⟨bytes, t, saved, h, hsave, Table.head_of_save hsave, hcode, hfiles, ?_, ?_, ?_⟩
      · rw [hfiles]
        exact (Files.names_put hcreate saved).read_eq
      · rw [hfiles]
        exact Files.isDirectory_put hcreate saved
      · intro other hother
        rw [hfiles]
        exact Files.get?_put_of_ne fs saved hother
  · intro fault houtgrown hcreate
    rcases r.refused_or_restores fs with h | h | ⟨bytes, t, h⟩
    · exact (outcome_of_refused filter format h).1
    · exact absurd h houtgrown
    · exact (outcome_of_not_created filter format h hcreate).1
  · intro hcode
    rcases r.refused_or_restores fs with h | h | ⟨bytes, t, h⟩
    · exact (outcome_of_refused filter format h).2
    · exact (outcome_of_outgrown filter format h).2
    · cases hcreate : fs.create r.output with
      | error fault => exact (outcome_of_not_created filter format h hcreate).2
      | ok place =>
        obtain ⟨saved, -, hzero, -⟩ := outcome_of_restores filter format h hcreate
        exact absurd hzero hcode
  · intro source fallthrough t rest hrestore
    exact Table.save_of_restored hrestore

end MigrateRequest

open MigrateRequest

/-- A file of the third version, and another file. -/
def shelf : Files := { files := [(["old"], (Persisted.oneItem 0).bytes), (["notes"], [1])] }

/-- The file is to be replaced by what it is migrated to. -/
def inPlace : MigrateRequest := { input := "old", output := "old", force := true }

theorem checkedPath_old : Files.checkedPath "old" = .ok ⟨["old"], .name⟩ := by
  have hparse : Path.parse "old" = ⟨["old"], .name⟩ := by cbv
  rw [← hparse]
  rfl

theorem checkedPath_new : Files.checkedPath "new" = .ok ⟨["new"], .name⟩ := by
  have hparse : Path.parse "new" = ⟨["new"], .name⟩ := by cbv
  rw [← hparse]
  rfl

theorem names_shelf :
    shelf.Names "old" (.file ["old"] (Persisted.oneItem 0).bytes) ["old"] :=
  ⟨_, checkedPath_old, rfl, rfl, rfl⟩

theorem restores_inPlace : inPlace.Restores shelf (Persisted.oneItem 0).bytes Table.movedText where
  allowed := fun _ => rfl
  read := names_shelf.read_eq
  restored := ⟨_, Table.restore_movedText⟩

theorem outcome_of_inPlace : ¬ inPlace.Refused shelf ∧ ¬ inPlace.Outgrown shelf ∧
    shelf.create inPlace.output = .ok ["old"] ∧ ∃ bytes t saved,
      inPlace.Restores shelf bytes t ∧ (t.save none).result = .ok saved ∧
      ((Request.migrate inPlace).outcome shelf ⟨[]⟩ .pretty).code = 0 ∧
      ((Request.migrate inPlace).outcome shelf ⟨[]⟩ .pretty).files.read "old" = .ok saved ∧
      ((Request.migrate inPlace).outcome shelf ⟨[]⟩ .pretty).files.get? ["notes"] = some [1] := by
  have hrefused := restores_inPlace.not_refused
  have houtgrown := restores_inPlace.not_outgrown
  have hcreate : shelf.create inPlace.output = .ok ["old"] :=
    Files.create_eq_ok.mpr ⟨_, names_shelf⟩
  obtain ⟨-, hmigrated, -⟩ := outcome_of_migrate inPlace shelf ⟨[]⟩ .pretty
  obtain ⟨bytes, t, saved, hr, hs, -, hcode, -, hread, -, hothers⟩ :=
    hmigrated ["old"] hrefused houtgrown hcreate
  exact ⟨hrefused, houtgrown, hcreate, bytes, t, saved, hr, hs, hcode, hread,
    hothers ["notes"] (by decide)⟩

/-- A file that outgrows memory. -/
def wideShelf : Files := { files := [(["old"], Persisted.wideFile.bytes)] }

def wideRequest : MigrateRequest := { input := "old", output := "new" }

/-- A migration that is neither done nor refused. -/
theorem outcome_of_wideShelf : wideShelf.pathExists "new" = false ∧
    wideShelf.read "old" = .ok Persisted.wideFile.bytes ∧
    ((Request.migrate wideRequest).outcome wideShelf ⟨[]⟩ .pretty).code = 101 := by
  have hexists : wideShelf.pathExists "new" = false := by
    rw [Files.pathExists, (Files.place_eq_ok checkedPath_new).mpr ⟨rfl, .inl rfl⟩]
  have hnames : wideShelf.Names "old" (.file ["old"] Persisted.wideFile.bytes) ["old"] :=
    ⟨_, checkedPath_old, rfl, rfl, rfl⟩
  have houtgrown : wideRequest.Outgrown wideShelf := by
    refine ⟨?_, _, hnames.read_eq, _, _, _, _, _, Persisted.outgrowing_wideFile⟩
    intro h
    cases hexists.symm.trans h
  exact ⟨hexists, hnames.read_eq, (outcome_of_outgrown ⟨[]⟩ .pretty houtgrown).1⟩

end Command
end VectorTable
