import VectorTable.Files
import VectorTable.Proofs.Codec

/-! Files that were written. A path is followed from directory to directory, so that every place
on the way to a file is a directory before the file is written, and writing it makes no others.
The same path therefore leads to the same place again, which now holds what was written, and
every other file holds what it held. -/
namespace VectorTable

/-- Where a file is, or may come to be. -/
def Place.path? : Place → Option (List String)
  | .directory => none
  | .file path _ | .vacant path => some path

namespace Files

variable {fs : Files} {place here : List String} {bytes : List UInt8}

@[simp] theorem get?_put (fs : Files) (place : List String) (bytes : List UInt8) :
    (fs.put place bytes).get? place = some bytes := by
  simp [get?, put]

theorem lookup_filter_ne {other : List String} (h : other ≠ place)
    (files : List (List String × List UInt8)) :
    (files.filter fun f => f.1 ≠ place).lookup other = files.lookup other := by
  induction files with
  | nil => rfl
  | cons f files ih =>
    by_cases hf : f.1 = place
    · have hne : (other == f.1) = false := by simp [hf, h]
      rw [List.filter_cons_of_neg (by simp [hf]), List.lookup, hne, ih]
    · rw [List.filter_cons_of_pos (by simp [hf]), List.lookup, List.lookup, ih]

theorem get?_put_of_ne (fs : Files) (bytes : List UInt8) {other : List String}
    (h : other ≠ place) : (fs.put place bytes).get? other = fs.get? other := by
  have hne : (other == place) = false := by simp [h]
  simp only [get?, put, List.lookup, hne]
  exact lookup_filter_ne h fs.files

/-! ### Directories -/

theorem isDirectory_iff {path : List String} : fs.isDirectory path = true ↔
    (∀ name ∈ path, name = "..") ∨ path = ["/"] ∨ path ∈ fs.directories ∨
      ∃ f ∈ fs.files, path <+: f.1 ∧ path.length < f.1.length := by
  simp [isDirectory, or_assoc]

/-- A directory, and all places above it are directories, too. -/
def Rooted (fs : Files) (here : List String) : Prop :=
  ∀ above, above <+: here → fs.isDirectory above = true

theorem rooted_nil (fs : Files) : fs.Rooted [] := by
  intro above h
  obtain rfl := List.prefix_nil.mp h
  rfl

theorem Rooted.parent (h : fs.Rooted here) : fs.Rooted (parent here) := by
  intro above ha
  unfold Files.parent at ha
  split_ifs at ha with hdots hroot
  · refine isDirectory_iff.mpr (.inl ?_)
    intro name hn
    rcases List.mem_append.mp (ha.subset hn) with hn | hn
    · simpa using List.all_eq_true.mp hdots name hn
    · exact List.mem_singleton.mp hn
  · exact h above ha
  · exact h above (ha.trans (List.dropLast_prefix here))

theorem Rooted.next {name : String} (h : fs.Rooted here)
    (hd : fs.isDirectory (here ++ [name]) = true) : fs.Rooted (here ++ [name]) := by
  intro above ha
  rcases List.prefix_concat_iff.mp ha with rfl | ha
  · exact hd
  · exact h above ha

/-- A place right below a directory, which is no directory itself. -/
structure Vacancy (fs : Files) (place : List String) : Prop where
  above : ∃ here name, place = here ++ [name] ∧ fs.Rooted here
  none : fs.isDirectory place = false

theorem Vacancy.isDirectory_of_prefix (h : fs.Vacancy place) {above : List String}
    (hp : above <+: place) (hl : above.length < place.length) : fs.isDirectory above = true := by
  obtain ⟨here, name, rfl, hr⟩ := h.above
  rcases List.prefix_concat_iff.mp hp with rfl | hp
  · exact absurd hl (Nat.lt_irrefl _)
  · exact hr above hp

theorem Vacancy.isDirectory_put (h : fs.Vacancy place) (bytes : List UInt8) (path : List String) :
    (fs.put place bytes).isDirectory path = fs.isDirectory path := by
  rw [Bool.eq_iff_iff]
  constructor
  · intro hd
    rcases isDirectory_iff.mp hd with hd | hd | hd | ⟨f, hf, hp, hl⟩
    · exact isDirectory_iff.mpr (.inl hd)
    · exact isDirectory_iff.mpr (.inr (.inl hd))
    · exact isDirectory_iff.mpr (.inr (.inr (.inl hd)))
    · rcases List.mem_cons.mp hf with rfl | hf
      · exact h.isDirectory_of_prefix hp hl
      · exact isDirectory_iff.mpr (.inr (.inr (.inr ⟨f, List.mem_of_mem_filter hf, hp, hl⟩)))
  · intro hd
    rcases isDirectory_iff.mp hd with hd | hd | hd | ⟨f, hf, hp, hl⟩
    · exact isDirectory_iff.mpr (.inl hd)
    · exact isDirectory_iff.mpr (.inr (.inl hd))
    · exact isDirectory_iff.mpr (.inr (.inr (.inl hd)))
    · -- The file below the path is one that stays, or the one that is written anew.
      refine isDirectory_iff.mpr (.inr (.inr (.inr ?_)))
      by_cases hf' : f.1 = place
      · exact ⟨(place, bytes), List.mem_cons_self, hf' ▸ hp, hf' ▸ hl⟩
      · exact ⟨f, List.mem_cons_of_mem _ (List.mem_filter.mpr ⟨hf, by simp [hf']⟩), hp, hl⟩

/-! ### Following a path -/

/-- The place below a directory that is none itself. -/
def leaf (fs : Files) (path : List String) : Place :=
  match fs.get? path with
  | some bytes => .file path bytes
  | none => .vacant path

theorem walk_name {name : String} (rest : List String) (hn : name ≠ "..") :
    fs.walk here (name :: rest) =
      if maxName < name.utf8ByteSize then .error .nameTooLong
      else if fs.isDirectory (here ++ [name]) then fs.walk (here ++ [name]) rest
      else if rest.isEmpty then .ok (fs.leaf (here ++ [name]))
      else match fs.get? (here ++ [name]) with
        | some _ => .error .notDirectory
        | none => .error .notFound := by
  rw [walk.eq_3 fs here name rest hn, leaf]
  cases fs.get? (here ++ [name]) <;> cases rest <;> rfl

/-- A step by name leads into a directory, or it is the last one. -/
theorem walk_name_eq_ok {name : String} {rest : List String} {found : Place} (hn : name ≠ "..") :
    fs.walk here (name :: rest) = .ok found ↔ name.utf8ByteSize ≤ maxName ∧
      (fs.isDirectory (here ++ [name]) = true ∧ fs.walk (here ++ [name]) rest = .ok found ∨
        fs.isDirectory (here ++ [name]) = false ∧ rest = [] ∧
          fs.leaf (here ++ [name]) = found) := by
  rw [walk_name rest hn, ← Nat.not_lt]
  split_ifs with hs hd hr
  · simp [hs]
  · simp [hs, hd]
  · have hr : rest = [] := List.isEmpty_iff.mp hr
    simp [hs, hd, hr]
  · have hr : rest ≠ [] := by simpa using hr
    cases fs.get? (here ++ [name]) <;> simp [hs, hd, hr]

theorem path?_leaf (fs : Files) (path : List String) : (fs.leaf path).path? = some path := by
  unfold leaf
  cases fs.get? path <;> rfl

/-- A path that leads to a place leads there again in any files with the same directories, and
finds what is there. -/
theorem walk_again {parts : List String} {found : Place} (hr : fs.Rooted here)
    (h : fs.walk here parts = .ok found) (hp : found.path? = some place) :
    fs.Vacancy place ∧ ∀ fs' : Files, fs'.isDirectory = fs.isDirectory →
      fs'.walk here parts = .ok (fs'.leaf place) := by
  -- Two dots go from a directory with directories above it to another one.
  induction parts generalizing here with
  | nil =>
    cases h
    cases hp
  | cons name rest ih =>
    by_cases hn : name = ".."
    · subst hn
      exact ih hr.parent h
    · obtain ⟨hs, ⟨hd, h⟩ | ⟨hd, rfl, rfl⟩⟩ := (walk_name_eq_ok hn).mp h
      · obtain ⟨hv, hagain⟩ := ih (hr.next hd) h
        refine ⟨hv, ?_⟩
        intro fs' hdirs
        exact (walk_name_eq_ok hn).mpr ⟨hs, .inl ⟨by rw [hdirs, hd], hagain fs' hdirs⟩⟩
      · rw [path?_leaf, Option.some.injEq] at hp
        subst hp
        refine ⟨⟨⟨here, name, rfl, hr⟩, hd⟩, ?_⟩
        intro fs' hdirs
        exact (walk_name_eq_ok hn).mpr ⟨hs, .inr ⟨by rw [hdirs, hd], rfl, rfl⟩⟩

/-- A path that ends in two dots leads to a directory if it leads anywhere. -/
theorem walk_dots {parts : List String} {found : Place} (hl : parts.getLast? = some "..")
    (h : fs.walk here parts = .ok found) : found = .directory := by
  induction parts generalizing here with
  | nil => simp at hl
  | cons name rest ih =>
    by_cases hrest : rest = []
    · subst hrest
      obtain rfl : name = ".." := by simpa using hl
      cases h
      rfl
    · rw [List.getLast?_cons_of_ne_nil hrest] at hl
      by_cases hn : name = ".."
      · subst hn
        exact ih hl h
      · obtain ⟨-, ⟨-, h⟩ | ⟨-, hnil, -⟩⟩ := (walk_name_eq_ok hn).mp h
        · exact ih hl h
        · exact absurd hnil hrest

/-! ### Creating and reading -/

theorem place_eq_ok {text : String} {path : Path} {found : Place}
    (hpath : checkedPath text = .ok path) : fs.place text = .ok found ↔
      fs.walk [] path.parts = .ok found ∧
        (path.ending = .name ∨ ∀ name bytes, found ≠ .file name bytes) := by
  unfold Files.place
  rw [hpath]
  show (fs.walk [] path.parts >>= _) = _ ↔ _
  rw [except_bind_eq_ok]
  constructor
  · rintro ⟨seen, hwalk, h⟩
    cases seen with
    | file name bytes =>
      by_cases hname : path.ending = .name
      · obtain rfl : Place.file name bytes = found := by simpa [hname] using h
        exact ⟨hwalk, .inl hname⟩
      · simp [hname] at h
    | directory | vacant =>
      cases h
      exact ⟨hwalk, .inr (by simp)⟩
  · rintro ⟨hwalk, hname⟩
    refine ⟨found, hwalk, ?_⟩
    cases found with
    | file name bytes =>
      rcases hname with hname | hname
      · simp [hname]
      · exact absurd rfl (hname name bytes)
    | directory | vacant => rfl

/-- The path of a file, or of one that may come to be. -/
def Names (fs : Files) (text : String) (found : Place) (place : List String) : Prop :=
  ∃ path, checkedPath text = .ok path ∧ path.ending = .name ∧ fs.walk [] path.parts = .ok found ∧
    found.path? = some place

theorem Names.place_eq {text : String} {found : Place} (h : fs.Names text found place) :
    fs.place text = .ok found := by
  obtain ⟨path, hpath, hending, hwalk, -⟩ := h
  exact (place_eq_ok hpath).mpr ⟨hwalk, .inl hending⟩

/-- A file is created exactly at the end of a path that names it. -/
theorem create_eq_ok {text : String} :
    fs.create text = .ok place ↔ ∃ found, fs.Names text found place := by
  constructor
  · intro h
    obtain ⟨path, hpath, h⟩ := except_bind_eq_ok.mp h
    by_cases hslash : path.endsInSlash = true
    · rw [if_pos hslash] at h
      obtain ⟨found, -, h⟩ := except_bind_eq_ok.mp h
      cases found <;> cases h
    rw [if_neg hslash] at h
    obtain ⟨found, hplace, h⟩ := except_bind_eq_ok.mp h
    obtain ⟨hwalk, hname⟩ := (place_eq_ok hpath).mp hplace
    have hfound : found.path? = some place ∧ path.ending ≠ .dot := by
      cases found with
      | directory => cases h
      | file name bytes =>
        cases h
        rcases hname with hname | hname
        · exact ⟨rfl, by simp [hname]⟩
        · exact absurd rfl (hname _ _)
      | vacant name =>
        dsimp only at h
        split_ifs at h with hdot
        cases h
        exact ⟨rfl, hdot⟩
    refine ⟨found, path, hpath, ?_, hwalk, hfound.1⟩
    cases hending : path.ending with
    | name => rfl
    | dot => exact absurd hending hfound.2
    | slash =>
      -- Only the directory of the program and two dots are left before such a slash.
      have hdirectory : found = .directory := by
        cases hlast : path.parts.getLast? with
        | none =>
          rw [List.getLast?_eq_none_iff.mp hlast] at hwalk
          cases hwalk
          rfl
        | some last =>
          have hdots : last = ".." := by simpa [Path.endsInSlash, hending, hlast] using hslash
          exact walk_dots (hdots ▸ hlast) hwalk
      rw [hdirectory] at hfound
      cases hfound.1
  · rintro ⟨found, h⟩
    have hplace := h.place_eq
    obtain ⟨path, hpath, hending, -, hfound⟩ := h
    refine except_bind_eq_ok.mpr ⟨path, hpath, ?_⟩
    rw [if_neg (by simp [Path.endsInSlash, hending])]
    refine except_bind_eq_ok.mpr ⟨found, hplace, ?_⟩
    cases found with
    | directory => cases hfound
    | file name bytes =>
      cases hfound
      rfl
    | vacant name =>
      cases hfound
      simp [hending]

theorem vacancy_of_create {text : String} (h : fs.create text = .ok place) : fs.Vacancy place := by
  obtain ⟨found, path, -, -, hwalk, hfound⟩ := create_eq_ok.mp h
  exact (walk_again (rooted_nil fs) hwalk hfound).1

/-- A file that is written makes no place a directory that was none before. -/
theorem isDirectory_put {text : String} (h : fs.create text = .ok place) (bytes : List UInt8) :
    (fs.put place bytes).isDirectory = fs.isDirectory :=
  funext ((vacancy_of_create h).isDirectory_put bytes)

/-- The path of a file that was written leads to what was written. -/
theorem names_put {text : String} (h : fs.create text = .ok place) (bytes : List UInt8) :
    (fs.put place bytes).Names text (.file place bytes) place := by
  obtain ⟨found, path, hpath, hending, hwalk, hfound⟩ := create_eq_ok.mp h
  have hleaf : (fs.put place bytes).leaf place = .file place bytes := by
    rw [leaf, get?_put]
  have hwalk := (walk_again (rooted_nil fs) hwalk hfound).2 _ (isDirectory_put h bytes)
  rw [hleaf] at hwalk
  exact ⟨path, hpath, hending, hwalk, rfl⟩

theorem read_eq_ok {text : String} :
    fs.read text = .ok bytes ↔ fs.openSource text = .ok ⟨bytes, .endOfData⟩ := by
  constructor
  · intro h
    obtain ⟨⟨bytes', ending⟩, hopen, h⟩ := except_bind_eq_ok.mp h
    cases ending with
    | endOfData =>
      cases h
      exact hopen
    | failing fault => cases h
  · intro h
    exact except_bind_eq_ok.mpr ⟨_, h, rfl⟩

/-- What opens and has bytes is a file. -/
theorem ending_of_openSource {text : String} {source : Source}
    (h : fs.openSource text = .ok source) (hb : source.bytes ≠ []) : source.ending = .endOfData := by
  unfold openSource at h
  split at h
  · cases h
  · cases h
    rfl
  · cases h
    exact absurd rfl hb
  · cases h

theorem Names.openSource_eq {text : String} (h : fs.Names text (.file place bytes) place) :
    fs.openSource text = .ok ⟨bytes, .endOfData⟩ := by
  rw [openSource, h.place_eq]

theorem Names.read_eq {text : String} (h : fs.Names text (.file place bytes) place) :
    fs.read text = .ok bytes :=
  read_eq_ok.mpr h.openSource_eq

end Files
end VectorTable
