import MehoyRuntime.Registry.Integrity
import MehoyRuntime.Registry.Rows

/-!
# What a registration stores

The two tables of the registry, the operations on them as they are run one after the other, and
what is read of an artifact once `register` has returned it. A registration that fails leaves
the tables alone, and they are there when the registry is opened again.
-/

namespace MehoyRuntime.Registry
open MehoyRuntime.Core TransitionSystem Filesystem KeyedTable

structure Database where
  artifacts : List Row
  artifactMetadata : List (String × String × String)

/-- What a registration meets outside the tables. -/
structure Surroundings where
  isDir : Except Fault Bool
  canonical : Except Fault PathBuf
  queried : Option String
  contents : Except Fault Source
  fingerprint : Except Fault ArtifactFingerprint
  bytes : Except Fault (List UInt8)
  now : ℤ
  inserted : Option String

/-- The storage may fail. -/
def storing {α : Type} (answer : Except String α) : Option String → Except RegistryError α
  | some err => .error (.storage err)
  | none => answer.mapError .storage

namespace Database

def reopen (db : Database) : Database := db

def selectId (db : Database) (id : String) : Option Row :=
  db.artifacts.find? fun row => row[0]? = some (.text id)

def selectPath (db : Database) (canonical : String) : Option Row :=
  db.artifacts.find? fun row => row[1]? = some (.text canonical)

def query : Option Row → Except String (Option (ArtifactFormat × ModelArtifact))
  | none => .ok none
  | some row => ((rowToArtifact row).map some).mapError ColumnError.display

def get (db : Database) (id : String) : Except String (Option (ArtifactFormat × ModelArtifact)) :=
  query (db.selectId id)

def findByPath (db : Database) (canonical : String) :
    Except String (Option (ArtifactFormat × ModelArtifact)) :=
  query (db.selectPath canonical)

/-- `INSERT OR REPLACE INTO artifact_metadata`. -/
def insertEntry (id : String) (rows : List (String × String × String))
    (entry : String × MetadataValue) : List (String × String × String) :=
  rows.filter (fun row => ¬(row.1 = id ∧ row.2.1 = entry.1)) ++ [(id, entry.1, renderValue entry.2)]

def insert (db : Database) (artifact : ModelArtifact) (header : GgufHeader) : Except String Database :=
  if (db.selectId artifact.id).isSome then .error "UNIQUE constraint failed: artifacts.id"
  else if (db.selectPath (toStringLossy artifact.path)).isSome then
    .error "UNIQUE constraint failed: artifacts.canonical_path"
  else .ok {
    artifacts := insertParams artifact :: db.artifacts
    artifactMetadata := header.entries.foldl (insertEntry artifact.id) db.artifactMetadata }

/-- `SELECT key, value … ORDER BY key`. -/
def metadata (db : Database) (id : String) : List (String × String) :=
  ((db.artifactMetadata.filter fun row => row.1 = id).map fun row => row.2).mergeSort keyOrder

def verify (db : Database) (id : String) (digest : List UInt8) : Database :=
  { db with
    artifacts := db.artifacts.map fun row =>
      if row[0]? = some (.text id) then row.verified digest else row }

/-- The entries of a row go with it. -/
def forget (db : Database) (id : String) : Database where
  artifacts := db.artifacts.filter fun row => row[0]? ≠ some (.text id)
  artifactMetadata := db.artifactMetadata.filter fun row => row.1 ≠ id

def register (db : Database) (path : PathBuf) (s : Surroundings) :
    Except RegistryError (Registration × Database) :=
  match s.isDir with
  | .error .notFound => throw (.notFound path)
  | .error fault => throw (.io fault)
  | .ok true => throw (.notAFile path "path is a directory")
  | .ok false => do
    let canonical ← s.canonical.mapError RegistryError.io
    match ← storing (db.findByPath (toStringLossy canonical)) s.queried with
    | some (_, existing) => return (.alreadyRegistered existing, db)
    | none =>
      let source ← s.contents.mapError RegistryError.io
      match parse source with
      | .error err _ => throw (.notAnArtifact canonical err)
      | .ok header _ =>
        let fingerprint ← s.fingerprint.mapError RegistryError.io
        let bytes ← s.bytes.mapError RegistryError.io
        let artifact := newArtifact (generateId bytes) canonical header fingerprint s.now
        let db ← storing (db.insert artifact header) s.inserted
        return (.registered artifact, db)

end Database

inductive TableAction
  | register (path : PathBuf) (s : Surroundings)
  | verify (id : String) (digest : List UInt8)
  | forget (id : String)
  | reopen

/-- The header that was parsed for each identifier that has a row. -/
abbrev Headers := String → Option GgufHeader

namespace Database

def step (db : Database) : TableAction → Option Database
  | .register path s =>
    match db.register path s with
    | .ok (_, db') => some db'
    | .error _ => some db
  | .verify id digest => some (db.verify id digest)
  | .forget id => some (db.forget id)
  | .reopen => some db.reopen

def system : System Database TableAction where
  init db := db = ⟨[], []⟩
  step := step

def note (headers : Headers) (db : Database) : TableAction → Headers
  | .register path s =>
    match db.register path s, s.contents with
    | .ok (.registered artifact, _), .ok source =>
      match parse source with
      | .ok header _ => Function.update headers artifact.id (some header)
      | .error _ _ => headers
    | _, _ => headers
  | .forget id => Function.update headers id none
  | _ => headers

/-- The tables with the headers that they were filled from. -/
def history : System (Database × Headers) TableAction :=
  system.recording (fun _ => none) note

/-- What is read of an artifact is what was returned of it, and the entries are those of the
header, in the order of their keys. -/
structure Stores (db : Database) (header : GgufHeader) (artifact : ModelArtifact) : Prop where
  row : ∃ kept, db.get artifact.id = .ok (some (.gguf, kept)) ∧
    kept.sizeBytes = artifact.sizeBytes ∧ kept.integrity = artifact.integrity ∧
    kept.metadata = artifact.metadata
  entries : db.metadata artifact.id =
    header.entries.map fun entry => (entry.1, renderValue entry.2)

end Database

/-! ### The entries of a header -/

theorem keyBytes_injective : Function.Injective keyBytes := by
  intro a b h
  apply Utf8.bytesOf_injective
  exact List.map_injective_iff.mpr (fun _ _ => UInt8.toNat_inj.mp) h

theorem entries_perm (header : GgufHeader) :
    header.entries.Perm (header.metadata.entries.map fun entry => (entry.1, entry.2)) :=
  List.mergeSort_perm _ _

theorem entries_nodup (header : GgufHeader) : (header.entries.map Prod.fst).Nodup := by
  have hkeys : (header.metadata.entries.map Sigma.fst).Nodup := header.metadata.nodupKeys
  refine ((entries_perm header).map Prod.fst).nodup_iff.mpr ?_
  rw [List.map_map]
  exact hkeys

theorem keyOrder_sorted {α : Type} (l : List (String × α)) :
    (l.mergeSort keyOrder).Pairwise (keyOrder · ·) := by
  refine List.pairwise_mergeSort ?_ ?_ l
  · intro a b c hab hbc
    simp only [keyOrder, decide_eq_true_eq] at hab hbc ⊢
    exact hab.trans hbc
  · intro a b
    simp only [keyOrder, Bool.or_eq_true, decide_eq_true_eq]
    exact le_total _ _

/-- The keys of a header come one after the other. -/
theorem entries_sorted (header : GgufHeader) :
    header.entries.Pairwise fun a b => keyBytes a.1 < keyBytes b.1 := by
  have hdistinct : header.entries.Pairwise fun a b => a.1 ≠ b.1 :=
    List.pairwise_map.mp (entries_nodup header)
  refine (List.Pairwise.and hdistinct (keyOrder_sorted _)).imp ?_
  rintro a b ⟨hne, hle⟩
  simp only [keyOrder, decide_eq_true_eq] at hle
  exact lt_of_le_of_ne hle fun heq => hne (keyBytes_injective heq)

namespace Database
variable {db db' : Database} {headers : Headers} {artifact : ModelArtifact} {header : GgufHeader}

/-! ### One operation -/

theorem insert_ok (h : db.insert artifact header = .ok db') :
    db.selectId artifact.id = none ∧ db' = {
      artifacts := insertParams artifact :: db.artifacts
      artifactMetadata := header.entries.foldl (insertEntry artifact.id) db.artifactMetadata } := by
  unfold insert at h
  by_cases hid : (db.selectId artifact.id).isSome
  · rw [if_pos hid] at h
    cases h
  · rw [if_neg hid] at h
    by_cases hpath : (db.selectPath (toStringLossy artifact.path)).isSome
    · rw [if_pos hpath] at h
      cases h
    · rw [if_neg hpath] at h
      cases h
      exact ⟨Option.not_isSome_iff_eq_none.mp hid, rfl⟩

/-- Entries with keys of their own replace nothing. -/
theorem foldl_insertEntry (id : String) (entries : List (String × MetadataValue))
    (hnodup : (entries.map Prod.fst).Nodup) (rows : List (String × String × String))
    (hfree : ∀ row ∈ rows, row.1 = id → row.2.1 ∉ entries.map Prod.fst) :
    entries.foldl (insertEntry id) rows =
      rows ++ entries.map fun entry => (id, entry.1, renderValue entry.2) := by
  induction entries generalizing rows with
  | nil => simp
  | cons entry entries ih =>
    obtain ⟨hnew, hrest⟩ := List.nodup_cons.mp hnodup
    have hkept : rows.filter (fun row => ¬(row.1 = id ∧ row.2.1 = entry.1)) = rows := by
      refine List.filter_eq_self.mpr fun row hrow => ?_
      simp only [decide_eq_true_eq]
      rintro ⟨hid, hkey⟩
      exact hfree row hrow hid (by simp [hkey])
    rw [List.foldl_cons, insertEntry, hkept, ih hrest, List.map_cons, List.append_assoc]
    · rfl
    · intro row hrow hid
      rcases List.mem_append.mp hrow with hrow | hrow
      · exact fun hkey => hfree row hrow hid (List.mem_cons_of_mem _ hkey)
      · rw [List.mem_singleton.mp hrow]
        exact hnew

theorem mapError_ok {ε ε' α : Type} {f : ε → ε'} {x : Except ε α} {a : α}
    (h : x.mapError f = .ok a) : x = .ok a := by
  cases x with
  | error e => cases h
  | ok b =>
    cases h
    rfl

theorem storing_ok {α : Type} {answer : Except String α} {failure : Option String} {a : α}
    (h : storing answer failure = .ok a) : answer = .ok a := by
  cases failure with
  | some err => cases h
  | none => exact mapError_ok h

theorem query_ok {row : Option Row} {found : ArtifactFormat × ModelArtifact}
    (h : query row = .ok (some found)) : ∃ r, row = some r ∧ rowToArtifact r = .ok found := by
  cases row with
  | none => cases h
  | some r =>
    refine ⟨r, rfl, ?_⟩
    have hread := mapError_ok h
    cases hrow : rowToArtifact r with
    | error err =>
      rw [hrow] at hread
      cases hread
    | ok found' =>
      rw [hrow] at hread
      cases hread
      rfl

/-- A registration that succeeds has found a row, or has inserted one. -/
theorem register_ok {path : PathBuf} {s : Surroundings} {registration : Registration}
    (h : db.register path s = .ok (registration, db')) :
    ∃ canonical, s.canonical = .ok canonical ∧
      ((∃ format existing, db.findByPath (toStringLossy canonical) = .ok (some (format, existing)) ∧
        registration = .alreadyRegistered existing ∧ db' = db) ∨
      ∃ source header rest fingerprint bytes,
        db.findByPath (toStringLossy canonical) = .ok none ∧ s.contents = .ok source ∧
        parse source = .ok header rest ∧ s.fingerprint = .ok fingerprint ∧
        registration =
          .registered (newArtifact (generateId bytes) canonical header fingerprint s.now) ∧
        db.insert (newArtifact (generateId bytes) canonical header fingerprint s.now) header =
          .ok db') := by
  unfold register at h
  split at h
  · cases h
  · cases h
  · cases h
  · obtain ⟨canonical, hcanonical, h⟩ := Files.bind_ok h
    refine ⟨canonical, mapError_ok hcanonical, ?_⟩
    obtain ⟨found, hfound, h⟩ := Files.bind_ok h
    have hquery := storing_ok hfound
    split at h
    · rename_i format existing
      cases h
      exact .inl ⟨format, existing, hquery, rfl, rfl⟩
    · obtain ⟨source, hsource, h⟩ := Files.bind_ok h
      split at h
      · cases h
      · rename_i header rest hparse
        obtain ⟨fingerprint, hfingerprint, h⟩ := Files.bind_ok h
        obtain ⟨bytes, -, h⟩ := Files.bind_ok h
        obtain ⟨grown, hinsert, h⟩ := Files.bind_ok h
        cases h
        exact .inr ⟨source, header, rest, fingerprint, bytes, hquery, mapError_ok hsource, hparse,
          mapError_ok hfingerprint, rfl, storing_ok hinsert⟩

/-! ### Every run -/

/-- A row is of an artifact, no other has its identifier, and its entries are those of the header
that was parsed for it. -/
structure Kept (db : Database) (headers : Headers) : Prop where
  rows : ∀ row ∈ db.artifacts, ∃ artifact state algorithm digest,
    row = columns artifact state algorithm digest ∧ (headers artifact.id).isSome
  ids : ∀ row ∈ db.artifacts, ∀ other ∈ db.artifacts, row[0]? = other[0]? → row = other
  known : ∀ id, (headers id).isSome → ∃ row ∈ db.artifacts, row[0]? = some (.text id)
  entries : ∀ id header, headers id = some header →
    (db.artifactMetadata.filter fun row => row.1 = id).map (fun row => row.2) =
      header.entries.map fun entry => (entry.1, renderValue entry.2)
  strangers : ∀ entry ∈ db.artifactMetadata, (headers entry.1).isSome

theorem selectId_none {id : String} (h : db.selectId id = none) :
    ∀ row ∈ db.artifacts, row[0]? ≠ some (.text id) := by
  simpa [selectId] using h

theorem Kept.selectId_eq {id : String} {row : Row} (h : Kept db headers) (hrow : row ∈ db.artifacts)
    (hid : row[0]? = some (.text id)) : db.selectId id = some row := by
  cases hselect : db.selectId id with
  | none => exact absurd hid (selectId_none hselect row hrow)
  | some other =>
    have hother : other[0]? = some (.text id) := by simpa using List.find?_some hselect
    rw [h.ids other (List.mem_of_find?_eq_some hselect) row hrow (hother.trans hid.symm)]

theorem Kept.metadata_eq {id : String} (h : Kept db headers) (hheader : headers id = some header) :
    db.metadata id = header.entries.map fun entry => (entry.1, renderValue entry.2) := by
  rw [metadata, h.entries id header hheader]
  refine List.mergeSort_of_pairwise ?_
  refine List.pairwise_map.mpr ((entries_sorted header).imp fun {a b} hlt => ?_)
  simp only [keyOrder, decide_eq_true_eq]
  exact le_of_lt hlt

theorem Kept.free {id : String} (h : Kept db headers) (hselect : db.selectId id = none) :
    headers id = none := by
  by_contra hsome
  obtain ⟨row, hrow, hid⟩ := h.known id (Option.isSome_iff_ne_none.mpr hsome)
  exact selectId_none hselect row hrow hid

theorem Kept.insert (h : Kept db headers) (hinsert : db.insert artifact header = .ok db') :
    Kept db' (Function.update headers artifact.id (some header)) := by
  obtain ⟨hselect, rfl⟩ := insert_ok hinsert
  have hfresh := selectId_none hselect
  have hnone := h.free hselect
  have hothers : ∀ row ∈ db.artifactMetadata, row.1 ≠ artifact.id := by
    intro row hrow hid
    have hsome := h.strangers row hrow
    rw [hid, hnone] at hsome
    cases hsome
  have hfold := foldl_insertEntry artifact.id header.entries (entries_nodup header)
    db.artifactMetadata fun row hrow hid => absurd hid (hothers row hrow)
  constructor
  case rows =>
    intro row hrow
    rcases List.mem_cons.mp hrow with rfl | hrow
    · refine ⟨artifact, "unverified", none, none, insertParams_columns artifact, ?_⟩
      rw [Function.update_self]
      rfl
    · obtain ⟨before, state, algorithm, digest, rfl, hheader⟩ := h.rows row hrow
      refine ⟨before, state, algorithm, digest, rfl, ?_⟩
      have hne : before.id ≠ artifact.id := fun hsame =>
        hfresh _ hrow (congrArg (fun id => some (SqlValue.text id)) hsame)
      rw [Function.update_of_ne hne]
      exact hheader
  case ids =>
    intro row hrow other hother hsame
    have hhead : (insertParams artifact)[0]? = some (.text artifact.id) := rfl
    rcases List.mem_cons.mp hrow with rfl | hrow
    · rcases List.mem_cons.mp hother with rfl | hother
      · rfl
      · exact absurd (hsame.symm.trans hhead) (hfresh other hother)
    · rcases List.mem_cons.mp hother with rfl | hother
      · exact absurd (hsame.trans hhead) (hfresh row hrow)
      · exact h.ids row hrow other hother hsame
  case known =>
    intro id hsome
    by_cases hid : id = artifact.id
    · subst hid
      exact ⟨_, List.mem_cons_self, rfl⟩
    · rw [Function.update_of_ne hid] at hsome
      obtain ⟨row, hrow, hrowId⟩ := h.known id hsome
      exact ⟨row, List.mem_cons_of_mem _ hrow, hrowId⟩
  case entries =>
    intro id header' hheader
    simp only [hfold, List.filter_append, List.map_append]
    rcases Slots.update_cases hheader with ⟨rfl, hnew⟩ | ⟨hid, hheader⟩
    · cases hnew
      have hbefore : db.artifactMetadata.filter (fun row => row.1 = artifact.id) = [] := by
        refine List.filter_eq_nil_iff.mpr fun row hrow => ?_
        simpa using hothers row hrow
      rw [hbefore]
      simp [List.filter_map, Function.comp_def]
    · rw [h.entries id header' hheader]
      simp [List.filter_map, Function.comp_def, Ne.symm hid]
  case strangers =>
    intro entry hentry
    rw [hfold] at hentry
    rcases List.mem_append.mp hentry with hentry | hentry
    · rw [Function.update_of_ne (hothers entry hentry)]
      exact h.strangers entry hentry
    · obtain ⟨pair, -, rfl⟩ := List.mem_map.mp hentry
      rw [Function.update_self]
      rfl

theorem Kept.verify (h : Kept db headers) (id : String) (digest : List UInt8) :
    Kept (db.verify id digest) headers := by
  -- A row that is written to keeps its first column.
  have hrows : ∀ row' ∈ (db.verify id digest).artifacts, ∃ row ∈ db.artifacts,
      row'[0]? = row[0]? ∧
        row' = if row[0]? = some (.text id) then row.verified digest else row := by
    intro row' hrow'
    obtain ⟨row, hrow, rfl⟩ := List.mem_map.mp hrow'
    refine ⟨row, hrow, ?_, rfl⟩
    obtain ⟨artifact, state, algorithm, digest', rfl, -⟩ := h.rows row hrow
    split <;> rfl
  constructor
  case rows =>
    intro row' hrow'
    obtain ⟨row, hrow, -, rfl⟩ := hrows row' hrow'
    obtain ⟨artifact, state, algorithm, digest', rfl, hheader⟩ := h.rows row hrow
    split
    · exact ⟨artifact, _, _, _, verified_columns .., hheader⟩
    · exact ⟨artifact, state, algorithm, digest', rfl, hheader⟩
  case ids =>
    intro row' hrow' other' hother' hsame
    obtain ⟨row, hrow, hid, heq⟩ := hrows row' hrow'
    obtain ⟨other, hother, hotherId, hotherEq⟩ := hrows other' hother'
    rw [heq, hotherEq, h.ids row hrow other hother (by rw [← hid, hsame, hotherId])]
  case known =>
    intro other hsome
    obtain ⟨row, hrow, hid⟩ := h.known other hsome
    obtain ⟨artifact, state, algorithm, digest', rfl, -⟩ := h.rows row hrow
    refine ⟨_, List.mem_map.mpr ⟨_, hrow, rfl⟩, ?_⟩
    split <;> exact hid
  case entries => exact h.entries
  case strangers => exact h.strangers

theorem Kept.forget (h : Kept db headers) (id : String) :
    Kept (db.forget id) (Function.update headers id none) where
  rows := by
    intro row hrow
    obtain ⟨hrow, hne⟩ := List.mem_filter.mp hrow
    obtain ⟨artifact, state, algorithm, digest, rfl, hheader⟩ := h.rows row hrow
    refine ⟨artifact, state, algorithm, digest, rfl, ?_⟩
    have hother : artifact.id ≠ id := by
      rintro rfl
      simp at hne
      exact hne rfl
    rw [Function.update_of_ne hother]
    exact hheader
  ids row hrow other hother := h.ids row (List.mem_filter.mp hrow).1 other (List.mem_filter.mp hother).1
  known := by
    intro other hsome
    by_cases hother : other = id
    · rw [hother, Function.update_self] at hsome
      cases hsome
    · rw [Function.update_of_ne hother] at hsome
      obtain ⟨row, hrow, hrowId⟩ := h.known other hsome
      refine ⟨row, List.mem_filter.mpr ⟨hrow, ?_⟩, hrowId⟩
      simpa [hrowId] using hother
  entries := by
    intro other header hheader
    rcases Slots.update_cases hheader with ⟨-, hnone⟩ | ⟨hother, hheader⟩
    · cases hnone
    · rw [← h.entries other header hheader, Database.forget, List.filter_filter]
      congr 1
      refine List.filter_congr fun row _ => ?_
      by_cases hrow : row.1 = other
      · simp [hrow, hother]
      · simp [hrow]
  strangers := by
    intro entry hentry
    obtain ⟨hentry, hne⟩ := List.mem_filter.mp hentry
    rw [Function.update_of_ne (by simpa using hne)]
    exact h.strangers entry hentry

/-- What `register` makes of the tables and of their history. -/
theorem Kept.register {path : PathBuf} {s : Surroundings} {registration : Registration}
    (h : Kept db headers) (hregister : db.register path s = .ok (registration, db')) :
    Kept db' (note headers db (.register path s)) := by
  obtain ⟨canonical, -, hfound | hnew⟩ := register_ok hregister
  · obtain ⟨format, existing, -, rfl, rfl⟩ := hfound
    simp only [note, hregister]
    exact h
  · obtain ⟨source, header, rest, fingerprint, bytes, -, hsource, hparse, -, rfl, hinsert⟩ := hnew
    simp only [note, hregister, hsource, hparse]
    exact h.insert hinsert

theorem Kept.step {s s' : Database × Headers} {action : TableAction} (h : Kept s.1 s.2)
    (hstep : history.step s action = some s') : Kept s'.1 s'.2 := by
  obtain ⟨db', headers'⟩ := s'
  obtain ⟨hstep, hnote⟩ := recording_step hstep
  replace hstep : s.1.step action = some db' := hstep
  replace hnote : headers' = note s.2 s.1 action := hnote
  show Kept db' headers'
  rw [hnote]
  cases action with
  | register path surroundings =>
    simp only [Database.step] at hstep
    cases hregister : s.1.register path surroundings with
    | error err =>
      rw [hregister] at hstep
      cases hstep
      simp only [note, hregister]
      exact h
    | ok result =>
      rw [hregister] at hstep
      cases hstep
      exact h.register hregister
  | verify id digest =>
    cases hstep
    exact h.verify id digest
  | forget id =>
    cases hstep
    exact h.forget id
  | reopen =>
    cases hstep
    exact h

theorem kept_reachable {s : Database × Headers} (h : Reachable history s) : Kept s.1 s.2 := by
  refine h.invariant (I := fun s => Kept s.1 s.2) ?_ fun _ _ _ _ h _ hstep => h.step hstep
  rintro ⟨db, headers⟩ ⟨hdb, hheaders⟩
  replace hdb : db = ⟨[], []⟩ := hdb
  replace hheaders : headers = fun _ => none := hheaders
  subst hdb hheaders
  constructor
  case rows | ids | strangers => exact fun _ h => by cases h
  case known => exact fun _ h => by cases h
  case entries => exact fun _ _ h => by cases h

/-! ### What a registration has stored -/

theorem Kept.get_eq {row : Row} {found : ArtifactFormat × ModelArtifact} (h : Kept db headers)
    (hrow : row ∈ db.artifacts) (hread : rowToArtifact row = .ok found) :
    found.1 = .gguf ∧ db.get found.2.id = .ok (some found) ∧ (headers found.2.id).isSome := by
  obtain ⟨artifact, state, algorithm, digest, rfl, hheader⟩ := h.rows row hrow
  have hcolumns := rowToArtifact_columns artifact state algorithm digest
  rw [hcolumns] at hread
  cases hread
  refine ⟨rfl, ?_, hheader⟩
  have hselect : db.selectId artifact.id = some (columns artifact state algorithm digest) :=
    h.selectId_eq hrow rfl
  show query (db.selectId artifact.id) = _
  rw [hselect, query, hcolumns]
  rfl

theorem Kept.found {canonical : String} {found : ArtifactFormat × ModelArtifact} (h : Kept db headers)
    (hfind : db.findByPath canonical = .ok (some found)) :
    ∃ header, headers found.2.id = some header ∧ Stores db header found.2 := by
  obtain ⟨row, hselect, hread⟩ := query_ok hfind
  obtain ⟨hformat, hget, hsome⟩ := h.get_eq (List.mem_of_find?_eq_some hselect) hread
  obtain ⟨header, hheader⟩ := Option.isSome_iff_exists.mp hsome
  obtain ⟨format, existing⟩ := found
  cases hformat
  exact ⟨header, hheader, ⟨existing, hget, rfl, rfl, rfl⟩, h.metadata_eq hheader⟩

/-- What has been inserted is read with its numbers as they are stored. -/
theorem Kept.inserted (h : Kept db headers) (hinsert : db.insert artifact header = .ok db') :
    db'.get artifact.id = .ok (some (.gguf, artifact.stored)) ∧
      db'.metadata artifact.id = header.entries.map fun entry => (entry.1, renderValue entry.2) := by
  have hkept := h.insert hinsert
  obtain ⟨-, rfl⟩ := insert_ok hinsert
  have hread := rowToArtifact_columns artifact "unverified" none none
  rw [← insertParams_columns] at hread
  have hget := (hkept.get_eq List.mem_cons_self hread).2.1
  exact ⟨hget, hkept.metadata_eq (Function.update_self ..)⟩

/-- The registry stores what it has parsed, when the numbers of a header that it parses fit. -/
theorem register_stores_iff {s : Database × Headers} (h : Reachable history s) {path : PathBuf}
    {surroundings : Surroundings} {registration : Registration}
    (hregister : s.1.register path surroundings = .ok (registration, db'))
    (hsize : ∀ fingerprint, surroundings.fingerprint = .ok fingerprint →
      (fingerprint.sizeBytes : ℤ) ≤ i64Max) :
    (∃ header, note s.2 s.1 (.register path surroundings) registration.artifact.id = some header ∧
      Stores db' header registration.artifact ∧ Stores db'.reopen header registration.artifact) ↔
    ∀ canonical source header rest, surroundings.canonical = .ok canonical →
      s.1.findByPath (toStringLossy canonical) = .ok none → surroundings.contents = .ok source →
      parse source = .ok header rest → header.Storable := by
  have hkept := kept_reachable h
  obtain ⟨canonical, hcanonical, hfound | hnew⟩ := register_ok hregister
  · obtain ⟨format, existing, hfind, rfl, rfl⟩ := hfound
    constructor
    · intro _ canonical' source header rest hcanonical' hnone
      rw [hcanonical] at hcanonical'
      cases hcanonical'
      rw [hfind] at hnone
      cases hnone
    · intro _
      obtain ⟨header, hheader, hstores⟩ := hkept.found hfind
      simp only [note, hregister]
      exact ⟨header, hheader, hstores, hstores⟩
  · obtain ⟨source, header, rest, fingerprint, bytes, hfind, hsource, hparse, hfingerprint, rfl,
      hinsert⟩ := hnew
    obtain ⟨hget, hentries⟩ := hkept.inserted hinsert
    have hfits := fromSigned_toSigned (hsize fingerprint hfingerprint)
    constructor
    · rintro ⟨header', -, hstores, -⟩ canonical' source' header'' rest' - - hsource' hparse'
      rw [hsource] at hsource'
      cases hsource'
      rw [hparse] at hparse'
      cases hparse'
      obtain ⟨kept, hkept, -, -, hmetadata⟩ := hstores.row
      replace hkept : db'.get _ = .ok (some (.gguf, kept)) := hkept
      rw [Registration.artifact, hget] at hkept
      cases hkept
      exact (fromHeader_stored_iff hparse).mp hmetadata
    · intro hstorable
      have hmetadata := (fromHeader_stored_iff hparse).mpr
        (hstorable canonical source header rest hcanonical hfind hsource hparse)
      have hstores : Stores db' header
          (newArtifact (generateId bytes) canonical header fingerprint surroundings.now) :=
        ⟨⟨_, hget, hfits, rfl, hmetadata⟩, hentries⟩
      refine ⟨header, ?_, hstores, hstores⟩
      simp only [note, hregister, hsource, hparse]
      exact Function.update_self ..

/-! ### The rows as records -/

/-- The rows are those of the records, column by column. -/
def Refines (db : Database) (store : Store) : Prop :=
  List.Forall₂ (fun row record => ∃ artifact state algorithm digest,
    row = columns artifact state algorithm digest ∧
      record.artifact =
        { artifact.stored with integrity := storedIntegrity state algorithm digest })
    db.artifacts store.records

theorem find_forall₂ {α β : Type} {R : α → β → Prop} {p : α → Bool} {q : β → Bool} {l : List α}
    {l' : List β} (h : List.Forall₂ R l l') (hpq : ∀ a b, R a b → p a = q b) :
    (l.find? p = none ∧ l'.find? q = none) ∨
      ∃ a b, l.find? p = some a ∧ l'.find? q = some b ∧ R a b := by
  induction h with
  | nil => exact .inl ⟨rfl, rfl⟩
  | @cons a b l l' hab _ ih =>
    cases hq : q b with
    | true =>
      have hp := (hpq a b hab).trans hq
      exact .inr ⟨a, b, List.find?_cons_of_pos hp, List.find?_cons_of_pos hq, hab⟩
    | false =>
      have hp := (hpq a b hab).trans hq
      rw [List.find?_cons_of_neg (by simp [hp]), List.find?_cons_of_neg (by simp [hq])]
      exact ih

variable {store store' : Store}

/-- One query of a row, and the record it is of. -/
theorem refines_query {row : Option Row} {record : Option Record}
    (h : (row = none ∧ record = none) ∨ ∃ r rec, row = some r ∧ record = some rec ∧
      ∃ artifact state algorithm digest, r = columns artifact state algorithm digest ∧
        rec.artifact =
          { artifact.stored with integrity := storedIntegrity state algorithm digest }) :
    query row = .ok (record.map fun record => (.gguf, record.artifact)) := by
  rcases h with ⟨rfl, rfl⟩ | ⟨r, rec, rfl, rfl, artifact, state, algorithm, digest, rfl, hrecord⟩
  · rfl
  · rw [query, rowToArtifact_columns, Option.map_some, hrecord]
    rfl

theorem Refines.find_id (h : db.Refines store) (id : String) :
    (db.selectId id = none ∧ store.get id = none) ∨ ∃ r rec, db.selectId id = some r ∧
      store.get id = some rec ∧ ∃ artifact state algorithm digest,
        r = columns artifact state algorithm digest ∧ rec.artifact =
          { artifact.stored with integrity := storedIntegrity state algorithm digest } := by
  refine find_forall₂ h ?_
  rintro row record ⟨artifact, state, algorithm, digest, rfl, hrecord⟩
  have hid : (columns artifact state algorithm digest)[0]? = some (.text artifact.id) := rfl
  simp [hid, hrecord, ModelArtifact.stored]

theorem Refines.find_path (h : db.Refines store) (canonical : PathBuf) :
    (db.selectPath (toStringLossy canonical) = none ∧ store.findByPath canonical = none) ∨
    ∃ r rec, db.selectPath (toStringLossy canonical) = some r ∧
      store.findByPath canonical = some rec ∧ ∃ artifact state algorithm digest,
        r = columns artifact state algorithm digest ∧ rec.artifact =
          { artifact.stored with integrity := storedIntegrity state algorithm digest } := by
  refine find_forall₂ h ?_
  rintro row record ⟨artifact, state, algorithm, digest, rfl, hrecord⟩
  have hpath : (columns artifact state algorithm digest)[1]? =
      some (.text (toStringLossy artifact.path)) := rfl
  simp [hpath, hrecord, ModelArtifact.stored, PathBuf.stored, Utf8.bytesOf_injective.eq_iff]

theorem Refines.get (h : db.Refines store) (id : String) :
    db.get id = .ok ((store.get id).map fun record => (.gguf, record.artifact)) :=
  refines_query (h.find_id id)

theorem Refines.findByPath (h : db.Refines store) (canonical : PathBuf) :
    db.findByPath (toStringLossy canonical) =
      .ok ((store.findByPath canonical).map fun record => (.gguf, record.artifact)) :=
  refines_query (h.find_path canonical)

/-- An insertion fails in both for one reason, or adds one row to both. -/
theorem Refines.insert (h : db.Refines store) (artifact : ModelArtifact) (header : GgufHeader)
    (version : Version) :
    (∃ err, db.insert artifact header = .error err ∧ store.insert artifact version = .error err) ∨
    ∃ db' store', db.insert artifact header = .ok db' ∧ store.insert artifact version = .ok store' ∧
      db'.Refines store' := by
  unfold Database.insert Store.insert
  rcases h.find_id artifact.id with ⟨hrow, hrecord⟩ | ⟨row, record, hrow, hrecord, -⟩
  · rcases h.find_path artifact.path with ⟨hpath, hpath'⟩ | ⟨row, record, hpath, hpath', -⟩
    · simp only [hrow, hrecord, hpath, hpath', Option.isSome_none, Bool.false_eq_true, if_false]
      refine .inr ⟨_, _, rfl, rfl, .cons ?_ h⟩
      exact ⟨artifact, "unverified", none, none, insertParams_columns artifact, rfl⟩
    · simp only [hrow, hrecord, hpath, hpath', Option.isSome_none, Option.isSome_some,
        Bool.false_eq_true, if_false, if_true]
      exact .inl ⟨_, rfl, rfl⟩
  · simp only [hrow, hrecord, Option.isSome_some, if_true]
    exact .inl ⟨_, rfl, rfl⟩

theorem Refines.verify (h : db.Refines store) (id : String) (digest : List UInt8) :
    (db.verify id digest).Refines (store.update id digest) := by
  refine List.forall₂_map_left_iff.mpr (List.forall₂_map_right_iff.mpr (h.imp ?_))
  rintro row record ⟨artifact, state, algorithm, digest', rfl, hrecord⟩
  have hid : (columns artifact state algorithm digest')[0]? = some (.text artifact.id) := rfl
  have hrecordId : record.artifact.id = artifact.id := by rw [hrecord]; rfl
  by_cases hsame : artifact.id = id
  · rw [if_pos (by rw [hid, hsame]), if_pos (hrecordId.trans hsame)]
    exact ⟨artifact, "verified", some "sha256", some digest, verified_columns .., by rw [hrecord]; rfl⟩
  · rw [if_neg (by simp [hid, hsame]), if_neg (by rw [hrecordId]; exact hsame)]
    exact ⟨artifact, state, algorithm, digest', rfl, hrecord⟩

theorem Refines.forget (h : db.Refines store) (id : String) :
    (db.forget id).Refines
      { store with records := store.records.filter fun record => record.artifact.id ≠ id } := by
  refine List.rel_filter ?_ h
  rintro row record ⟨artifact, state, algorithm, digest, rfl, hrecord⟩
  have hid : (columns artifact state algorithm digest)[0]? = some (.text artifact.id) := rfl
  have hrecordId : record.artifact.id = artifact.id := by rw [hrecord]; rfl
  simp [hid, hrecordId]

/-! ### A container with a file type -/

def typedContainer (fileType : UInt64) : Header := ⟨3, 0, [("general.file_type", .u64 fileType)]⟩

theorem typedContainer_parses (fileType : UInt64) : ∃ header rest,
    parse (Source.ofBytes (typedContainer fileType).encode) = .ok header rest ∧
      header.number "general.file_type" = some fileType.toNat := by
  have hfits : (typedContainer fileType).Fits := by
    constructor
    case version => exact .inr rfl
    case tensorCount => exact Nat.zero_le _
    case count => simp [typedContainer, MAX_METADATA_ENTRIES]
    case distinct => simp [typedContainer]
    case keys =>
      have htext : "general.file_type".utf8ByteSize ≤ MAX_STRING_BYTES := by decide
      simpa [typedContainer] using htext
    case values => simp [typedContainer, Value.Fits]
  have hsize : (typedContainer fileType).encode.length ≤ MAX_HEADER_BYTES := by
    have htext : (Utf8.bytesOf "general.file_type").length = 17 := by decide
    simp [typedContainer, Header.encode, Header.encodeEntry, Value.encodeText, Value.encode, MAGIC,
      htext, MAX_HEADER_BYTES]
  have hnext := next_ofBytes (typedContainer fileType).encode [] MAX_HEADER_BYTES
  rw [List.append_nil] at hnext
  obtain ⟨rest, hrun, -⟩ := parses_header hfits _ hnext hsize
  exact ⟨_, rest, hrun, rfl⟩

/-- The container at `/m`, and nothing in the way of a registration. -/
def typedSurroundings (fileType : UInt64) : Surroundings where
  isDir := .ok false
  canonical := .ok model
  queried := none
  contents := .ok (Source.ofBytes (typedContainer fileType).encode)
  fingerprint := .ok ⟨61, some 5⟩
  bytes := .ok (List.replicate 16 0)
  now := 0
  inserted := none

theorem typed_registers (fileType : UInt64) : ∃ header rest db',
    parse (Source.ofBytes (typedContainer fileType).encode) = .ok header rest ∧
      header.number "general.file_type" = some fileType.toNat ∧
      (⟨[], []⟩ : Database).insert (newArtifact sampleId model header ⟨61, some 5⟩ 0) header =
        .ok db' ∧
      (⟨[], []⟩ : Database).register model (typedSurroundings fileType) =
        .ok (.registered (newArtifact sampleId model header ⟨61, some 5⟩ 0), db') := by
  obtain ⟨header, rest, hparse, hnumber⟩ := typedContainer_parses fileType
  refine ⟨header, rest, _, hparse, hnumber, rfl, ?_⟩
  simp only [register, typedSurroundings, findByPath, selectPath, List.find?_nil, query, storing,
    Except.mapError, ok_bind, hparse]
  rfl

theorem empty_reachable : Reachable history (⟨[], []⟩, fun _ => none) := .init ⟨rfl, rfl⟩

theorem register_stores_typed : ∃ registration db',
    (⟨[], []⟩ : Database).register model (typedSurroundings 15) = .ok (registration, db') ∧
    ((∃ header, note (fun _ => none) ⟨[], []⟩ (.register model (typedSurroundings 15))
        registration.artifact.id = some header ∧
      Stores db' header registration.artifact ∧ Stores db'.reopen header registration.artifact) ↔
    ∀ canonical source header rest, (typedSurroundings 15).canonical = .ok canonical →
      (⟨[], []⟩ : Database).findByPath (toStringLossy canonical) = .ok none →
      (typedSurroundings 15).contents = .ok source →
      parse source = .ok header rest → header.Storable) := by
  obtain ⟨header, rest, db', -, -, -, hregister⟩ := typed_registers 15
  refine ⟨_, db', hregister, register_stores_iff empty_reachable hregister ?_⟩
  intro fingerprint hfingerprint
  cases hfingerprint
  decide

/-- A file type of `2 ^ 63` is read back as one less. -/
theorem register_saturates :
    ¬ ∀ s : Database × Headers, Reachable history s → ∀ path surroundings registration db',
      s.1.register path surroundings = .ok (registration, db') →
      (∀ fingerprint, surroundings.fingerprint = .ok fingerprint →
        (fingerprint.sizeBytes : ℤ) ≤ i64Max) →
      ∃ header, note s.2 s.1 (.register path surroundings) registration.artifact.id = some header ∧
        Stores db' header registration.artifact ∧
        Stores db'.reopen header registration.artifact := by
  intro hclaim
  obtain ⟨header, rest, db', hparse, hnumber, hinsert, hregister⟩ := typed_registers 0x8000000000000000
  obtain ⟨header', -, hstores, -⟩ := hclaim _ empty_reachable model _ _ db' hregister (by
    intro fingerprint hfingerprint
    cases hfingerprint
    decide)
  obtain ⟨kept, hkept, -, -, hmetadata⟩ := hstores.row
  replace hkept : db'.get sampleId = .ok (some (.gguf, kept)) := hkept
  have hget := ((kept_reachable empty_reachable).inserted hinsert).1
  rw [show db'.get sampleId = _ from hget] at hkept
  cases hkept
  have hstorable := (fromHeader_stored_iff hparse).mp hmetadata
  have hfits := hstorable _ (.inl hnumber)
  simp [i64Max] at hfits

end Database
end MehoyRuntime.Registry
