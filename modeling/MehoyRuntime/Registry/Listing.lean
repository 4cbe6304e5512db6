import MehoyRuntime.Registry.Reregistration
import MehoyRuntime.Registry.Tables

/-!
# The records as rows, and their listing

Each step of a run that changes the records is one statement on the two tables of the connection.
Whatever the calls ask of the records is what the rows answer. `list` reads all of the rows, in
an order that the database may choose among those of one second.
-/

namespace MehoyRuntime.Registry
open TransitionSystem Filesystem

namespace Connection

/-- The header is the one that was parsed of the version. -/
def inserted (db : Database) (artifact : ModelArtifact) (version : Version) : Database :=
  match parse (Source.ofBytes version.bytes) with
  | .ok header _ =>
    match db.insert artifact header with
    | .ok db' => db'
    | .error _ => db
  | .error _ _ => db

/-- The statement of a step. -/
def execute (db : Database) (audit : Audit) : AuditAction → Database
  | .registry (.call call (.done none)) =>
    match audit.store.calls call with
    | .inserting artifact version => inserted db artifact version
    | _ => db
  | .registry (.forget id) => db.forget id
  | .done call none =>
    match audit.verifications call with
    | .updating id _ digest => db.verify id digest
    | _ => db
  | _ => db

def system (sha256 : List UInt8 → List UInt8) : System (Audit × Database) AuditAction :=
  (Audit.system sha256).recording ⟨[], []⟩ execute

end Connection

/-! ### The listing -/

/-- The column that the listing is ordered by. -/
def Row.registeredAt (row : Row) : ℤ :=
  match row[14]? with
  | some (SqlValue.integer seconds) => seconds
  | _ => 0

/-- `SELECT … FROM artifacts ORDER BY registered_at DESC`. -/
structure Database.Selects (db : Database) (rows : List Row) : Prop where
  perm : rows.Perm db.artifacts
  sorted : rows.Pairwise fun row later => later.registeredAt ≤ row.registeredAt

def Database.list : List Row → Except String (List (ArtifactFormat × ModelArtifact))
  | [] => .ok []
  | row :: rows => do
    let artifact ← (rowToArtifact row).mapError ColumnError.display
    let artifacts ← Database.list rows
    return artifact :: artifacts

variable {sha256 : List UInt8 → List UInt8} {store store' : Store} {audit audit' : Audit}
  {db db' : Database} {artifact : ModelArtifact} {version : Version} {headers : Headers}

/-! ### No row twice -/

theorem ids_update (store : Store) (id : String) (digest : List UInt8) :
    (store.update id digest).ids = store.ids := by
  simp only [Store.ids, Store.update, List.map_map]
  refine List.map_congr_left fun record _ => ?_
  simp only [Function.comp_apply]
  split <;> rfl

theorem ids_inserted (h : store.insert artifact version = .ok store') :
    store'.ids = artifact.id :: store.ids ∧ artifact.id ∉ store.ids := by
  obtain ⟨hnone, -, hgrown⟩ := insert_ok h
  have hfresh := get_none hnone
  constructor
  · rw [hgrown]
    rfl
  · simpa [Store.ids] using hfresh

/-- What one statement does to the records. -/
inductive Statement (db : Database) (store : Store) : Database → Store → Prop
  | insert (artifact : ModelArtifact) (version : Version) (grown : Store) (header : GgufHeader)
      (db' : Database) : version.Holds header → db.insert artifact header = .ok db' →
      store.insert artifact version = .ok grown → Statement db store db' grown
  | verify (id : String) (digest : List UInt8) :
      Statement db store (db.verify id digest) (store.update id digest)
  | forget (id : String) :
      Statement db store (db.forget id)
        { store with records := store.records.filter fun record => record.artifact.id ≠ id }
  | none : Statement db store db store

/-! ### The tables against the records -/

/-- The rows are those of the records, with the entries of the headers that were parsed. -/
structure Mirrors (db : Database) (store : Store) : Prop where
  rows : db.Refines store
  entries : ∃ headers, Database.Kept db headers ∧
    ∀ record ∈ store.records, ∃ header, record.parsed.Holds header ∧
      headers record.artifact.id = some header
  once : store.ids.Nodup

theorem Mirrors.records (h : Mirrors db store) (hrecords : store'.records = store.records) :
    Mirrors db store' := by
  obtain ⟨hrows, hentries, honce⟩ := h
  refine ⟨?_, ?_, ?_⟩
  · rw [Database.Refines, hrecords]
    exact hrows
  · rw [hrecords]
    exact hentries
  · rw [Store.ids, hrecords]
    exact honce

theorem Mirrors.insert {header : GgufHeader} (h : Mirrors db store) (hholds : version.Holds header)
    (hdb : db.insert artifact header = .ok db') (hstore : store.insert artifact version = .ok store') :
    Mirrors db' store' := by
  obtain ⟨hids, hfresh⟩ := ids_inserted hstore
  obtain ⟨headers, hkept, hheaders⟩ := h.entries
  constructor
  case rows =>
    rcases h.rows.insert artifact header version with ⟨err, hfailed, -⟩ | ⟨db₁, store₁, hdb₁, hstore₁, hrows⟩
    · rw [hdb] at hfailed
      cases hfailed
    · rw [hdb] at hdb₁
      rw [hstore] at hstore₁
      cases hdb₁
      cases hstore₁
      exact hrows
  case entries =>
    refine ⟨_, hkept.insert hdb, ?_⟩
    obtain ⟨-, -, hgrown⟩ := insert_ok hstore
    intro record hrecord
    rw [hgrown] at hrecord
    rcases List.mem_cons.mp hrecord with rfl | hrecord
    · exact ⟨header, hholds, Function.update_self ..⟩
    · obtain ⟨header', hholds', hheader'⟩ := hheaders record hrecord
      refine ⟨header', hholds', ?_⟩
      have hne : record.artifact.id ≠ artifact.id := by
        intro hsame
        exact hfresh (hsame ▸ List.mem_map_of_mem hrecord)
      rw [Function.update_of_ne hne]
      exact hheader'
  case once =>
    rw [hids]
    exact List.nodup_cons.mpr ⟨hfresh, h.once⟩

theorem Mirrors.verify (h : Mirrors db store) (id : String) (digest : List UInt8) :
    Mirrors (db.verify id digest) (store.update id digest) := by
  obtain ⟨headers, hkept, hheaders⟩ := h.entries
  constructor
  case rows => exact h.rows.verify id digest
  case entries =>
    refine ⟨headers, hkept.verify id digest, ?_⟩
    intro record' hrecord'
    obtain ⟨record, hrecord, hid, -, -, heq⟩ := Audit.update_mem hrecord'
    obtain ⟨header, hholds, hheader⟩ := hheaders record hrecord
    have hparsed : record'.parsed = record.parsed := by
      rw [heq]
      split <;> rfl
    refine ⟨header, ?_, ?_⟩
    · rw [hparsed]
      exact hholds
    · rw [← hid]
      exact hheader
  case once =>
    rw [ids_update]
    exact h.once

theorem Mirrors.forget (h : Mirrors db store) (id : String) :
    Mirrors (db.forget id)
      { store with records := store.records.filter fun record => record.artifact.id ≠ id } := by
  obtain ⟨headers, hkept, hheaders⟩ := h.entries
  constructor
  case rows => exact h.rows.forget id
  case entries =>
    refine ⟨_, hkept.forget id, ?_⟩
    intro record hrecord
    obtain ⟨hrecord, hne⟩ := List.mem_filter.mp hrecord
    obtain ⟨header, hholds, hheader⟩ := hheaders record hrecord
    refine ⟨header, hholds, ?_⟩
    rw [Function.update_of_ne (by simpa using hne)]
    exact hheader
  case once =>
    have hsublist : (store.records.filter fun record => record.artifact.id ≠ id).Sublist
        store.records := List.filter_sublist
    exact h.once.sublist (hsublist.map _)

theorem Mirrors.statement (h : Mirrors db store) (hstatement : Statement db store db' store') :
    Mirrors db' store' := by
  cases hstatement with
  | insert artifact version _ header _ hholds hdb hstore => exact h.insert hholds hdb hstore
  | verify id digest => exact h.verify id digest
  | forget id => exact h.forget id
  | none => exact h

/-! ### Every run -/

/-- A step that leaves the records alone is no statement. -/
theorem execute_next {call : ℕ} {answer : Answer} {point : Call}
    (h : (audit.store.calls call).next audit.store answer = some point) :
    Connection.execute db audit (.registry (.call call answer)) = db := by
  unfold Connection.execute
  split
  · rename_i hsame
    cases hsame
    split
    · rename_i hpoint
      rw [hpoint] at h
      simp [Call.next] at h
    · rfl
  · rename_i hsame
    cases hsame
  · rename_i hsame
    cases hsame
  · rfl

theorem execute_done {call : ℕ} {failure : Option String} {point : Verification}
    (h : (audit.verifications call).next sha256 audit.store failure = some point) :
    Connection.execute db audit (.done call failure) = db := by
  unfold Connection.execute
  split
  · rename_i hsame
    cases hsame
  · rename_i hsame
    cases hsame
  · rename_i hsame
    cases hsame
    split
    · rename_i hpoint
      rw [hpoint] at h
      simp [Verification.next] at h
    · rfl
  · rfl

/-- A call inserts what it has parsed. -/
theorem call_statement {action : Action} (hparsed : audit.store.Parsed)
    (hmirrors : db.Refines audit.store) (h : step audit.store action = some store') :
    ∃ store, Statement db audit.store (Connection.execute db audit (.registry action)) store ∧
      store'.records = store.records := by
  cases action with
  | call call answer =>
    simp only [step] at h
    split at h
    · rename_i artifact version failure hpoint
      cases h
      cases failure with
      | some err => exact ⟨_, .none, rfl⟩
      | none =>
        have hcall := hparsed.calls call
        rw [hpoint] at hcall
        obtain ⟨header, ⟨rest, hparse⟩, -⟩ := hcall
        simp only [Connection.execute, hpoint, Connection.inserted, hparse, Store.inserted]
        rcases hmirrors.insert artifact header version with
          ⟨err, hdb, hfailed⟩ | ⟨db', store', hdb, hgrown, -⟩
        · rw [hdb, hfailed]
          exact ⟨_, .none, rfl⟩
        · rw [hdb, hgrown]
          exact ⟨_, .insert artifact version store' header db' ⟨rest, hparse⟩ hdb hgrown, rfl⟩
    · obtain ⟨point, hnext, rfl⟩ := Option.map_eq_some_iff.mp h
      rw [execute_next hnext]
      exact ⟨_, .none, rfl⟩
  | forget id =>
    cases h
    exact ⟨_, .forget id, rfl⟩
  | replace path bytes modified =>
    simp only [step] at h
    split at h <;> cases h
    exact ⟨_, .none, rfl⟩
  | remove path =>
    cases h
    exact ⟨_, .none, rfl⟩

theorem step_statement {s s' : Audit × Database} {action : AuditAction}
    (hparsed : s.1.store.Parsed) (hmirrors : s.2.Refines s.1.store)
    (h : (Connection.system sha256).step s action = some s') :
    ∃ store, Statement s.2 s.1.store s'.2 store ∧ s'.1.store.records = store.records := by
  obtain ⟨audit', db'⟩ := s'
  obtain ⟨hstep, hnote⟩ := recording_step h
  replace hstep : s.1.step sha256 action = some audit' := hstep
  replace hnote : db' = Connection.execute s.2 s.1 action := hnote
  subst hnote
  cases action with
  | registry action =>
    obtain ⟨store, hstore, rfl⟩ := Option.map_eq_some_iff.mp hstep
    exact call_statement hparsed hmirrors hstore
  | verify call id =>
    simp only [Audit.step] at hstep
    split at hstep <;> cases hstep
    exact ⟨_, .none, rfl⟩
  | check call id =>
    simp only [Audit.step] at hstep
    split at hstep <;> cases hstep
    exact ⟨_, .none, rfl⟩
  | read call length =>
    obtain ⟨point, -, rfl⟩ := Option.map_eq_some_iff.mp hstep
    exact ⟨_, .none, rfl⟩
  | rewrite call bytes =>
    obtain ⟨point, -, rfl⟩ := Option.map_eq_some_iff.mp hstep
    exact ⟨_, .none, rfl⟩
  | done call failure =>
    simp only [Audit.step] at hstep
    split at hstep
    · rename_i id artifact digest hcall
      cases hstep
      cases failure with
      | some err => exact ⟨_, .none, rfl⟩
      | none =>
        simp only [Connection.execute, hcall]
        exact ⟨_, .verify id digest, rfl⟩
    · obtain ⟨point, hnext, rfl⟩ := Option.map_eq_some_iff.mp hstep
      rw [execute_done hnext]
      exact ⟨_, .none, rfl⟩

theorem parsed_of_reachable (h : Reachable (Audit.system sha256) audit) : audit.store.Parsed := by
  obtain ⟨chronicle, hs⟩ := Chronicle.reachable_iff.mp h
  refine hs.invariant (I := fun s => s.1.store.Parsed) ?_ fun _ _ _ _ h _ hstep => h.step hstep
  rintro ⟨audit, chronicle⟩ ⟨⟨⟨hrecords, hcalls, -⟩, -⟩, -⟩
  replace hrecords : audit.store.records = [] := hrecords
  constructor
  · intro record hrecord
    rw [hrecords] at hrecord
    cases hrecord
  · intro call
    show (audit.store.calls call).Parsed
    rw [hcalls call]
    trivial

theorem mirrors_of_reachable {s : Audit × Database} (h : Reachable (Connection.system sha256) s) :
    Mirrors s.2 s.1.store := by
  refine h.invariant (I := fun s => Mirrors s.2 s.1.store) ?_ ?_
  · rintro ⟨audit, db⟩ ⟨⟨⟨hrecords, -⟩, -⟩, hdb⟩
    replace hrecords : audit.store.records = [] := hrecords
    replace hdb : db = ⟨[], []⟩ := hdb
    subst hdb
    have hempty : Database.Kept ⟨[], []⟩ fun _ => none :=
      Database.kept_reachable (s := (⟨[], []⟩, fun _ => none)) (.init ⟨rfl, rfl⟩)
    constructor
    case rows =>
      rw [Database.Refines, hrecords]
      exact .nil
    case entries =>
      refine ⟨_, hempty, ?_⟩
      intro record hrecord
      rw [hrecords] at hrecord
      cases hrecord
    case once => simp [Store.ids, hrecords]
  · intro s s' action hs hmirrors _ hstep
    have hparsed := parsed_of_reachable (Reachable.unrecorded hs)
    obtain ⟨store, hstatement, hrecords⟩ := step_statement hparsed hmirrors.rows hstep
    exact (hmirrors.statement hstatement).records hrecords

/-! ### What the rows answer -/

theorem Mirrors.get_ok (h : Mirrors db store) {found : ArtifactFormat × ModelArtifact} :
    db.get found.2.id = .ok (some found) ↔
      found ∈ store.records.map fun record => (ArtifactFormat.gguf, record.artifact) := by
  rw [h.rows.get]
  constructor
  · intro hget
    simp only [Except.ok.injEq, Option.map_eq_some_iff] at hget
    obtain ⟨record, hrecord, rfl⟩ := hget
    exact List.mem_map_of_mem (get_mem hrecord)
  · intro hmem
    obtain ⟨record, hrecord, rfl⟩ := List.mem_map.mp hmem
    cases hget : store.get record.artifact.id with
    | none => exact absurd rfl (get_none hget record hrecord)
    | some other =>
      have hsame := List.inj_on_of_nodup_map h.once (get_mem hget) hrecord (get_id hget)
      rw [hsame]
      rfl

/-- The two columns that an order and a lookup go by. -/
abbrev RowOf (row : Row) (record : Record) : Prop :=
  ∃ artifact state algorithm digest, row = columns artifact state algorithm digest ∧
    record.artifact = { artifact.stored with integrity := storedIntegrity state algorithm digest }

theorem list_rows {rows : List Row} {records : List Record} (h : List.Forall₂ RowOf rows records) :
    Database.list rows = .ok (records.map fun record => (.gguf, record.artifact)) := by
  induction h with
  | nil => rfl
  | cons hrow _ ih =>
    obtain ⟨artifact, state, algorithm, digest, rfl, hrecord⟩ := hrow
    rw [Database.list, rowToArtifact_columns, ih, List.map_cons, hrecord]
    rfl

theorem fromEpoch_mono {seconds later : ℤ} (h : seconds ≤ later) :
    fromEpoch seconds ≤ fromEpoch later := by
  simp only [fromEpoch]
  omega

theorem registeredAt_row {row : Row} {record : Record} (h : RowOf row record) :
    record.artifact.registeredAt = fromEpoch row.registeredAt := by
  obtain ⟨artifact, state, algorithm, digest, rfl, hrecord⟩ := h
  rw [hrecord]
  rfl

theorem newest_rows {row later : Row} {record record' : Record} (hrow : RowOf row record)
    (hlater : RowOf later record') (h : later.registeredAt ≤ row.registeredAt) :
    record'.artifact.registeredAt ≤ record.artifact.registeredAt := by
  rw [registeredAt_row hrow, registeredAt_row hlater]
  exact fromEpoch_mono h

/-- The database has an order to answer in. -/
theorem exists_selects (db : Database) : ∃ rows, db.Selects rows := by
  refine ⟨db.artifacts.mergeSort fun row later => later.registeredAt ≤ row.registeredAt,
    List.mergeSort_perm .., ?_⟩
  have htrans (row later last : Row) : decide (later.registeredAt ≤ row.registeredAt) = true →
      decide (last.registeredAt ≤ later.registeredAt) = true →
      decide (last.registeredAt ≤ row.registeredAt) = true := by
    simp only [decide_eq_true_eq]
    omega
  have htotal (row later : Row) : (decide (later.registeredAt ≤ row.registeredAt) ||
      decide (row.registeredAt ≤ later.registeredAt)) = true := by
    simp only [Bool.or_eq_true, decide_eq_true_eq]
    omega
  have hsorted := List.pairwise_mergeSort htrans htotal db.artifacts
  simpa using hsorted

theorem mem_forall₂ {α β : Type} {R : α → β → Prop} {l : List α} {l' : List β}
    (h : List.Forall₂ R l l') {b : β} (hb : b ∈ l') : ∃ a ∈ l, R a b := by
  induction h with
  | nil => cases hb
  | @cons a _ l _ hab _ ih =>
    rcases List.mem_cons.mp hb with rfl | hb
    · exact ⟨a, List.mem_cons_self, hab⟩
    · obtain ⟨a, ha, hab⟩ := ih hb
      exact ⟨a, List.mem_cons_of_mem _ ha, hab⟩

/-- An order on one side is one on the other. -/
theorem pairwise_forall₂ {α β : Type} {R : α → β → Prop} {P : α → α → Prop} {Q : β → β → Prop}
    {l : List α} {l' : List β} (h : List.Forall₂ R l l')
    (hPQ : ∀ a b a' b', R a b → R a' b' → P a a' → Q b b') (hl : l.Pairwise P) :
    l'.Pairwise Q := by
  induction h with
  | nil => exact .nil
  | @cons a b l l' hab hrest ih =>
    obtain ⟨hfirst, hl⟩ := List.pairwise_cons.mp hl
    refine List.pairwise_cons.mpr ⟨?_, ih hl⟩
    intro b' hb'
    obtain ⟨a', ha', hab'⟩ := mem_forall₂ hrest hb'
    exact hPQ a b a' b' hab hab' (hfirst a' ha')

/-- An entry of a row that has gone has gone with it. -/
theorem Mirrors.orphans (h : Mirrors db store) {id : String} (hnone : store.get id = none) :
    db.metadata id = [] := by
  obtain ⟨headers, hkept, -⟩ := h.entries
  have hselect : db.selectId id = none := by
    rcases h.rows.find_id id with ⟨hselect, -⟩ | ⟨row, record, -, hrecord, -⟩
    · exact hselect
    · rw [hnone] at hrecord
      cases hrecord
  have hheader := hkept.free hselect
  have hempty : (db.artifactMetadata.filter fun row => row.1 = id) = [] := by
    refine List.filter_eq_nil_iff.mpr fun entry hentry => ?_
    have hsome := hkept.strangers entry hentry
    intro hid
    rw [of_decide_eq_true hid, hheader] at hsome
    cases hsome
  rw [Database.metadata, hempty, List.map_nil, List.mergeSort_nil]

theorem Mirrors.metadata (h : Mirrors db store) {record : Record} (hrecord : record ∈ store.records) :
    ∃ header, record.parsed.Holds header ∧ db.metadata record.artifact.id =
      header.entries.map fun entry => (entry.1, renderValue entry.2) := by
  obtain ⟨headers, hkept, hheaders⟩ := h.entries
  obtain ⟨header, hholds, hheader⟩ := hheaders record hrecord
  exact ⟨header, hholds, hkept.metadata_eq hheader⟩

theorem Mirrors.insertion (h : Mirrors db store) (artifact : ModelArtifact) (header : GgufHeader)
    (version : Version) :
    (db.insert artifact header).map (fun _ => ()) =
      (store.insert artifact version).map fun _ => () := by
  rcases h.rows.insert artifact header version with
    ⟨err, hdb, hstore⟩ | ⟨db', store', hdb, hstore, -⟩
  · rw [hdb, hstore]
    rfl
  · rw [hdb, hstore]
    rfl

/-- In every run the rows of the connection answer every query as the records do. -/
theorem rows_answer_records {s : Audit × Database} (h : Reachable (Connection.system sha256) s) :
    (∀ id, s.2.get id =
      .ok ((s.1.store.get id).map fun record => (.gguf, record.artifact))) ∧
    (∀ canonical, s.2.findByPath (toStringLossy canonical) =
      .ok ((s.1.store.findByPath canonical).map fun record => (.gguf, record.artifact))) ∧
    (∀ call artifact version, s.1.store.calls call = .inserting artifact version →
      ∃ header, version.Holds header ∧ (s.2.insert artifact header).map (fun _ => ()) =
        (s.1.store.insert artifact version).map fun _ => ()) ∧
    (∀ record ∈ s.1.store.records, ∃ header, record.parsed.Holds header ∧
      s.2.metadata record.artifact.id =
        header.entries.map fun entry => (entry.1, renderValue entry.2)) ∧
    ∀ id, s.1.store.get id = none → s.2.metadata id = [] := by
  have hmirrors := mirrors_of_reachable h
  have hparsed := parsed_of_reachable (Reachable.unrecorded h)
  refine ⟨hmirrors.rows.get, hmirrors.rows.findByPath, ?_, fun _ => hmirrors.metadata,
    fun _ => hmirrors.orphans⟩
  intro call artifact version hpoint
  have hcall := hparsed.calls call
  rw [hpoint] at hcall
  obtain ⟨header, hholds, -⟩ := hcall
  exact ⟨header, hholds, hmirrors.insertion artifact header version⟩

theorem rows_answer_records_registered : ∃ s : Audit × Database,
    Reachable (Connection.system Audit.sampleSha256) s ∧
    ∃ record, s.1.store.get sampleId = some record ∧
      s.2.get sampleId = .ok (some (.gguf, record.artifact)) := by
  obtain ⟨header, audit, haudit, -, -, hget, -⟩ := Audit.registered_reachable Audit.sampleSha256
  obtain ⟨db, hs⟩ : ∃ db, Reachable (Connection.system Audit.sampleSha256) (audit, db) :=
    haudit.reachable.recorded
  refine ⟨(audit, db), hs, _, hget, ?_⟩
  rw [(rows_answer_records hs).1 sampleId, hget]
  rfl

/-- Whatever order the database chooses among the rows of one second, the listing is of all of the
artifacts that a lookup finds, once each, and the last ones first. -/
theorem list_answers {s : Audit × Database} (h : Reachable (Connection.system sha256) s)
    {rows : List Row} (hrows : s.2.Selects rows) :
    ∃ artifacts, Database.list rows = .ok artifacts ∧
      (artifacts.map fun found => found.2).Perm
        (s.1.store.records.map fun record => record.artifact) ∧
      (artifacts.map fun found => found.2.id).Nodup ∧
      (artifacts.map fun found => found.2.path).Nodup ∧
      (artifacts.Pairwise fun found later => later.2.registeredAt ≤ found.2.registeredAt) ∧
      ∀ found : ArtifactFormat × ModelArtifact,
        found ∈ artifacts ↔ s.2.get found.2.id = .ok (some found) := by
  have hmirrors := mirrors_of_reachable h
  obtain ⟨chronicle, hchronicle⟩ := Chronicle.reachable_iff.mp (Reachable.unrecorded h)
  have hkeyed := (Chronicle.sound_reachable hchronicle).keyed
  obtain ⟨records, hof, hperm⟩ := List.perm_comp_forall₂ hrows.perm hmirrors.rows
  have hids : (records.map fun record => record.artifact.id).Nodup :=
    (hperm.map fun record : Record => record.artifact.id).nodup_iff.mpr hmirrors.once
  have hpaths : (records.map fun record => record.artifact.path).Nodup := by
    refine hids.of_map.map_on ?_
    intro record hrecord other hother hsame
    exact hkeyed.paths record (hperm.subset hrecord) other (hperm.subset hother) hsame
  refine ⟨_, list_rows hof, ?_, ?_, ?_, ?_, ?_⟩
  · rw [List.map_map]
    exact hperm.map _
  · rw [List.map_map]
    exact hids
  · rw [List.map_map]
    exact hpaths
  · rw [List.pairwise_map]
    exact pairwise_forall₂ hof (fun _ _ _ _ => newest_rows) hrows.sorted
  · intro found
    rw [hmirrors.get_ok, (hperm.map _).mem_iff]

section Registering
variable {audit : Audit} {call : ℕ} {canonical : PathBuf} {version : Version}

/-- A registration of a path without a row goes on to its file. -/
theorem step_opens (hpoint : audit.store.calls call = .finding canonical)
    (hfind : audit.store.findByPath canonical = none) :
    (Audit.system sha256).step audit (.registry (.call call (.done none))) =
      some (audit.goto call (.opening canonical)) := by
  simp only [Audit.system, Audit.step, step, Call.next, hpoint, queried, found, hfind, Option.map_some]
  rfl

/-- It inserts a row of a new identifier and a new path. -/
theorem step_inserts {artifact : ModelArtifact}
    (hpoint : audit.store.calls call = .inserting artifact version)
    (hget : audit.store.get artifact.id = none) (hfind : audit.store.findByPath artifact.path = none) :
    ∃ after, (Audit.system sha256).step audit (.registry (.call call (.done none))) = some after ∧
      after.store.records = ⟨artifact.stored, version⟩ :: audit.store.records := by
  have hinsert : audit.store.insert artifact version = .ok { audit.store with
      records := ⟨artifact.stored, version⟩ :: audit.store.records } := by
    simp [Store.insert, hget, hfind]
  have hinserted : audit.store.inserted call artifact version none = Store.set { audit.store with
      records := ⟨artifact.stored, version⟩ :: audit.store.records } call
        (.registered (.ok (.registered artifact))) := by
    simp only [Store.inserted, hinsert]
  refine ⟨{ audit with
    store := audit.store.inserted call artifact version none
    ids := (audit.store.inserted call artifact version none).ids ++ audit.ids }, ?_, ?_⟩
  · simp only [Audit.system, Audit.step, step, hpoint, Option.map_some]
  · rw [hinserted]
    rfl

end Registering

/-! Two containers are registered, the second one seven seconds after the first. -/

def otherModel : PathBuf := Utf8.bytesOf "/n"

def otherVersion : Version := ⟨1, container, some 7⟩

def otherArtifact (header : GgufHeader) : ModelArtifact :=
  newArtifact (generateId (List.replicate 16 1)) otherModel header (.observe otherVersion) (7 * 10 ^ 9)

def openingFirst : List AuditAction :=
  (querying 0 ++ [Action.call 0 (.done none), Action.call 0 (.done none)]).map .registry

/-- The rest of the first registration, and the second one up to its query. -/
def queryingSecond : List AuditAction :=
  List.map .registry [.call 0 (.done none), .call 0 (.identified (.ok (List.replicate 16 0)) 0),
    .call 0 (.done none), .replace otherModel container (some 7), .call 1 (.register otherModel),
    .call 1 (.inspected (.ok false)), .call 1 (.canonicalized (.ok otherModel))]

def recordingSecond : List AuditAction :=
  List.map .registry
    [.call 1 (.done none), .call 1 (.identified (.ok (List.replicate 16 1)) (7 * 10 ^ 9))]

def observedFirst (header : GgufHeader) : Audit :=
  { Audit.untouchedAudit with
    store := atParsing.set 0 (.observing model ⟨0, container, some 5⟩ header) }

def foundSecond (header : GgufHeader) : Audit :=
  ((Audit.system Audit.sampleSha256).run (observedFirst header) queryingSecond).getD
    Audit.untouchedAudit

theorem foundSecond_reachable {header : GgufHeader} {rest : Budgeted}
    (hparse : parse (Source.ofBytes container) = .ok header rest) :
    Reachable (Audit.system Audit.sampleSha256) (foundSecond header) := by
  have hfirst : (Audit.system Audit.sampleSha256).run Audit.untouchedAudit openingFirst =
      some { Audit.untouchedAudit with store := atParsing } := rfl
  have hpoint : atParsing.calls 0 = .parsing model ⟨0, container, some 5⟩ := rfl
  have hobserved : (Audit.system Audit.sampleSha256).step
      { Audit.untouchedAudit with store := atParsing } (.registry (.call 0 (.done none))) =
      some (observedFirst header) := Audit.step_observes hpoint hparse
  have hsecond : (Audit.system Audit.sampleSha256).run (observedFirst header) queryingSecond =
      some (foundSecond header) := rfl
  have hopened := reachable_of_run (.init Audit.untouchedAudit_init) hfirst
  exact reachable_of_run (hopened.next _ hobserved) hsecond

theorem otherModel_unregistered {store : Store} {header : GgufHeader} {version : Version}
    (hrecords : store.records = [recordOf header version]) : store.findByPath otherModel = none := by
  have hother : model ≠ otherModel.stored := by decide
  simp [Store.findByPath, hrecords, recordOf_path, hother]

theorem otherArtifact_unregistered {store : Store} {header : GgufHeader} {version : Version}
    (hrecords : store.records = [recordOf header version]) :
    store.get (otherArtifact header).id = none := by
  have hother : ¬ (recordOf header version).artifact.id = (otherArtifact header).id := by
    show ¬ sampleId = generateId (List.replicate 16 1)
    decide
  simp [Store.get, hrecords, hother]

def openedSecond (header : GgufHeader) : Audit := (foundSecond header).goto 1 (.opening otherModel)

def parsingSecond (header : GgufHeader) : Audit :=
  ((Audit.system Audit.sampleSha256).step (openedSecond header)
    (.registry (.call 1 (.done none)))).getD Audit.untouchedAudit

def observedSecond (header : GgufHeader) : Audit :=
  (parsingSecond header).goto 1 (.observing otherModel otherVersion header)

theorem observedSecond_reachable {header : GgufHeader} {rest : Budgeted}
    (hparse : parse (Source.ofBytes container) = .ok header rest) :
    Reachable (Audit.system Audit.sampleSha256) (observedSecond header) := by
  have hfinding : (foundSecond header).store.calls 1 = .finding otherModel := rfl
  have hrecords : (foundSecond header).store.records = [recordOf header ⟨0, container, some 5⟩] := rfl
  have hopening : (Audit.system Audit.sampleSha256).step (foundSecond header)
      (.registry (.call 1 (.done none))) = some (openedSecond header) :=
    step_opens hfinding (otherModel_unregistered hrecords)
  have hparsing : (Audit.system Audit.sampleSha256).step (openedSecond header)
      (.registry (.call 1 (.done none))) = some (parsingSecond header) := rfl
  have hpoint : (parsingSecond header).store.calls 1 = .parsing otherModel otherVersion := rfl
  have hobserving : (Audit.system Audit.sampleSha256).step (parsingSecond header)
      (.registry (.call 1 (.done none))) = some (observedSecond header) :=
    Audit.step_observes hpoint hparse
  exact (((foundSecond_reachable hparse).next _ hopening).next _ hparsing).next _ hobserving

theorem both_registered : ∃ audit, Reachable (Audit.system Audit.sampleSha256) audit ∧
    audit.store.records.map (fun record => record.artifact.registeredAt) = [7 * 10 ^ 9, 0] := by
  obtain ⟨header, rest, hparse⟩ := container_parses
  obtain ⟨identified, hrun, hpoint, hrecords⟩ : ∃ identified,
      (Audit.system Audit.sampleSha256).run (observedSecond header) recordingSecond = some identified ∧
      identified.store.calls 1 = .inserting (otherArtifact header) otherVersion ∧
      identified.store.records = [recordOf header ⟨0, container, some 5⟩] := ⟨_, rfl, rfl, rfl⟩
  obtain ⟨audit, hinsert, hrows⟩ := step_inserts hpoint (otherArtifact_unregistered hrecords)
    (otherModel_unregistered hrecords)
  refine ⟨audit, (reachable_of_run (observedSecond_reachable hparse) hrun).next _ hinsert, ?_⟩
  rw [hrows, hrecords]
  rfl

/-- The later one comes first. -/
theorem list_answers_registered : ∃ (s : Audit × Database) (rows : List Row) (artifacts : _),
    Reachable (Connection.system Audit.sampleSha256) s ∧ s.2.Selects rows ∧
    Database.list rows = .ok artifacts ∧
    artifacts.map (fun found => found.2.registeredAt) = [7 * 10 ^ 9, 0] := by
  obtain ⟨audit, haudit, htimes⟩ := both_registered
  obtain ⟨db, hs⟩ : ∃ db, Reachable (Connection.system Audit.sampleSha256) (audit, db) :=
    haudit.recorded
  obtain ⟨rows, hrows⟩ := exists_selects db
  obtain ⟨artifacts, hlist, hperm, -, -, hsorted, -⟩ := list_answers hs hrows
  refine ⟨(audit, db), rows, artifacts, hs, hrows, hlist, ?_⟩
  have htimesPerm := hperm.map fun artifact => artifact.registeredAt
  rw [List.map_map, List.map_map] at htimesPerm
  have htwo : (artifacts.map fun found => found.2.registeredAt).Perm [7 * 10 ^ 9, 0] :=
    htimes ▸ htimesPerm
  have hordered : (artifacts.map fun found => found.2.registeredAt).Pairwise (· ≥ ·) :=
    List.pairwise_map.mpr hsorted
  refine htwo.eq_of_pairwise (fun first second _ _ hge hle => ?_) hordered (by decide)
  exact Int.le_antisymm hle hge

end MehoyRuntime.Registry
