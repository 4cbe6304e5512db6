import MehoyRuntime.Registry.Provenance

/-!
# What a verified digest is of

`verify` and `check` beside registrations, loads and removals of records, one step at a time,
while another process replaces the files and writes into one that is being read. The digest is a
function of the bytes that have been read.
-/

namespace MehoyRuntime.Registry
open TransitionSystem Filesystem
open MehoyRuntime.Runtime (ArtifactState)

/-- Where a call of `verify` or of `check` is. A file that has been opened is read piece by piece,
and what it holds may change meanwhile. -/
inductive Verification
  | idle
  | getting (id : String)
  | opening (id : String) (artifact : ModelArtifact)
  | hashing (id : String) (artifact : ModelArtifact) (version : Version) (content read : List UInt8)
  | updating (id : String) (artifact : ModelArtifact) (digest : List UInt8)
  | verified (result : Except RegistryError ArtifactIntegrity)
  | gettingToCheck (id : String)
  | observing (artifact : ModelArtifact)
  | checked (result : Except RegistryError ArtifactState)

/-- The registry with the calls that inspect its files. What each of them has opened, and the
identifiers that there have been rows of, are read by statements only. -/
structure Audit where
  store : Store
  verifications : ℕ → Verification
  opened : List (PathBuf × Version)
  ids : List String

/-- `read` is one turn of `std::io::copy`, with a buffer of some length. `rewrite` is what another
process leaves in the opened file; what it leaves at the path is a `replace` of its own. -/
inductive AuditAction
  | registry (action : Action)
  | verify (call : ℕ) (id : String)
  | check (call : ℕ) (id : String)
  | read (call length : ℕ)
  | rewrite (call : ℕ) (bytes : List UInt8)
  | done (call : ℕ) (failure : Option String)

def Store.ids (store : Store) : List String := store.records.map fun record => record.artifact.id

/-- `UPDATE artifacts SET integrity_state, digest_algorithm, digest WHERE id`. -/
def Store.update (store : Store) (id : String) (digest : List UInt8) : Store :=
  { store with records := store.records.map fun record =>
      if record.artifact.id = id then
        { record with artifact := { record.artifact with integrity := .verified digest } }
      else record }

namespace Verification

def gotten (id : String) (next : ModelArtifact → Verification) (fail : RegistryError → Verification) :
    Except String (Option Record) → Verification
  | .error err => fail (.storage err)
  | .ok none => fail (.unknownArtifact id)
  | .ok (some record) => next record.artifact

def opened (id : String) (artifact : ModelArtifact) : Except Fault Version → Verification
  | .error fault => .verified (.error (.io fault))
  | .ok version => .hashing id artifact version version.bytes []

/-- Reading the opened file may fail at any point. It ends where there is nothing left to read, and
the digest is of what has been read. -/
def hashed (sha256 : List UInt8 → List UInt8) (id : String) (artifact : ModelArtifact)
    (content read : List UInt8) : Option String → Option Verification
  | some err => some (.verified (.error (.io (.other err))))
  | none =>
    if content.length ≤ read.length then some (.updating id artifact (sha256 read)) else none

/-- The steps that leave the records alone. -/
def next (sha256 : List UInt8 → List UInt8) (store : Store) (failure : Option String) :
    Verification → Option Verification
  | .getting id =>
    some (gotten id (.opening id) (fun err => .verified (.error err)) (queried (store.get id) failure))
  | .opening id artifact => some (opened id artifact (attempt (store.current artifact.path) failure))
  | .hashing id artifact _ content read => hashed sha256 id artifact content read failure
  | .gettingToCheck id =>
    some (gotten id .observing (fun err => .checked (.error err)) (queried (store.get id) failure))
  | .observing artifact =>
    some (.checked (.ok (detectDrift artifact
      ((attempt (store.current artifact.path) failure).map .observe))))
  | .idle | .updating _ _ _ | .verified _ | .checked _ => none

/-- What a buffer takes of the bytes behind those that have been read. -/
def piece (bytes read : List UInt8) (length : ℕ) : List UInt8 :=
  (bytes.drop read.length).take length

/-- A turn that reads something. -/
def reads (length : ℕ) : Verification → Option Verification
  | .hashing id artifact version content read =>
    if read.length < content.length ∧ 0 < length then
      some (.hashing id artifact version content (read ++ piece content read length))
    else none
  | _ => none

def rewritten (bytes : List UInt8) : Verification → Option Verification
  | .hashing id artifact version _ read => some (.hashing id artifact version bytes read)
  | _ => none

end Verification

namespace Audit
variable (sha256 : List UInt8 → List UInt8)

def set (audit : Audit) (call : ℕ) (point : Verification) : Audit :=
  { audit with verifications := Function.update audit.verifications call point }

def opens (audit : Audit) : Verification → List (PathBuf × Version)
  | .hashing _ artifact version _ _ => (artifact.path, version) :: audit.opened
  | _ => audit.opened

/-- A row that has gone in the meantime is not there to be updated. -/
def updated (audit : Audit) (call : ℕ) (id : String) (digest : List UInt8) : Option String → Audit
  | some err => audit.set call (.verified (.error (.storage err)))
  | none => { audit with store := audit.store.update id digest }.set call (.verified (.ok (.verified digest)))

def step (audit : Audit) : AuditAction → Option Audit
  | .registry action =>
    (Registry.step audit.store action).map fun store =>
      { audit with store, ids := store.ids ++ audit.ids }
  | .verify call id =>
    match audit.verifications call with
    | .idle => some (audit.set call (.getting id))
    | _ => none
  | .check call id =>
    match audit.verifications call with
    | .idle => some (audit.set call (.gettingToCheck id))
    | _ => none
  | .read call length =>
    ((audit.verifications call).reads length).map fun point => audit.set call point
  | .rewrite call bytes =>
    ((audit.verifications call).rewritten bytes).map fun point => audit.set call point
  | .done call failure =>
    match audit.verifications call with
    | .updating id _ digest => some (audit.updated call id digest failure)
    | point =>
      (point.next sha256 audit.store failure).map fun point =>
        { audit with opened := audit.opens point }.set call point

def system : System Audit AuditAction where
  init audit := Registry.system.init audit.store ∧ (∀ call, audit.verifications call = .idle) ∧
    audit.opened = [] ∧ audit.ids = []
  step := step sha256

/-- Every verified row carries the digest of a version that was at its path and that has the
size and the modification time of its fingerprint. -/
def Describes (audit : Audit) : Prop :=
  ∀ record ∈ audit.store.records, ∀ digest, record.artifact.integrity = .verified digest →
    ∃ version, (record.artifact.path, version) ∈ audit.opened ∧ digest = sha256 version.bytes ∧
      ArtifactFingerprint.observe version = record.artifact.fingerprint

/-- When a verification opens the file, the size and the modification time there are those of
the record, and what is read of it then is what it held when it was opened, up to its end; and an
identifier that a row has had is not drawn again. -/
def undrifted (audit : Audit) : AuditAction → Bool
  | .done call none =>
    match audit.verifications call with
    | .opening _ artifact =>
      (audit.store.files artifact.path).all fun version =>
        ArtifactFingerprint.observe version = artifact.fingerprint
    | .hashing _ _ version _ read => version.bytes.length ≤ read.length
    | _ => true
  | .read call length =>
    match audit.verifications call with
    | .hashing _ _ version content read =>
      Verification.piece content read length = Verification.piece version.bytes read length
    | _ => true
  | .registry (.call call (.done none)) =>
    match audit.store.calls call with
    | .inserting artifact _ => artifact.id ∉ audit.ids
    | _ => true
  | _ => true

end Audit

/-! ### What a step does to the rows -/

theorem step_records {store store' : Store} {action : Action} (h : step store action = some store') :
    store'.records = store.records ∨
      (∃ id, store'.records = store.records.filter fun record => record.artifact.id ≠ id) ∨
      ∃ call artifact version, action = .call call (.done none) ∧
        store.calls call = .inserting artifact version ∧
        store'.records = ⟨artifact.stored, version⟩ :: store.records := by
  cases action with
  | call call answer =>
    simp only [step] at h
    split at h
    · rename_i artifact version failure hpoint
      cases h
      rcases inserted_cases store call artifact version failure with ⟨-, err, heq⟩ | ⟨rfl, -, heq⟩
      · rw [heq]
        exact .inl rfl
      · rw [heq]
        exact .inr (.inr ⟨call, artifact, version, rfl, hpoint, rfl⟩)
    · obtain ⟨point, -, rfl⟩ := Option.map_eq_some_iff.mp h
      exact .inl rfl
  | forget id =>
    cases h
    exact .inr (.inl ⟨id, rfl⟩)
  | replace path bytes modified =>
    simp only [step] at h
    split at h <;> cases h
    exact .inl rfl
  | remove path =>
    cases h
    exact .inl rfl

/-! ### What a verification holds -/

namespace Audit
variable {sha256 : List UInt8 → List UInt8} {audit audit' : Audit} {call : ℕ} {point : Verification}

/-- The row that a verification has read keeps its path and its fingerprint while it is there,
and no other row takes its identifier. -/
structure Holds (audit : Audit) (id : String) (artifact : ModelArtifact) : Prop where
  used : id ∈ audit.ids
  row : ∀ record ∈ audit.store.records, record.artifact.id = id →
    record.artifact.path = artifact.path ∧ record.artifact.fingerprint = artifact.fingerprint

def Knows (sha256 : List UInt8 → List UInt8) (audit : Audit) : Verification → Prop
  | .opening id artifact => audit.Holds id artifact
  | .hashing id artifact version _ read => audit.Holds id artifact ∧
      (artifact.path, version) ∈ audit.opened ∧
      ArtifactFingerprint.observe version = artifact.fingerprint ∧ read <+: version.bytes
  | .updating id artifact digest => audit.Holds id artifact ∧
      ∃ version, (artifact.path, version) ∈ audit.opened ∧ digest = sha256 version.bytes ∧
        ArtifactFingerprint.observe version = artifact.fingerprint
  | _ => True

structure Sound (sha256 : List UInt8 → List UInt8) (audit : Audit) : Prop where
  describes : audit.Describes sha256
  ids : ∀ record ∈ audit.store.records, record.artifact.id ∈ audit.ids
  distinct : ∀ record ∈ audit.store.records, ∀ other ∈ audit.store.records,
    record.artifact.id = other.artifact.id → record = other
  calls : ∀ call, audit.Knows sha256 (audit.verifications call)

/-- Every row of the second registry that has an identifier of the first has the path and the
fingerprint that it had there. -/
structure Extends (audit audit' : Audit) : Prop where
  ids : ∀ id ∈ audit.ids, id ∈ audit'.ids
  opened : ∀ entry ∈ audit.opened, entry ∈ audit'.opened
  rows : ∀ record' ∈ audit'.store.records, record'.artifact.id ∈ audit.ids →
    ∃ record ∈ audit.store.records, record.artifact.id = record'.artifact.id ∧
      record.artifact.path = record'.artifact.path ∧
      record.artifact.fingerprint = record'.artifact.fingerprint

theorem Holds.extends {id : String} {artifact : ModelArtifact} (h : audit.Holds id artifact)
    (hext : audit.Extends audit') : audit'.Holds id artifact where
  used := hext.ids id h.used
  row := by
    rintro record' hrecord' rfl
    obtain ⟨record, hrecord, hid, hpath, hfingerprint⟩ := hext.rows record' hrecord' h.used
    have hrow := h.row record hrecord hid
    exact ⟨hpath ▸ hrow.1, hfingerprint ▸ hrow.2⟩

theorem Knows.extends (h : audit.Knows sha256 point) (hext : audit.Extends audit') :
    audit'.Knows sha256 point := by
  cases point with
  | opening id artifact => exact Holds.extends h hext
  | hashing id artifact version content read =>
    exact ⟨h.1.extends hext, hext.opened _ h.2.1, h.2.2⟩
  | updating id artifact digest =>
    obtain ⟨hholds, version, hopened, hdigest⟩ := h
    exact ⟨hholds.extends hext, version, hext.opened _ hopened, hdigest⟩
  | idle | getting | verified | gettingToCheck | observing | checked => trivial

theorem Sound.subset {store : Store} {ids : List String} (h : audit.Sound sha256)
    (hsub : ∀ record ∈ store.records, record ∈ audit.store.records)
    (hids : ∀ id ∈ audit.ids, id ∈ ids) :
    { audit with store, ids }.Sound sha256 where
  describes := fun record hrecord => h.describes record (hsub record hrecord)
  ids := fun record hrecord => hids _ (h.ids record (hsub record hrecord))
  distinct := fun record hrecord other hother =>
    h.distinct record (hsub record hrecord) other (hsub other hother)
  calls := fun call => (h.calls call).extends
    ⟨hids, fun _ => id, fun record' hrecord' _ => ⟨record', hsub record' hrecord', rfl, rfl, rfl⟩⟩

theorem Sound.insert {store : Store} {artifact : ModelArtifact} {version : Version}
    (h : audit.Sound sha256)
    (hrecords : store.records = ⟨artifact.stored, version⟩ :: audit.store.records)
    (hnew : artifact.id ∉ audit.ids) :
    { audit with store, ids := store.ids ++ audit.ids }.Sound sha256 where
  describes := by
    intro record hrecord digest hdigest
    replace hrecord : record ∈ store.records := hrecord
    rw [hrecords] at hrecord
    rcases List.mem_cons.mp hrecord with rfl | hbefore
    · cases hdigest
    · exact h.describes record hbefore digest hdigest
  ids := fun record hrecord => List.mem_append_left _ (List.mem_map.mpr ⟨record, hrecord, rfl⟩)
  distinct := by
    intro record hrecord other hother hid
    replace hrecord : record ∈ store.records := hrecord
    replace hother : other ∈ store.records := hother
    rw [hrecords] at hrecord hother
    rcases List.mem_cons.mp hrecord with rfl | hrecord
    · rcases List.mem_cons.mp hother with rfl | hother
      · rfl
      · exact absurd (show artifact.id ∈ audit.ids from hid ▸ h.ids other hother) hnew
    · rcases List.mem_cons.mp hother with rfl | hother
      · exact absurd (show artifact.id ∈ audit.ids from hid ▸ h.ids record hrecord) hnew
      · exact h.distinct record hrecord other hother hid
  calls := by
    refine fun call => (h.calls call).extends
      ⟨fun id => List.mem_append_right _, fun _ => id, fun record' hrecord' hused => ?_⟩
    replace hrecord' : record' ∈ store.records := hrecord'
    rw [hrecords] at hrecord'
    rcases List.mem_cons.mp hrecord' with rfl | hbefore
    · exact absurd hused hnew
    · exact ⟨record', hbefore, rfl, rfl, rfl⟩

theorem sound_registry {action : Action} {store : Store} (h : audit.Sound sha256)
    (hok : audit.undrifted (.registry action) = true) (hst : Registry.step audit.store action = some store) :
    { audit with store, ids := store.ids ++ audit.ids }.Sound sha256 := by
  rcases step_records hst with hsame | ⟨id, hfilter⟩ | ⟨call, artifact, version, rfl, hpoint, hcons⟩
  · refine h.subset (fun record hrecord => hsame ▸ hrecord) fun _ => List.mem_append_right _
  · refine h.subset (fun record hrecord => ?_) fun _ => List.mem_append_right _
    rw [hfilter] at hrecord
    exact (List.mem_filter.mp hrecord).1
  · refine h.insert hcons ?_
    simpa [undrifted, hpoint] using hok

theorem extends_set (audit : Audit) (call : ℕ) (point : Verification) :
    audit.Extends (audit.set call point) :=
  ⟨fun _ h => h, fun _ h => h, fun record hrecord _ => ⟨record, hrecord, rfl, rfl, rfl⟩⟩

theorem Sound.set (h : audit.Sound sha256) (hpoint : audit.Knows sha256 point) :
    (audit.set call point).Sound sha256 where
  describes := h.describes
  ids := h.ids
  distinct := h.distinct
  calls := by
    intro other
    have hother := h.calls other
    show (audit.set call point).Knows sha256 (Function.update audit.verifications call point other)
    rw [Function.update_apply]
    split
    · exact hpoint.extends (extends_set audit call point)
    · exact hother.extends (extends_set audit call point)

theorem update_mem {store : Store} {id : String} {digest : List UInt8} {record' : Record}
    (h : record' ∈ (store.update id digest).records) :
    ∃ record ∈ store.records, record.artifact.id = record'.artifact.id ∧
      record.artifact.path = record'.artifact.path ∧
      record.artifact.fingerprint = record'.artifact.fingerprint ∧
      record' = (if record.artifact.id = id then
        { record with artifact := { record.artifact with integrity := .verified digest } }
      else record) := by
  obtain ⟨record, hrecord, rfl⟩ := List.mem_map.mp h
  refine ⟨record, hrecord, ?_⟩
  split <;> exact ⟨rfl, rfl, rfl, rfl⟩

theorem Sound.update {id : String} {artifact : ModelArtifact} {digest : List UInt8}
    (h : audit.Sound sha256) (hknows : audit.Knows sha256 (.updating id artifact digest)) :
    { audit with store := audit.store.update id digest }.Sound sha256 where
  describes := by
    intro record' hrecord' written hwritten
    obtain ⟨record, hrecord, hid, hpath, hfingerprint, heq⟩ := update_mem hrecord'
    split at heq
    · rename_i hrow
      obtain ⟨hholds, version, hopened, hdigest, hobserve⟩ := hknows
      obtain ⟨hsamePath, hsameFingerprint⟩ := hholds.row record hrecord hrow
      have hdigests : written = digest := by
        rw [heq] at hwritten
        exact (ArtifactIntegrity.verified.inj hwritten).symm
      refine ⟨version, ?_, hdigests.trans hdigest, ?_⟩
      · rw [← hpath, hsamePath]
        exact hopened
      · rw [← hfingerprint, hsameFingerprint]
        exact hobserve
    · subst heq
      exact h.describes record' hrecord written hwritten
  ids := by
    intro record' hrecord'
    obtain ⟨record, hrecord, hid, -⟩ := update_mem hrecord'
    exact hid ▸ h.ids record hrecord
  distinct := by
    intro record' hrecord' other' hother' hsame
    obtain ⟨record, hrecord, hid, -, -, heq⟩ := update_mem hrecord'
    obtain ⟨other, hother, hotherId, -, -, hotherEq⟩ := update_mem hother'
    have hrows : record = other := h.distinct record hrecord other hother (by rw [hid, hsame, hotherId])
    rw [heq, hotherEq, hrows]
  calls := by
    refine fun call => (h.calls call).extends ⟨fun _ h => h, fun _ h => h, fun record' hrecord' _ => ?_⟩
    obtain ⟨record, hrecord, hid, hpath, hfingerprint, -⟩ := update_mem hrecord'
    exact ⟨record, hrecord, hid, hpath, hfingerprint⟩

theorem holds_of_get {id : String} {record : Record} (h : audit.Sound sha256)
    (hget : audit.store.get id = some record) : audit.Holds id record.artifact := by
  have hmem := get_mem hget
  have hid : record.artifact.id = id := by simpa using List.find?_some hget
  refine ⟨hid ▸ h.ids record hmem, fun other hother hsame => ?_⟩
  rw [h.distinct other hother record hmem (hsame.trans hid.symm)]
  exact ⟨rfl, rfl⟩

theorem Sound.opens (h : audit.Sound sha256) (point : Verification) :
    { audit with opened := audit.opens point }.Sound sha256 := by
  have hmore : ∀ entry ∈ audit.opened, entry ∈ audit.opens point := by
    intro entry hentry
    cases point with
    | hashing id artifact version content read => exact List.mem_cons_of_mem _ hentry
    | _ => exact hentry
  refine ⟨fun record hrecord digest hdigest => ?_, h.ids, h.distinct, fun call => ?_⟩
  · obtain ⟨version, hopened, hrest⟩ := h.describes record hrecord digest hdigest
    exact ⟨version, hmore _ hopened, hrest⟩
  · exact (h.calls call).extends
      ⟨fun _ h => h, hmore, fun record hrecord _ => ⟨record, hrecord, rfl, rfl, rfl⟩⟩

/-- The steps of a verification: it reads the row, opens what is at its path and hashes that. -/
theorem knows_next {failure : Option String} (h : audit.Sound sha256)
    (hok : audit.undrifted (.done call failure) = true)
    (hnext : (audit.verifications call).next sha256 audit.store failure = some point) :
    { audit with opened := audit.opens point }.Knows sha256 point := by
  have hknows := h.calls call
  cases hcall : audit.verifications call with
  | getting id =>
    rw [hcall] at hnext
    cases hnext
    cases failure with
    | some err => trivial
    | none =>
      cases hget : audit.store.get id with
      | none => trivial
      | some record => exact holds_of_get h hget
  | opening id artifact =>
    rw [hcall] at hnext hknows
    cases hnext
    cases hopen : attempt (audit.store.current artifact.path) failure with
    | error fault => trivial
    | ok version =>
      obtain ⟨rfl, hfile⟩ := current_ok hopen
      have hobserve : ArtifactFingerprint.observe version = artifact.fingerprint := by
        simpa [undrifted, hcall, hfile] using hok
      exact ⟨Holds.extends hknows ⟨fun _ h => h, fun _ => List.mem_cons_of_mem _,
        fun record hrecord _ => ⟨record, hrecord, rfl, rfl, rfl⟩⟩, List.mem_cons_self, hobserve,
        List.nil_prefix⟩
  | hashing id artifact version content read =>
    rw [hcall] at hnext hknows
    cases failure with
    | some err =>
      cases hnext
      trivial
    | none =>
      obtain ⟨hholds, hopened, hobserve, hread⟩ := hknows
      have hend : version.bytes.length ≤ read.length := by simpa [undrifted, hcall] using hok
      simp only [Verification.next, Verification.hashed] at hnext
      split at hnext
      · cases hnext
        exact ⟨hholds, version, hopened, congrArg sha256 (hread.eq_of_length_le hend), hobserve⟩
      · cases hnext
  | gettingToCheck id =>
    rw [hcall] at hnext
    cases hnext
    cases failure with
    | some err => trivial
    | none => cases audit.store.get id <;> trivial
  | observing artifact =>
    rw [hcall] at hnext
    cases hnext
    trivial
  | idle | updating | verified | checked =>
    rw [hcall] at hnext
    cases hnext

theorem sound_done {failure : Option String} (h : audit.Sound sha256)
    (hok : audit.undrifted (.done call failure) = true)
    (hst : audit.step sha256 (.done call failure) = some audit') : audit'.Sound sha256 := by
  have hknows := h.calls call
  simp only [step] at hst
  split at hst
  · rename_i id artifact digest hcall
    rw [hcall] at hknows
    cases hst
    cases failure with
    | some err => exact h.set trivial
    | none => exact (h.update hknows).set trivial
  · obtain ⟨point, hnext, rfl⟩ := Option.map_eq_some_iff.mp hst
    exact (h.opens point).set (knows_next h hok hnext)

/-- The bytes that have been read stay the first ones of the version that was opened. -/
theorem sound_read {length : ℕ} (h : audit.Sound sha256)
    (hok : audit.undrifted (.read call length) = true)
    (hst : audit.step sha256 (.read call length) = some audit') : audit'.Sound sha256 := by
  have hknows := h.calls call
  obtain ⟨point, hreads, rfl⟩ := Option.map_eq_some_iff.mp hst
  cases hcall : audit.verifications call with
  | hashing id artifact version content read =>
    rw [hcall] at hreads hknows
    simp only [Verification.reads] at hreads
    split at hreads
    · cases hreads
      obtain ⟨hholds, hopened, hobserve, rest, hrest⟩ := hknows
      have hpiece : Verification.piece content read length = rest.take length := by
        have hsame : Verification.piece content read length =
            Verification.piece version.bytes read length := by simpa [undrifted, hcall] using hok
        rw [hsame, Verification.piece, ← hrest, List.drop_left]
      refine h.set ⟨hholds, hopened, hobserve, ?_⟩
      rw [hpiece, ← hrest]
      exact (List.prefix_append_right_inj read).mpr (List.take_prefix length rest)
    · cases hreads
  | idle | getting | opening | updating | verified | gettingToCheck | observing | checked =>
    rw [hcall] at hreads
    cases hreads

theorem sound_rewrite {bytes : List UInt8} (h : audit.Sound sha256)
    (hst : audit.step sha256 (.rewrite call bytes) = some audit') : audit'.Sound sha256 := by
  have hknows := h.calls call
  obtain ⟨point, hrewritten, rfl⟩ := Option.map_eq_some_iff.mp hst
  cases hcall : audit.verifications call with
  | hashing id artifact version content read =>
    rw [hcall] at hrewritten hknows
    cases hrewritten
    exact h.set hknows
  | idle | getting | opening | updating | verified | gettingToCheck | observing | checked =>
    rw [hcall] at hrewritten
    cases hrewritten

theorem sound_step {action : AuditAction} (h : audit.Sound sha256) (hok : audit.undrifted action = true)
    (hst : audit.step sha256 action = some audit') : audit'.Sound sha256 := by
  cases action with
  | registry action =>
    obtain ⟨store, hstore, rfl⟩ := Option.map_eq_some_iff.mp hst
    exact sound_registry h hok hstore
  | verify call id =>
    simp only [step] at hst
    split at hst <;> cases hst
    exact h.set trivial
  | check call id =>
    simp only [step] at hst
    split at hst <;> cases hst
    exact h.set trivial
  | read call length => exact sound_read h hok hst
  | rewrite call bytes => exact sound_rewrite h hst
  | done call failure => exact sound_done h hok hst

theorem sound_init (h : (system sha256).init audit) : audit.Sound sha256 := by
  obtain ⟨⟨hrecords, -, -⟩, hidle, -, -⟩ := h
  have hnone : ∀ record, record ∉ audit.store.records := by
    intro record hrecord
    rw [hrecords] at hrecord
    cases hrecord
  refine ⟨fun record hrecord => ?_, fun record hrecord => ?_, fun record hrecord => ?_, fun call => ?_⟩
  · exact absurd hrecord (hnone record)
  · exact absurd hrecord (hnone record)
  · exact absurd hrecord (hnone record)
  · rw [hidle]
    trivial

/-- As long as a verification opens the file that was fingerprinted and reads what it held then, a
verified digest is the digest of the file that the record describes. -/
theorem verified_describes
    (h : ReachableWhile (system sha256) (fun audit action => audit.undrifted action = true) audit) :
    audit.Describes sha256 := by
  have hsound : audit.Sound sha256 := h.invariant (I := Sound sha256) (fun _ => sound_init)
    fun audit audit' action _ h hok hst =>
      sound_step h hok (show audit.step sha256 action = some audit' from hst)
  exact hsound.describes

/-! ### A verification of a container -/

/-- The digests of the container and of the empty file. -/
def containerDigest : List UInt8 :=
  [164, 229, 225, 86, 221, 236, 39, 226, 134, 247, 83, 40, 120, 77, 113, 6, 182, 10, 78, 177, 210,
    70, 233, 80, 160, 1, 163, 249, 68, 251, 218, 153]

def emptyDigest : List UInt8 :=
  [227, 176, 196, 66, 152, 252, 28, 20, 154, 251, 244, 200, 153, 111, 185, 36, 39, 174, 65, 228,
    100, 155, 147, 76, 164, 149, 153, 27, 120, 82, 184, 85]

def sampleSha256 (bytes : List UInt8) : List UInt8 := if bytes.isEmpty then emptyDigest else containerDigest

def untouchedAudit : Audit := ⟨untouched, fun _ => .idle, [], []⟩

theorem untouchedAudit_init : (system sha256).init untouchedAudit :=
  ⟨untouched_init, fun _ => rfl, rfl, rfl⟩

def goto (audit : Audit) (call : ℕ) (point : Call) : Audit :=
  { audit with store := audit.store.set call point, ids := audit.store.ids ++ audit.ids }

/-- A registration has parsed what it has opened. -/
theorem step_observes {canonical : PathBuf} {version : Version} {header : GgufHeader}
    {rest : Budgeted} (hpoint : audit.store.calls call = .parsing canonical version)
    (hparse : parse (Source.ofBytes version.bytes) = .ok header rest) :
    (system sha256).step audit (.registry (.call call (.done none))) =
      some (audit.goto call (.observing canonical version header)) := by
  simp only [system, step, step_parses hpoint hparse, Option.map_some]
  rfl

/-- The container has been registered, and nothing has been verified. -/
theorem registered_reachable (sha256 : List UInt8 → List UInt8) :
    ∃ header audit,
      ReachableWhile (system sha256) (fun audit action => audit.undrifted action = true) audit ∧
      audit.verifications 0 = .idle ∧ audit.opened = [] ∧
      audit.store.get sampleId = some (recordOf header ⟨0, container, some 5⟩) ∧
      audit.store.files model = some ⟨0, container, some 5⟩ := by
  obtain ⟨header, s, hparse⟩ := container_parses
  have hinspected : (system sha256).runWhile undrifted untouchedAudit
      ((querying 0 ++ [Action.call 0 (.done none), Action.call 0 (.done none)]).map AuditAction.registry) =
      some { untouchedAudit with store := atParsing } := rfl
  have hparsing := reachableWhile_of_run (fun _ _ h => h) (.init untouchedAudit_init) hinspected
  have hpoint : atParsing.calls 0 = .parsing model ⟨0, container, some 5⟩ := rfl
  have hobserving := hparsing.step rfl (step_observes hpoint hparse)
  obtain ⟨audit, hrun, hrest⟩ : ∃ audit, (system sha256).runWhile undrifted
      (goto { untouchedAudit with store := atParsing } 0
        (.observing model ⟨0, container, some 5⟩ header))
      [.registry (.call 0 (.done none)), .registry (.call 0 (.identified (.ok (List.replicate 16 0)) 0)),
        .registry (.call 0 (.done none))] = some audit ∧
      audit.verifications 0 = .idle ∧ audit.opened = [] ∧
      audit.store.get sampleId = some (recordOf header ⟨0, container, some 5⟩) ∧
      audit.store.files model = some ⟨0, container, some 5⟩ := ⟨_, rfl, rfl, rfl, rfl, rfl⟩
  exact ⟨header, audit, reachableWhile_of_run (fun _ _ h => h) hobserving hrun, hrest⟩

/-- The first call of `verify` reads the row and opens the file. -/
def openingFile (id : String) : List AuditAction := [.verify 0 id, .done 0 none, .done 0 none]

theorem openingFile_run (sha256 : List UInt8 → List UInt8) (strict : Bool) {id : String}
    {record : Record} {version : Version}
    (hidle : audit.verifications 0 = .idle) (hget : audit.store.get id = some record)
    (hfile : audit.store.files record.artifact.path = some version)
    (hobserve : strict = true → ArtifactFingerprint.observe version = record.artifact.fingerprint) :
    ∃ audit', (system sha256).runWhile (fun audit action => !strict || audit.undrifted action) audit
        (openingFile id) = some audit' ∧
      audit'.verifications 0 = .hashing id record.artifact version version.bytes [] ∧
      audit'.store = audit.store ∧
      audit'.opened = (record.artifact.path, version) :: audit.opened := by
  have hok : strict = false ∨ ArtifactFingerprint.observe version = record.artifact.fingerprint := by
    cases strict with
    | false => exact .inl rfl
    | true => exact .inr (hobserve rfl)
  simp [openingFile, System.runWhile, system, step, set, hidle, Verification.next,
    Verification.gotten, queried, hget, Verification.opened, attempt, Store.current, hfile, opens,
    undrifted, hok]

/-- It has read the file to its end, and stores the digest. -/
theorem hashing_run (sha256 : List UInt8 → List UInt8) (strict : Bool) {id : String}
    {artifact : ModelArtifact} {version : Version} {content read : List UInt8}
    (hcall : audit.verifications 0 = .hashing id artifact version content read)
    (hend : content.length ≤ read.length)
    (hlength : strict = true → version.bytes.length ≤ read.length) :
    ∃ audit', (system sha256).runWhile (fun audit action => !strict || audit.undrifted action) audit
        [.done 0 none, .done 0 none] = some audit' ∧
      audit'.store = audit.store.update id (sha256 read) ∧ audit'.opened = audit.opened := by
  have hok : strict = false ∨ version.bytes.length ≤ read.length := by
    cases strict with
    | false => exact .inl rfl
    | true => exact .inr (hlength rfl)
  simp [System.runWhile, system, step, set, hcall, Verification.next, Verification.hashed, hend,
    updated, opens, undrifted, hok]

/-- Two turns read what the file holds. -/
theorem reading_run (sha256 : List UInt8 → List UInt8) {id : String} {artifact : ModelArtifact}
    {version : Version} {n m : ℕ}
    (hcall : audit.verifications 0 = .hashing id artifact version version.bytes [])
    (hlength : version.bytes.length = n + m) (hn : 0 < n) (hm : 0 < m) :
    ∃ audit', (system sha256).runWhile (fun audit action => audit.undrifted action) audit
        [.read 0 n, .read 0 m] = some audit' ∧
      audit'.verifications 0 = .hashing id artifact version version.bytes version.bytes ∧
      audit'.store = audit.store := by
  have hfirst : (version.bytes.take n).length = n := by
    rw [List.length_take]
    omega
  have hsecond : version.bytes.take n ++ (version.bytes.drop n).take m = version.bytes := by
    have hrest : (version.bytes.drop n).length ≤ m := by
      rw [List.length_drop]
      omega
    rw [List.take_of_length_le hrest, List.take_append_drop]
  have hsome : 0 < n + m := by omega
  simp [System.runWhile, system, step, set, hcall, Verification.reads, Verification.piece, undrifted,
    hlength, hn, hm, hsome, hfirst, hsecond]

theorem get_update (digest : List UInt8) {store : Store} {id : String} {record : Record}
    (hget : store.get id = some record) :
    ∃ updated ∈ (store.update id digest).records, updated.artifact.integrity = .verified digest ∧
      updated.artifact.path = record.artifact.path ∧
      updated.artifact.fingerprint = record.artifact.fingerprint := by
  have hid : record.artifact.id = id := by simpa using List.find?_some hget
  refine ⟨{ record with artifact := { record.artifact with integrity := .verified digest } },
    List.mem_map.mpr ⟨record, get_mem hget, if_pos hid⟩, rfl, rfl, rfl⟩

/-- Nothing has touched the container, which is read in two pieces. -/
theorem verified_describes_untouched : ∃ audit,
    ReachableWhile (system sampleSha256) (fun audit action => audit.undrifted action = true) audit ∧
    (∃ record ∈ audit.store.records, record.artifact.integrity = .verified containerDigest) ∧
    audit.Describes sampleSha256 := by
  obtain ⟨header, audit, haudit, hidle, -, hget, hfile⟩ := registered_reachable sampleSha256
  rw [← recordOf_path header ⟨0, container, some 5⟩] at hfile
  obtain ⟨opened, hopening, hcall, hsame, -⟩ :=
    openingFile_run sampleSha256 true hidle hget hfile fun _ => rfl
  have hopened := reachableWhile_of_run (fun _ _ h => by simpa using h) haudit hopening
  obtain ⟨read, hreading, hcall', hsame'⟩ := reading_run sampleSha256 (n := 16) (m := 8) hcall
    rfl (by decide) (by decide)
  have hread := reachableWhile_of_run (fun _ _ h => h) hopened hreading
  obtain ⟨audit', hhashing, hstore, -⟩ :=
    hashing_run sampleSha256 true hcall' le_rfl fun _ => le_rfl
  have haudit' : ReachableWhile (system sampleSha256)
      (fun audit action => audit.undrifted action = true) audit' :=
    reachableWhile_of_run (fun _ _ h => by simpa using h) hread hhashing
  obtain ⟨record, hrecord, hverified, -⟩ := get_update (sampleSha256 container) hget
  rw [← hsame, ← hsame', ← hstore] at hrecord
  exact ⟨audit', haudit', ⟨record, hrecord, hverified⟩, verified_describes haudit'⟩

/-- The container is replaced by an empty file before it is verified: its record has the digest
of the empty file beside the fingerprint of the container. -/
theorem verified_drifted :
    ¬ ∀ sha256 audit, Reachable (system sha256) audit → audit.Describes sha256 := by
  intro hclaim
  obtain ⟨header, audit, haudit, hidle, hopened, hget, hfile⟩ := registered_reachable sampleSha256
  obtain ⟨replaced, hreplace, hidle', hopened', hget', hfile'⟩ : ∃ replaced,
      (system sampleSha256).step audit (.registry (.replace model [] (some 6))) = some replaced ∧
      replaced.verifications 0 = .idle ∧ replaced.opened = [] ∧
      replaced.store.get sampleId = some (recordOf header ⟨0, container, some 5⟩) ∧
      replaced.store.files model = some ⟨audit.store.serials, [], some 6⟩ := by
    simp only [system, step, Registry.step, Store.altered, hfile]
    refine ⟨_, rfl, hidle, hopened, hget, ?_⟩
    show Function.update audit.store.files model _ model = _
    exact Function.update_self ..
  have hreplaced := haudit.reachable.next _ hreplace
  rw [← recordOf_path header ⟨0, container, some 5⟩] at hfile'
  obtain ⟨opening, hopening, hcall, hsame, hversions⟩ :=
    openingFile_run sampleSha256 false hidle' hget' hfile' fun h => by cases h
  have hopeningReached := reachableWhile_of_run (fun _ _ _ => trivial) hreplaced hopening
  obtain ⟨audit', hhashing, hstore, hkept⟩ :=
    hashing_run sampleSha256 false hcall le_rfl fun h => by cases h
  have haudit' := reachableWhile_of_run (fun _ _ _ => trivial) hopeningReached hhashing
  obtain ⟨record, hrecord, hverified, hpath, hfingerprint⟩ := get_update (sampleSha256 []) hget'
  rw [← hsame, ← hstore] at hrecord
  obtain ⟨version, hversion, -, hobserve⟩ := hclaim _ audit' haudit' record hrecord _ hverified
  rw [hkept, hversions, hopened', List.mem_singleton] at hversion
  have hempty : version = ⟨audit.store.serials, [], some 6⟩ := congrArg Prod.snd hversion
  rw [hfingerprint, hempty] at hobserve
  cases congrArg ArtifactFingerprint.sizeBytes hobserve

end Audit
end MehoyRuntime.Registry
