import MehoyRuntime.Lib.Filesystem
import MehoyRuntime.Lib.Slots
import MehoyRuntime.Lib.System
import MehoyRuntime.Registry.Artifact
import MehoyRuntime.Registry.GgufRoundTrip
import MehoyRuntime.Runtime.Load

/-!
# Which version of a file a load proceeds with

Registrations, loads up to their drift check, and another process that replaces the files,
one step at a time. A version of a file is what is at its path between two replacements;
each has a number of its own, which nothing but the statements reads.
-/

namespace MehoyRuntime.Registry
open TransitionSystem Filesystem
open MehoyRuntime.Runtime (ArtifactState LoadError)

structure Version where
  serial : ℕ
  bytes : List UInt8
  modified : Option ℤ
  deriving DecidableEq, Repr

/-- `observe`, of the version that is at the path. -/
def ArtifactFingerprint.observe (version : Version) : ArtifactFingerprint :=
  ⟨version.bytes.length, version.modified⟩

def detectDrift (artifact : ModelArtifact) (observed : Except Fault ArtifactFingerprint) :
    ArtifactState :=
  match observed with
  | .error _ => .missing
  | .ok current =>
    if current.sizeBytes ≠ artifact.fingerprint.sizeBytes then
      .changed (s!"size is now {current.sizeBytes} bytes, was {artifact.fingerprint.sizeBytes} " ++
        "at registration")
    else
      match current.modifiedAt, artifact.fingerprint.modifiedAt with
      | some now, some before =>
        if now ≠ before then .changed "modification time has changed since registration"
        else .unchanged
      | _, _ => .unchanged

inductive RegistryError
  | notFound (path : PathBuf)
  | notAFile (path : PathBuf) (reason : String)
  | notAnArtifact (path : PathBuf) (source : GgufError)
  | unknownArtifact (id : String)
  | storage (err : String)
  | io (err : Fault)
  deriving DecidableEq

inductive Registration
  | registered (artifact : ModelArtifact)
  | alreadyRegistered (artifact : ModelArtifact)

/-- The artifact, however it was arrived at. -/
def Registration.artifact : Registration → ModelArtifact
  | .registered artifact | .alreadyRegistered artifact => artifact

/-- An artifact as it is stored, and the version whose header was parsed for it. -/
structure Record where
  artifact : ModelArtifact
  parsed : Version

/-- Where a call of `register` or of `load` is. -/
inductive Call
  | idle
  | inspecting (path : PathBuf)
  | canonicalizing (path : PathBuf)
  | finding (canonical : PathBuf)
  | opening (canonical : PathBuf)
  | parsing (canonical : PathBuf) (version : Version)
  | observing (canonical : PathBuf) (version : Version) (header : GgufHeader)
  | identifying (canonical : PathBuf) (version : Version) (header : GgufHeader)
      (fingerprint : ArtifactFingerprint)
  | inserting (artifact : ModelArtifact) (version : Version)
  | registered (result : Except RegistryError Registration)
  | getting (id : String)
  | checking (id : String) (record : Record)
  | proceeding (record : Record) (seen : Version)
  | refused (err : LoadError)

/-- What a call is given at its next step. -/
inductive Answer
  | register (path : PathBuf)
  | inspected (isDir : Except Fault Bool)
  | canonicalized (canonical : Except Fault PathBuf)
  | done (failure : Option String)
  | identified (bytes : Except Fault (List UInt8)) (now : ℤ)
  | load (id : String)

structure Store where
  files : PathBuf → Option Version
  serials : ℕ
  records : List Record
  calls : ℕ → Call

inductive Action
  | call (call : ℕ) (answer : Answer)
  | forget (id : String)
  | replace (path : PathBuf) (bytes : List UInt8) (modified : Option ℤ)
  | remove (path : PathBuf)

namespace Store

def set (store : Store) (call : ℕ) (point : Call) : Store :=
  { store with calls := Function.update store.calls call point }

/-- The version at a path. -/
def current (store : Store) (path : PathBuf) : Except Fault Version :=
  match store.files path with
  | some version => .ok version
  | none => .error .notFound

def findByPath (store : Store) (canonical : PathBuf) : Option Record :=
  store.records.find? fun record => record.artifact.path = canonical.stored

def get (store : Store) (id : String) : Option Record :=
  store.records.find? fun record => record.artifact.id = id

/-- The identifier is the primary key, and a path is registered once. -/
def insert (store : Store) (artifact : ModelArtifact) (version : Version) : Except String Store :=
  if (store.get artifact.id).isSome then .error "UNIQUE constraint failed: artifacts.id"
  else if (store.findByPath artifact.path).isSome then
    .error "UNIQUE constraint failed: artifacts.canonical_path"
  else .ok { store with records := ⟨artifact.stored, version⟩ :: store.records }

end Store

/-- Sixteen bytes from the system's randomness, two hexadecimal digits each. -/
def generateId (bytes : List UInt8) : String := Text.hexOf bytes

/-- An artifact as it comes out of a registration. -/
def newArtifact (id : String) (canonical : PathBuf) (header : GgufHeader)
    (fingerprint : ArtifactFingerprint) (now : ℤ) : ModelArtifact where
  id := id
  path := canonical
  sizeBytes := fingerprint.sizeBytes
  metadata := .fromHeader header
  integrity := .unverified
  fingerprint := fingerprint
  registeredAt := now

/-- What the loader goes on with. -/
def ModelArtifact.loaded (artifact : ModelArtifact) : Runtime.ModelArtifact where
  path := toStringLossy artifact.path
  sizeBytes := UInt64.ofNat artifact.sizeBytes
  architecture := artifact.metadata.architecture
  embeddingLength := artifact.metadata.embeddingLength.map UInt64.ofNat
  hasChatTemplate := artifact.metadata.chatTemplate.isSome

/-- The start of `register`, up to the canonical path. -/
def inspected (path : PathBuf) : Except Fault Bool → Call
  | .error .notFound => .registered (.error (.notFound path))
  | .error fault => .registered (.error (.io fault))
  | .ok true => .registered (.error (.notAFile path "path is a directory"))
  | .ok false => .canonicalizing path

def canonicalized : Except Fault PathBuf → Call
  | .error fault => .registered (.error (.io fault))
  | .ok canonical => .finding canonical

/-- The storage of the registry may fail. -/
def queried (record : Option Record) : Option String → Except String (Option Record)
  | some err => .error err
  | none => .ok record

/-- A path that is registered keeps its record. -/
def found (canonical : PathBuf) : Except String (Option Record) → Call
  | .error err => .registered (.error (.storage err))
  | .ok (some existing) => .registered (.ok (.alreadyRegistered existing.artifact))
  | .ok none => .opening canonical

def opened (canonical : PathBuf) : Except Fault Version → Call
  | .error fault => .registered (.error (.io fault))
  | .ok version => .parsing canonical version

/-- Reading the opened file may fail; what is read is the version that was opened. -/
def parsed (canonical : PathBuf) (version : Version) (failure : Option String) : Call :=
  match failure with
  | some err => .registered (.error (.notAnArtifact canonical (.io err)))
  | none =>
    match parse (Source.ofBytes version.bytes) with
    | .error source _ => .registered (.error (.notAnArtifact canonical source))
    | .ok header _ => .observing canonical version header

def observed (canonical : PathBuf) (version : Version) (header : GgufHeader) :
    Except Fault Version → Call
  | .error fault => .registered (.error (.io fault))
  | .ok current => .identifying canonical version header (.observe current)

def identified (canonical : PathBuf) (version : Version) (header : GgufHeader)
    (fingerprint : ArtifactFingerprint) (now : ℤ) : Except Fault (List UInt8) → Call
  | .error fault => .registered (.error (.io fault))
  | .ok bytes => .inserting (newArtifact (generateId bytes) canonical header fingerprint now) version

def gotten (id : String) : Except String (Option Record) → Call
  | .error err => .refused (.registry err)
  | .ok none => .refused (.unknownArtifact id)
  | .ok (some record) => .checking id record

/-- `resolve`, once the record is there and its file has been looked at. -/
def resolved (id : String) (record : Record) (current : Except Fault Version) : Call :=
  match Runtime.resolve id (.ok (some record.artifact.loaded))
      (detectDrift record.artifact (current.map .observe)), current with
  | .ok _, .ok version => .proceeding record version
  | .ok _, .error _ => .idle
  | .error err, _ => .refused err

/-- The steps of a call that leave the records alone. -/
def Call.next (store : Store) : Call → Answer → Option Call
  | .idle, .register path => some (.inspecting path)
  | .idle, .load id => some (.getting id)
  | .inspecting path, .inspected isDir => some (inspected path isDir)
  | .canonicalizing _, .canonicalized canonical => some (canonicalized canonical)
  | .finding canonical, .done failure =>
    some (found canonical (queried (store.findByPath canonical) failure))
  | .opening canonical, .done failure =>
    some (opened canonical (attempt (store.current canonical) failure))
  | .parsing canonical version, .done failure => some (parsed canonical version failure)
  | .observing canonical version header, .done failure =>
    some (observed canonical version header (attempt (store.current canonical) failure))
  | .identifying canonical version header fingerprint, .identified bytes now =>
    some (identified canonical version header fingerprint now bytes)
  | .getting id, .done failure => some (gotten id (queried (store.get id) failure))
  | .checking id record, .done failure =>
    some (resolved id record (attempt (store.current record.artifact.path) failure))
  | _, _ => none

/-- The last step of a registration. -/
def Store.inserted (store : Store) (call : ℕ) (artifact : ModelArtifact) (version : Version)
    (failure : Option String) : Store :=
  match failure, store.insert artifact version with
  | some err, _ | none, .error err => store.set call (.registered (.error (.storage err)))
  | none, .ok grown => grown.set call (.registered (.ok (.registered artifact)))

/-- A replacement changes the size or the modification time. -/
def Store.altered (store : Store) (path : PathBuf) (bytes : List UInt8) (modified : Option ℤ) :
    Bool :=
  match store.files path with
  | some version => version.bytes.length ≠ bytes.length || version.modified ≠ modified
  | none => true

def step (store : Store) : Action → Option Store
  | .call call answer =>
    match store.calls call, answer with
    | .inserting artifact version, .done failure =>
      some (store.inserted call artifact version failure)
    | point, answer => (point.next store answer).map (store.set call)
  | .forget id =>
    some { store with records := store.records.filter fun record => record.artifact.id ≠ id }
  | .replace path bytes modified =>
    if store.altered path bytes modified then
      some { store with
        files := Function.update store.files path (some ⟨store.serials, bytes, modified⟩)
        serials := store.serials + 1 }
    else none
  | .remove path => some { store with files := Function.update store.files path none }

/-- At the beginning nothing is registered. -/
def system : System Store Action where
  init store := store.records = [] ∧ (∀ call, store.calls call = .idle) ∧
    ∀ path version, store.files path = some version → version.serial < store.serials
  step := step

/-- A record of the older version does not tell the newer one from it. -/
def alike (older newer : Version) : Bool :=
  fromSigned (toSigned older.bytes.length) = newer.bytes.length &&
    match newer.modified, older.modified with
    | some now, some before => now = fromEpochNanos (toEpochNanos before)
    | _, _ => true

/-- The version that a call has opened at a path, or that the record it has read is of. -/
def Call.held : Call → Option (PathBuf × Version)
  | .parsing canonical version | .observing canonical version _
  | .identifying canonical version _ _ => some (canonical, version)
  | .inserting artifact version => some (artifact.path, version)
  | .checking _ record => some (record.artifact.path, record.parsed)
  | _ => none

/-- Registered, or about to be. -/
def Store.Held (store : Store) (path : PathBuf) (version : Version) : Prop :=
  (∃ record ∈ store.records, record.artifact.path = path ∧ record.parsed = version) ∨
    ∃ call, (store.calls call).held = some (path, version)

/-- A replacement can be told from every version that is registered at the path, or about
to be; a fingerprint is taken of the version whose header was parsed; and a path is text. -/
def Traceable (store : Store) : Action → Prop
  | .replace path bytes modified =>
    ∀ older, store.Held path older → alike older ⟨store.serials, bytes, modified⟩ = false
  | .call call (.done none) =>
    ∀ canonical version header current, store.calls call = .observing canonical version header →
      store.files canonical = some current → current = version
  | .call _ (.canonicalized (.ok canonical)) => (Utf8.textOf canonical).isSome
  | _ => True

/-! ### What the drift check tells apart -/

def Record.Faithful (record : Record) : Prop :=
  record.artifact.fingerprint = (ArtifactFingerprint.observe record.parsed).stored

theorem detectDrift_faithful {record : Record} (h : record.Faithful) (version : Version) :
    detectDrift record.artifact (.ok (.observe version)) = .unchanged ↔
      alike record.parsed version = true := by
  have hsize : record.artifact.fingerprint.sizeBytes =
      fromSigned (toSigned record.parsed.bytes.length) := congrArg ArtifactFingerprint.sizeBytes h
  have htime : record.artifact.fingerprint.modifiedAt =
      record.parsed.modified.map fun time => fromEpochNanos (toEpochNanos time) :=
    congrArg ArtifactFingerprint.modifiedAt h
  simp only [detectDrift, alike, ArtifactFingerprint.observe, hsize, htime, ne_eq]
  by_cases hsame : version.bytes.length = fromSigned (toSigned record.parsed.bytes.length)
  · cases version.modified <;> cases record.parsed.modified <;> simp [hsame]
  · simp [hsame, Ne.symm hsame]

/-- A file that nobody has touched is not reported, as long as its size and time fit. -/
theorem detectDrift_untouched {record : Record} (h : record.Faithful)
    (hsize : (record.parsed.bytes.length : ℤ) ≤ i64Max)
    (htime : ∀ time, record.parsed.modified = some time → 0 ≤ time ∧ time ≤ i64Max) :
    detectDrift record.artifact (.ok (.observe record.parsed)) = .unchanged := by
  rw [detectDrift_faithful h, alike, fromSigned_toSigned hsize]
  cases hmodified : record.parsed.modified with
  | none => simp
  | some time =>
    obtain ⟨hnonneg, hle⟩ := htime time hmodified
    simp [fromEpochNanos_toEpochNanos hnonneg hle]

/-! ### What a call knows -/

/-- What a call has fingerprinted is what it has opened, at a path that is text. -/
def Call.Sound : Call → Prop
  | .finding canonical | .opening canonical | .parsing canonical _ | .observing canonical _ _ =>
    (Utf8.textOf canonical).isSome
  | .identifying canonical version _ fingerprint =>
    (Utf8.textOf canonical).isSome ∧ fingerprint = .observe version
  | .inserting artifact version =>
    (Utf8.textOf artifact.path).isSome ∧ artifact.fingerprint = .observe version ∧
      artifact.sizeBytes = artifact.fingerprint.sizeBytes
  | .checking _ record => record.Faithful
  | .proceeding record seen => seen = record.parsed
  | _ => True

/-- A point that a call may go to. -/
structure Call.Fits (store : Store) (point : Call) : Prop where
  sound : point.Sound
  held : ∀ path version, point.held = some (path, version) →
    store.Held path version ∨ store.files path = some version

variable {store store' : Store} {call : ℕ} {point point' : Call}

theorem Call.Fits.of_none (hsound : point.Sound) (hheld : point.held = none) :
    point.Fits store where
  sound := hsound
  held path version h := by
    rw [hheld] at h
    cases h

theorem Call.Fits.of_held {path : PathBuf} {version : Version} (hsound : point.Sound)
    (hheld : point.held = some (path, version))
    (h : store.Held path version ∨ store.files path = some version) : point.Fits store where
  sound := hsound
  held path' version' h' := by
    rw [hheld] at h'
    cases h'
    exact h

theorem Store.held_call {path : PathBuf} {version : Version}
    (h : (store.calls call).held = some (path, version)) : store.Held path version :=
  .inr ⟨call, h⟩

theorem current_ok {path : PathBuf} {failure : Option String} {version : Version}
    (h : attempt (store.current path) failure = .ok version) :
    failure = none ∧ store.files path = some version := by
  obtain ⟨hnone, hcurrent⟩ := attempt_ok h
  refine ⟨hnone, ?_⟩
  rw [Store.current] at hcurrent
  cases hfile : store.files path with
  | none => simp [hfile] at hcurrent
  | some found => simpa [hfile] using hcurrent

theorem inspected_fits (path : PathBuf) (isDir : Except Fault Bool) :
    (inspected path isDir).Fits store := by
  unfold inspected
  split <;> exact .of_none trivial rfl

theorem canonicalized_fits {canonical : Except Fault PathBuf}
    (h : ∀ path, canonical = .ok path → (Utf8.textOf path).isSome) :
    (canonicalized canonical).Fits store := by
  cases canonical with
  | error fault => exact .of_none trivial rfl
  | ok path => exact .of_none (h path rfl) rfl

theorem found_fits {canonical : PathBuf} (htext : (Utf8.textOf canonical).isSome)
    (record : Except String (Option Record)) : (found canonical record).Fits store := by
  match record with
  | .error _ => exact .of_none trivial rfl
  | .ok (some _) => exact .of_none trivial rfl
  | .ok none => exact .of_none htext rfl

theorem opened_fits {canonical : PathBuf} (htext : (Utf8.textOf canonical).isSome)
    (failure : Option String) :
    (opened canonical (attempt (store.current canonical) failure)).Fits store := by
  cases hopen : attempt (store.current canonical) failure with
  | error fault => exact .of_none trivial rfl
  | ok version => exact .of_held htext rfl (.inr (current_ok hopen).2)

theorem parsed_fits {canonical : PathBuf} {version : Version}
    (htext : (Utf8.textOf canonical).isSome) (hheld : store.Held canonical version)
    (failure : Option String) : (parsed canonical version failure).Fits store := by
  unfold parsed
  split
  · exact .of_none trivial rfl
  · split
    · exact .of_none trivial rfl
    · exact .of_held htext rfl (.inl hheld)

theorem observed_fits {canonical : PathBuf} {version : Version} {header : GgufHeader}
    {failure : Option String} (htext : (Utf8.textOf canonical).isSome)
    (hheld : store.Held canonical version)
    (hsame : failure = none → ∀ current, store.files canonical = some current → current = version) :
    (observed canonical version header (attempt (store.current canonical) failure)).Fits store := by
  cases hobserve : attempt (store.current canonical) failure with
  | error fault => exact .of_none trivial rfl
  | ok current =>
    obtain ⟨hnone, hcurrent⟩ := current_ok hobserve
    have hfingerprint : ArtifactFingerprint.observe current = .observe version :=
      congrArg _ (hsame hnone current hcurrent)
    exact .of_held ⟨htext, hfingerprint⟩ rfl (.inl hheld)

theorem identified_fits {canonical : PathBuf} {version : Version} {header : GgufHeader}
    {fingerprint : ArtifactFingerprint} {now : ℤ} (htext : (Utf8.textOf canonical).isSome)
    (hfingerprint : fingerprint = .observe version) (hheld : store.Held canonical version)
    (bytes : Except Fault (List UInt8)) :
    (identified canonical version header fingerprint now bytes).Fits store := by
  cases bytes with
  | error fault => exact .of_none trivial rfl
  | ok bytes => exact .of_held ⟨htext, hfingerprint, rfl⟩ rfl (.inl hheld)

theorem gotten_fits {id : String} {record : Option Record} {failure : Option String}
    (h : ∀ r, record = some r → r ∈ store.records ∧ r.Faithful) :
    (gotten id (queried record failure)).Fits store := by
  match failure, record, h with
  | some _, _, _ => exact .of_none trivial rfl
  | none, none, _ => exact .of_none trivial rfl
  | none, some record, h =>
    obtain ⟨hmem, hfaithful⟩ := h record rfl
    exact .of_held hfaithful rfl (.inl (.inl ⟨record, hmem, rfl, rfl⟩))

theorem resolved_fits {id : String} {record : Record} {failure : Option String}
    (hfaithful : record.Faithful)
    (htold : ∀ current, store.files record.artifact.path = some current →
      alike record.parsed current = true → current = record.parsed) :
    (resolved id record (attempt (store.current record.artifact.path) failure)).Fits store := by
  cases hseen : attempt (store.current record.artifact.path) failure with
  | error fault => exact .of_none trivial rfl
  | ok current =>
    have hcurrent := (current_ok hseen).2
    cases hdrift : detectDrift record.artifact (.ok (.observe current)) with
    | unchanged =>
      have hsame := htold current hcurrent ((detectDrift_faithful hfaithful current).mp hdrift)
      have hpoint : resolved id record (.ok current) = .proceeding record current := by
        simp only [resolved, Except.map, hdrift, Runtime.resolve]
      rw [hpoint]
      exact .of_none hsame rfl
    | missing =>
      simp only [resolved, Except.map, hdrift, Runtime.resolve]
      exact .of_none trivial rfl
    | changed reason =>
      simp only [resolved, Except.map, hdrift, Runtime.resolve]
      exact .of_none trivial rfl

/-! ### What stays so -/

structure Inv (store : Store) : Prop where
  told : ∀ path older current, store.Held path older → store.files path = some current →
    alike older current = true → current = older
  records : ∀ record ∈ store.records, record.Faithful
  calls : ∀ call, (store.calls call).Sound

theorem get_mem {id : String} {record : Record} (h : store.get id = some record) :
    record ∈ store.records := List.mem_of_find?_eq_some h

theorem next_fits {answer : Answer} (hinv : Inv store) (hok : Traceable store (.call call answer))
    (h : (store.calls call).next store answer = some point) : point.Fits store := by
  have hsound := hinv.calls call
  have hheld : ∀ path version, (store.calls call).held = some (path, version) →
      store.Held path version := fun _ _ => Store.held_call
  unfold Call.next at h
  split at h
  case h_1 => cases h; exact .of_none trivial rfl
  case h_2 => cases h; exact .of_none trivial rfl
  case h_3 => cases h; exact inspected_fits _ _
  case h_4 canonical _ =>
    cases h
    refine canonicalized_fits ?_
    rintro path rfl
    exact hok
  case h_5 hpoint =>
    cases h
    rw [hpoint] at hsound
    exact found_fits hsound _
  case h_6 hpoint =>
    cases h
    rw [hpoint] at hsound
    exact opened_fits hsound _
  case h_7 hpoint =>
    cases h
    rw [hpoint] at hsound hheld
    exact parsed_fits hsound (hheld _ _ rfl) _
  case h_8 hpoint =>
    cases h
    rw [hpoint] at hsound hheld
    refine observed_fits hsound (hheld _ _ rfl) ?_
    rintro rfl current hcurrent
    exact hok _ _ _ current hpoint hcurrent
  case h_9 hpoint =>
    cases h
    rw [hpoint] at hsound hheld
    exact identified_fits hsound.1 hsound.2 (hheld _ _ rfl) _
  case h_10 =>
    cases h
    refine gotten_fits fun record hget => ?_
    exact ⟨get_mem hget, hinv.records record (get_mem hget)⟩
  case h_11 hpoint =>
    cases h
    rw [hpoint] at hsound hheld
    exact resolved_fits hsound fun current => hinv.told _ _ current (hheld _ _ rfl)
  case h_12 => cases h

theorem calls_set (store : Store) (call other : ℕ) (point : Call) :
    (store.set call point).calls other = if other = call then point else store.calls other := by
  simp [Store.set, Function.update_apply]

theorem calls_set_self (store : Store) (call : ℕ) (point : Call) :
    (store.set call point).calls call = point := by
  rw [calls_set, if_pos rfl]

theorem held_set {path : PathBuf} {version : Version}
    (h : (store.set call point).Held path version) :
    store.Held path version ∨ point.held = some (path, version) := by
  rcases h with hrecord | ⟨other, hother⟩
  · exact .inl (.inl hrecord)
  · rw [calls_set] at hother
    split at hother
    · exact .inr hother
    · exact .inl (.inr ⟨other, hother⟩)

theorem Inv.set (hinv : Inv store) (hfits : point.Fits store) : Inv (store.set call point) where
  told path older current hheld hcurrent halike := by
    rcases held_set hheld with hbefore | hnew
    · exact hinv.told path older current hbefore hcurrent halike
    · rcases hfits.held path older hnew with hbefore | hopened
      · exact hinv.told path older current hbefore hcurrent halike
      · -- What has just been opened is what is there.
        have hsame : some older = some current := hopened.symm.trans hcurrent
        cases hsame
        rfl
  records := hinv.records
  calls other := by
    rw [calls_set]
    split
    · exact hfits.sound
    · exact hinv.calls other

/-- An insertion fails, or it adds a row where the path had none. -/
theorem inserted_cases (store : Store) (call : ℕ) (artifact : ModelArtifact) (version : Version)
    (failure : Option String) :
    ((failure.isSome ∨ (store.get artifact.id).isSome ∨ (store.findByPath artifact.path).isSome) ∧
      ∃ err, store.inserted call artifact version failure =
        store.set call (.registered (.error (.storage err)))) ∨
    (failure = none ∧ store.findByPath artifact.path = none ∧
      store.inserted call artifact version failure =
        { store with records := ⟨artifact.stored, version⟩ :: store.records }.set call
          (.registered (.ok (.registered artifact)))) := by
  cases failure with
  | some err => exact .inl ⟨.inl rfl, err, rfl⟩
  | none =>
    unfold Store.inserted Store.insert
    by_cases hid : (store.get artifact.id).isSome
    · rw [if_pos hid]
      exact .inl ⟨.inr (.inl hid), _, rfl⟩
    · rw [if_neg hid]
      by_cases hpath : (store.findByPath artifact.path).isSome
      · rw [if_pos hpath]
        exact .inl ⟨.inr (.inr hpath), _, rfl⟩
      · rw [if_neg hpath]
        exact .inr ⟨rfl, Option.not_isSome_iff_eq_none.mp hpath, rfl⟩

/-- A registration that reaches its end leaves a record of what it has opened. -/
theorem inv_insert {artifact : ModelArtifact} {version : Version} (hinv : Inv store)
    (hpoint : store.calls call = .inserting artifact version) :
    Inv { store with records := ⟨artifact.stored, version⟩ :: store.records } := by
  have hsound := hinv.calls call
  rw [hpoint] at hsound
  obtain ⟨htext, hfingerprint, hsize⟩ := hsound
  have hpath : artifact.stored.path = artifact.path := by
    obtain ⟨text, htext⟩ := Option.isSome_iff_exists.mp htext
    exact PathBuf.stored_of_text htext
  have hcall : (store.calls call).held = some (artifact.path, version) := by
    rw [hpoint]
    rfl
  have hheld := Store.held_call hcall
  constructor
  case told =>
    intro path older current h
    refine hinv.told path older current ?_
    rcases h with ⟨record, hmem, hrecord⟩ | hcall
    · cases hmem with
      | head =>
        obtain ⟨rfl, rfl⟩ := hrecord
        rw [hpath]
        exact hheld
      | tail _ hmem => exact .inl ⟨record, hmem, hrecord⟩
    · exact .inr hcall
  case records =>
    intro record hmem
    cases hmem with
    | head =>
      have hstored : artifact.stored.fingerprint = artifact.fingerprint.stored := by
        rw [ModelArtifact.stored, ArtifactFingerprint.stored, hsize]
      exact hstored.trans (congrArg ArtifactFingerprint.stored hfingerprint)
    | tail _ hmem => exact hinv.records record hmem
  case calls => exact hinv.calls

theorem inv_inserted {artifact : ModelArtifact} {version : Version} (hinv : Inv store)
    (hpoint : store.calls call = .inserting artifact version) (failure : Option String) :
    Inv (store.inserted call artifact version failure) := by
  rcases inserted_cases store call artifact version failure with ⟨-, err, heq⟩ | ⟨-, -, heq⟩
  · rw [heq]
    exact hinv.set (.of_none trivial rfl)
  · rw [heq]
    exact (inv_insert hinv hpoint).set (.of_none trivial rfl)

/-- Nobody holds more after a version has gone, or another has come. -/
theorem Inv.files {files : PathBuf → Option Version} {serials : ℕ} (hinv : Inv store)
    (h : ∀ path older current, store.Held path older → files path = some current →
      alike older current = true → current = older) :
    Inv { store with files, serials } where
  told := h
  records := hinv.records
  calls := hinv.calls

theorem inv_step {action : Action} (hinv : Inv store) (hok : Traceable store action)
    (hstep : step store action = some store') : Inv store' := by
  cases action with
  | call call answer =>
    simp only [step] at hstep
    split at hstep
    · rename_i hpoint
      cases hstep
      exact inv_inserted hinv hpoint _
    · obtain ⟨point, hnext, rfl⟩ := Option.map_eq_some_iff.mp hstep
      exact hinv.set (next_fits hinv hok hnext)
  | forget id =>
    cases hstep
    refine ⟨fun path older current h => hinv.told path older current ?_, ?_, hinv.calls⟩
    · rcases h with ⟨record, hmem, hrecord⟩ | hcall
      · exact .inl ⟨record, (List.mem_filter.mp hmem).1, hrecord⟩
      · exact .inr hcall
    · intro record hmem
      exact hinv.records record (List.mem_filter.mp hmem).1
  | replace path bytes modified =>
    simp only [step] at hstep
    split at hstep <;> cases hstep
    refine hinv.files fun place older current hheld hcurrent halike => ?_
    rcases Slots.update_cases hcurrent with ⟨rfl, hnew⟩ | ⟨-, hcurrent⟩
    · cases hnew
      rw [hok older hheld] at halike
      cases halike
    · exact hinv.told place older current hheld hcurrent halike
  | remove path =>
    cases hstep
    refine hinv.files fun place older current hheld hcurrent halike => ?_
    rcases Slots.update_cases hcurrent with ⟨-, hnone⟩ | ⟨-, hcurrent⟩
    · cases hnone
    · exact hinv.told place older current hheld hcurrent halike

theorem inv_init (h : system.init store) : Inv store := by
  obtain ⟨hrecords, hcalls, -⟩ := h
  constructor
  case told =>
    rintro path older current (⟨record, hmem, -⟩ | ⟨call, hcall⟩)
    · rw [hrecords] at hmem
      cases hmem
    · rw [hcalls] at hcall
      cases hcall
  case records =>
    intro record hmem
    rw [hrecords] at hmem
    cases hmem
  case calls =>
    intro call
    rw [hcalls]
    trivial

/-- A load proceeds only with the version whose header was parsed. -/
theorem provenance_traceable (hreach : ReachableWhile system Traceable store) {record : Record}
    {seen : Version} (hpoint : store.calls call = .proceeding record seen) :
    seen = record.parsed := by
  have hinv : Inv store := hreach.invariant (I := Inv) (fun _ => inv_init)
    fun _ _ _ _ hinv hok hstep => inv_step hinv hok hstep
  have hsound := hinv.calls call
  rw [hpoint] at hsound
  exact hsound

/-- A load goes on with a file that is reported unchanged. -/
theorem step_unchanged {id : String} {record : Record} {version : Version}
    (hpoint : store.calls call = .checking id record)
    (hfile : store.files record.artifact.path = some version)
    (hdrift : detectDrift record.artifact (.ok (.observe version)) = .unchanged) :
    step store (.call call (.done none)) = some (store.set call (.proceeding record version)) := by
  have hcurrent : store.current record.artifact.path = .ok version := by rw [Store.current, hfile]
  simp only [step, hpoint, Call.next, attempt, hcurrent, resolved, Except.map, hdrift,
    Runtime.resolve, Option.map_some]

theorem step_parses {canonical : PathBuf} {version : Version} {header : GgufHeader} {s : Budgeted}
    (hpoint : store.calls call = .parsing canonical version)
    (hparse : parse (Source.ofBytes version.bytes) = .ok header s) :
    step store (.call call (.done none)) = some (store.set call (.observing canonical version header)) := by
  simp only [step, hpoint, Call.next, parsed, hparse, Option.map_some]

/-! ### A file that is registered -/

def container : List UInt8 := (Header.mk 3 0 []).encode

theorem container_parses_before (rest : List UInt8) :
    ∃ header s, parse (Source.ofBytes (container ++ rest)) = .ok header s := by
  have hfits : (Header.mk 3 0 []).Fits := by
    constructor <;> simp [MAX_TENSOR_COUNT, MAX_METADATA_ENTRIES]
  have hsize : container.length ≤ MAX_HEADER_BYTES := by decide
  have hnext := next_ofBytes container rest MAX_HEADER_BYTES
  obtain ⟨s, hrun, -⟩ := parses_header hfits _ hnext hsize
  exact ⟨_, s, hrun⟩

theorem container_parses : ∃ header s, parse (Source.ofBytes container) = .ok header s := by
  have hparses := container_parses_before []
  rwa [List.append_nil] at hparses

def model : PathBuf := Utf8.bytesOf "/m"

/-- A container at its path, and nothing registered. -/
def untouched : Store where
  files path := if path = model then some ⟨0, container, some 5⟩ else none
  serials := 1
  records := []
  calls _ := .idle

theorem untouched_init : system.init untouched := by
  refine ⟨rfl, fun _ => rfl, ?_⟩
  intro path version h
  simp only [untouched, Option.ite_none_right_eq_some, Option.some.injEq] at h
  obtain ⟨-, rfl⟩ := h
  exact Nat.zero_lt_one

/-- Nothing is replaced, and what is fingerprinted is what was opened. -/
def quiet (store : Store) : Action → Bool
  | .replace _ _ _ => false
  | .call call (.done none) =>
    match store.calls call with
    | .observing canonical version _ => store.files canonical = some version
    | _ => true
  | .call _ (.canonicalized (.ok canonical)) => (Utf8.textOf canonical).isSome
  | _ => true

theorem traceable_of_quiet (store : Store) (action : Action) (h : quiet store action = true) :
    Traceable store action := by
  unfold quiet at h
  split at h
  case h_1 => cases h
  case h_2 =>
    intro canonical version header current hpoint hcurrent
    simp only [hpoint, hcurrent, decide_eq_true_eq] at h
    exact Option.some.inj h
  case h_3 => exact h
  case h_4 hreplace hdone hcanonicalized =>
    unfold Traceable
    split
    · exact absurd rfl (hreplace _ _ _)
    · exact absurd rfl (hdone _)
    · exact absurd rfl (hcanonicalized _ _)
    · trivial

/-- A registration of the container up to its query. -/
def querying (call : ℕ) : List Action :=
  [.call call (.register model), .call call (.inspected (.ok false)),
    .call call (.canonicalized (.ok model))]

def atParsing : Store :=
  ((((untouched.set 0 (.inspecting model)).set 0 (.canonicalizing model)).set 0
    (.finding model)).set 0 (.opening model)).set 0 (.parsing model ⟨0, container, some 5⟩)

theorem observing_reachable : ∃ header, ReachableWhile system Traceable
    (atParsing.set 0 (.observing model ⟨0, container, some 5⟩ header)) := by
  obtain ⟨header, s, hparse⟩ := container_parses
  have hparsed : parsed model ⟨0, container, some 5⟩ none =
      .observing model ⟨0, container, some 5⟩ header := by rw [parsed, hparse]
  have hrun : system.runWhile quiet untouched
      [.call 0 (.register model), .call 0 (.inspected (.ok false)),
        .call 0 (.canonicalized (.ok model)), .call 0 (.done none), .call 0 (.done none),
        .call 0 (.done none)] =
      some (atParsing.set 0 (parsed model ⟨0, container, some 5⟩ none)) := rfl
  rw [hparsed] at hrun
  exact ⟨header, reachableWhile_of_run traceable_of_quiet (.init untouched_init) hrun⟩

/-- Sixteen zeros. -/
def sampleId : String := generateId (List.replicate 16 0)

/-- The rest of the registration, and a load of what it recorded up to its drift check. -/
def registering : List Action :=
  [.call 0 (.done none), .call 0 (.identified (.ok (List.replicate 16 0)) 0),
    .call 0 (.done none), .call 1 (.load sampleId), .call 1 (.done none)]

/-- The record of the container, with the fingerprint of a version. -/
def recordOf (header : GgufHeader) (version : Version) : Record :=
  ⟨(newArtifact sampleId model header (.observe version) 0).stored, ⟨0, container, some 5⟩⟩

theorem recordOf_path (header : GgufHeader) (version : Version) :
    (recordOf header version).artifact.path = model :=
  PathBuf.stored_of_text (Utf8.textOf_bytesOf "/m")

theorem provenance_loaded : ∃ store record, ReachableWhile system Traceable store ∧
    store.calls 1 = .proceeding record ⟨0, container, some 5⟩ ∧
    ⟨0, container, some 5⟩ = record.parsed := by
  obtain ⟨header, hobserving⟩ := observing_reachable
  obtain ⟨store, hrun, hpoint, hfile⟩ : ∃ store,
      system.runWhile quiet (atParsing.set 0 (.observing model ⟨0, container, some 5⟩ header))
        registering = some store ∧
      store.calls 1 = .checking sampleId (recordOf header ⟨0, container, some 5⟩) ∧
      store.files model = some ⟨0, container, some 5⟩ := ⟨_, rfl, rfl, rfl⟩
  have hreach := reachableWhile_of_run traceable_of_quiet hobserving hrun
  rw [← recordOf_path header ⟨0, container, some 5⟩] at hfile
  have hfaithful : (recordOf header ⟨0, container, some 5⟩).Faithful := rfl
  have hsize : (container.length : ℤ) ≤ i64Max := by decide
  have htime : ∀ time, some (5 : ℤ) = some time → 0 ≤ time ∧ time ≤ i64Max := by
    rintro time ⟨⟩
    decide
  have hdrift := detectDrift_untouched hfaithful hsize htime
  have hstep := step_unchanged hpoint hfile hdrift
  have hquiet : Traceable store (.call 1 (.done none)) :=
    traceable_of_quiet store _ (by rw [quiet, hpoint])
  have hproceeds : ReachableWhile system Traceable _ := .step hreach hquiet hstep
  have hcalls := calls_set_self store 1 (.proceeding (recordOf header ⟨0, container, some 5⟩)
    ⟨0, container, some 5⟩)
  exact ⟨_, _, hproceeds, hcalls, provenance_traceable hproceeds hcalls⟩

/-- The file is replaced after its header has been parsed and before its fingerprint is
taken: the load proceeds with bytes that nobody has inspected. -/
theorem provenance_replaced :
    ¬ ∀ store, Reachable system store → ∀ (call : ℕ) (record : Record) (seen : Version),
      store.calls call = .proceeding record seen → seen = record.parsed := by
  intro hclaim
  obtain ⟨header, hobserving⟩ := observing_reachable
  obtain ⟨store, hrun, hpoint, hfile⟩ : ∃ store,
      system.run (atParsing.set 0 (.observing model ⟨0, container, some 5⟩ header))
        (.replace model [] (some 6) :: registering) = some store ∧
      store.calls 1 = .checking sampleId (recordOf header ⟨1, [], some 6⟩) ∧
      store.files model = some ⟨1, [], some 6⟩ := ⟨_, rfl, rfl, rfl⟩
  have hreach := reachable_of_run hobserving.reachable hrun
  rw [← recordOf_path header ⟨1, [], some 6⟩] at hfile
  have hdrift : detectDrift (recordOf header ⟨1, [], some 6⟩).artifact
      (.ok (.observe ⟨1, [], some 6⟩)) = .unchanged := rfl
  have hstep : system.step store (.call 1 (.done none)) = some _ :=
    step_unchanged hpoint hfile hdrift
  have hproceeds := hreach.next _ hstep
  have hsame := hclaim _ hproceeds 1 _ _ (calls_set_self store 1 _)
  cases congrArg Version.serial hsame

end MehoyRuntime.Registry
