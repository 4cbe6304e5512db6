import MehoyRuntime.Registry.Drift
import MehoyRuntime.Registry.Rows

/-!
# What a registration makes loadable

The artifact that `register` returns against the file that is at its path. A path that is
known already is answered with its row, whatever the row was made of.
-/

namespace MehoyRuntime.Registry
open TransitionSystem Filesystem
open MehoyRuntime.Runtime (ArtifactState)

/-- The header that is read from a version. -/
def Version.Holds (version : Version) (header : GgufHeader) : Prop :=
  ∃ rest, parse (Source.ofBytes version.bytes) = .ok header rest

/-- What a call has parsed, or is to record. -/
def Call.Parsed : Call → Prop
  | .observing _ version header | .identifying _ version header _ => version.Holds header
  | .inserting artifact version =>
    ∃ header, version.Holds header ∧ artifact.metadata = .fromHeader header
  | _ => True

structure Store.Parsed (store : Store) : Prop where
  rows : ∀ record ∈ store.records, ∃ header, record.parsed.Holds header ∧
    record.artifact.metadata = (ArtifactMetadata.fromHeader header).stored
  calls : ∀ call, (store.calls call).Parsed

/-- A row that was made of the content and of the modification time that are still there. -/
structure Record.Of (record : Record) (version : Version) : Prop where
  faithful : record.Faithful
  bytes : record.parsed.bytes = version.bytes
  modified : record.parsed.modified = version.modified
  storable : ∀ header, version.Holds header → header.Storable

/-- A path and a version of its file that a row keeps as they are. -/
structure Keepable (canonical : PathBuf) (version : Version) : Prop where
  text : (Utf8.textOf canonical).isSome
  fits : (ArtifactFingerprint.observe version).Fits

/-- The identifier of an artifact has a row of the version at the path, and the metadata of the
artifact is that of the header in it. -/
structure Loads (records : List Record) (canonical : PathBuf) (version : Version)
    (artifact : ModelArtifact) : Prop where
  row : ∃ record ∈ records, record.artifact.id = artifact.id ∧ record.artifact.path = canonical ∧
    record.artifact.fingerprint = .observe version
  metadata : ∃ header, version.Holds header ∧ artifact.metadata = .fromHeader header

/-- What a registration that finds one version at its path all along has come to know of it. -/
def Describes (records : List Record) (forgotten : List String) (canonical : PathBuf)
    (version : Version) : Call → Prop
  | .opening _ => Keepable canonical version
  | .parsing _ opened | .observing _ opened _ => Keepable canonical version ∧ opened = version
  | .identifying _ opened _ fingerprint =>
    Keepable canonical version ∧ opened = version ∧ fingerprint = .observe version
  | .inserting artifact opened =>
    Keepable canonical version ∧ opened = version ∧ artifact.fingerprint = .observe version
  | .registered (.ok registration) =>
    registration.artifact.id ∉ forgotten → Loads records canonical version registration.artifact
  | _ => True

namespace Chronicle

/-- The file is at the canonical path of a call, and nobody has touched it since the call began. -/
structure Lasts (store : Store) (chronicle : Chronicle) (call : ℕ) (canonical : PathBuf)
    (version : Version) : Prop where
  target : chronicle.canonicals call = some canonical
  untouched : canonical ∉ chronicle.touched call
  file : store.files canonical = some version

/-- A registration that looks its path up: a row keeps the path and the file as they are, and a
row that is there already is of that file. -/
def Suits (s : Audit × Chronicle) : AuditAction → Prop
  | .registry (.call call (.done none)) =>
    ∀ canonical version, s.1.store.calls call = .finding canonical →
      Lasts s.1.store s.2 call canonical version →
        Keepable canonical version ∧
          ∀ record, s.1.store.findByPath canonical = some record → record.Of version
  | _ => True

/-- A file that lasts from the start of its registration on, and that has not been forgotten, is
unchanged, and its header is what the registration has returned. -/
def Loadable (s : Audit × Chronicle) : Prop :=
  ∀ call canonical artifact version, Returned s call canonical artifact →
    Lasts s.1.store s.2 call canonical version → artifact.id ∉ s.2.forgotten call →
      s.1.store.check artifact.id (fun path => (s.1.store.current path).map .observe) =
        .ok .unchanged ∧
      ∃ header, version.Holds header ∧ artifact.metadata = .fromHeader header

end Chronicle

variable {sha256 : List UInt8 → List UInt8} {store store' : Store} {chronicle : Chronicle}
  {call : ℕ} {point point' : Call} {answer : Answer} {records records' : List Record}
  {forgotten : List String} {canonical : PathBuf} {version : Version} {artifact : ModelArtifact}

/-! ### Headers -/

theorem parsed_other (h : point.target = none) : point.Parsed := by
  cases point with
  | observing | identifying | inserting => cases h
  | _ => trivial

theorem Moves.parsed (hmoves : Moves store point answer point') (h : point.Parsed) :
    point'.Parsed := by
  cases hmoves with
  | observing canonical version header rest hparse => exact ⟨rest, hparse⟩
  | identifying => exact h
  | inserting canonical version header => exact ⟨header, h, rfl⟩
  | other _ _ _ hnone => exact parsed_other hnone
  | inspecting | canonicalizing | finding | found | opening | parsing => trivial

theorem Store.Parsed.set (h : store.Parsed) (hpoint : point.Parsed) :
    (store.set call point).Parsed where
  rows := h.rows
  calls other := by
    rw [calls_set]
    split
    · exact hpoint
    · exact h.calls other

theorem Store.Parsed.insert {grown : Store} (h : store.Parsed)
    (hpoint : store.calls call = .inserting artifact version)
    (hinsert : store.insert artifact version = .ok grown) : grown.Parsed := by
  obtain ⟨-, -, rfl⟩ := insert_ok hinsert
  have hcall := h.calls call
  rw [hpoint] at hcall
  obtain ⟨header, hholds, hmetadata⟩ := hcall
  constructor
  case rows =>
    intro record hrecord
    rcases List.mem_cons.mp hrecord with rfl | hrecord
    · exact ⟨header, hholds, congrArg ArtifactMetadata.stored hmetadata⟩
    · exact h.rows record hrecord
  case calls => exact h.calls

theorem Store.Parsed.update (h : store.Parsed) (id : String) (digest : List UInt8) :
    (store.update id digest).Parsed where
  rows record' hrecord' := by
    obtain ⟨record, hrecord, -, -, -, heq⟩ := Audit.update_mem hrecord'
    obtain ⟨header, hholds, hmetadata⟩ := h.rows record hrecord
    rw [heq]
    split <;> exact ⟨header, hholds, hmetadata⟩
  calls := h.calls

theorem Store.Parsed.step {s s' : Audit × Chronicle} {action : AuditAction}
    (h : s.1.store.Parsed) (hstep : (Chronicle.system sha256).step s action = some s') :
    s'.1.store.Parsed := by
  obtain ⟨audit', chronicle'⟩ := s'
  have heffect := step_effect hstep
  generalize audit'.store = store' at heffect ⊢
  cases heffect with
  | moved call answer point hmoves => exact h.set (hmoves.parsed (h.calls call))
  | refused call failure err => exact h.set trivial
  | inserted call artifact version grown hpoint hinsert =>
    exact (h.insert hpoint hinsert).set trivial
  | forgotten id => exact ⟨fun record hrecord => h.rows record (List.mem_filter.mp hrecord).1, h.calls⟩
  | touched => exact ⟨h.rows, h.calls⟩
  | updated _ id digest => exact h.update id digest
  | kept => exact h

/-! ### A registration against its file -/

theorem Loads.mono (h : Loads records canonical version artifact)
    (hrows : ∀ record ∈ records, ∃ record' ∈ records', record'.artifact.id = record.artifact.id ∧
      record'.artifact.path = record.artifact.path ∧
      record'.artifact.fingerprint = record.artifact.fingerprint) :
    Loads records' canonical version artifact := by
  obtain ⟨record, hrecord, hid, hpath, hfingerprint⟩ := h.row
  obtain ⟨record', hrecord', hid', hpath', hfingerprint'⟩ := hrows record hrecord
  exact ⟨⟨record', hrecord', hid'.trans hid, hpath'.trans hpath, hfingerprint'.trans hfingerprint⟩,
    h.metadata⟩

theorem Describes.mono (h : Describes records forgotten canonical version point)
    (hrows : ∀ record ∈ records, ∃ record' ∈ records', record'.artifact.id = record.artifact.id ∧
      record'.artifact.path = record.artifact.path ∧
      record'.artifact.fingerprint = record.artifact.fingerprint) :
    Describes records' forgotten canonical version point := by
  cases point with
  | registered result =>
    cases result with
    | error err => trivial
    | ok registration => exact fun hid => (h hid).mono hrows
  | _ => exact h

theorem describes_other (hnone : point.target = none)
    (hfailed : ∀ registration, point ≠ .registered (.ok registration)) :
    Describes records forgotten canonical version point := by
  cases point with
  | opening | parsing | observing | identifying | inserting => cases hnone
  | registered result =>
    cases result with
    | error err => trivial
    | ok registration => exact absurd rfl (hfailed registration)
  | _ => trivial

theorem Keepable.stored (h : Keepable canonical version) : canonical.stored = canonical := by
  obtain ⟨text, htext⟩ := Option.isSome_iff_exists.mp h.text
  exact PathBuf.stored_of_text htext

theorem Keepable.fingerprint (h : Keepable canonical version) :
    (ArtifactFingerprint.observe version).stored = .observe version :=
  ArtifactFingerprint.stored_eq_iff.mpr h.fits

/-- The row that a registration has found. -/
theorem Record.Of.loads {record : Record} (hparsed : store.Parsed) (h : record.Of version)
    (hkeepable : Keepable canonical version) (hfind : store.findByPath canonical = some record) :
    Loads store.records canonical version record.artifact := by
  obtain ⟨hrecord, hpath⟩ := List.mem_filter.mp (findByPath_mem hfind)
  obtain ⟨header, ⟨rest, hparse⟩, hmetadata⟩ := hparsed.rows record hrecord
  rw [h.bytes] at hparse
  have hobserve : ArtifactFingerprint.observe record.parsed = .observe version := by
    simp only [ArtifactFingerprint.observe, h.bytes, h.modified]
  constructor
  case row =>
    refine ⟨record, hrecord, rfl, ?_, ?_⟩
    · rw [← hkeepable.stored]
      simpa using hpath
    · rw [h.faithful, hobserve, hkeepable.fingerprint]
  case metadata =>
    refine ⟨header, ⟨rest, hparse⟩, ?_⟩
    rw [hmetadata, (fromHeader_stored_iff hparse).mpr (h.storable header ⟨rest, hparse⟩)]

/-- The row that a registration has added. -/
theorem Loads.inserted {record : Record}
    (hkeepable : Keepable canonical version) (hpath : artifact.path = canonical)
    (hsize : artifact.sizeBytes = artifact.fingerprint.sizeBytes)
    (hfingerprint : artifact.fingerprint = .observe version)
    (hmetadata : ∃ header, version.Holds header ∧ artifact.metadata = .fromHeader header)
    (hrecord : record ∈ records) (hstored : record.artifact = artifact.stored) :
    Loads records canonical version artifact := by
  refine ⟨⟨record, hrecord, ?_, ?_, ?_⟩, hmetadata⟩
  · rw [hstored]
    rfl
  · rw [hstored]
    show artifact.path.stored = canonical
    rw [hpath, hkeepable.stored]
  · rw [hstored, ← hkeepable.fingerprint, ← hfingerprint]
    show ArtifactFingerprint.mk _ _ = _
    rw [hsize]
    rfl

namespace Chronicle

/-- Of every registration whose file lasts. -/
def Known (store : Store) (chronicle : Chronicle) : Prop :=
  ∀ call canonical version, Lasts store chronicle call canonical version →
    Describes store.records (chronicle.forgotten call) canonical version (store.calls call)

theorem Lasts.path {path : PathBuf} (h : Lasts store chronicle call canonical version)
    (hsound : Sound store chronicle) (hpoint : store.calls call = point)
    (htarget : point.target = some path) : path = canonical := by
  have hpath := hsound.targets call path (by rw [hpoint, htarget])
  rw [h.target] at hpath
  exact (Option.some.inj hpath).symm

/-- A registration goes on with the one version that is at its path. -/
theorem describes_moved {s : Audit × Chronicle} (hsound : Sound s.1.store s.2)
    (hparsed : s.1.store.Parsed) (h : Known s.1.store s.2)
    (hsuits : Suits s (.registry (.call call answer)))
    (hmoves : Moves s.1.store (s.1.store.calls call) answer point)
    (hlasts : Lasts s.1.store (s.2.answered call answer) call canonical version) :
    Describes s.1.store.records (s.2.forgotten call) canonical version point := by
  generalize hpoint : s.1.store.calls call = before at hmoves
  cases hmoves with
  | inspecting | canonicalizing | finding => trivial
  | found path record hfind =>
    cases Lasts.path hlasts hsound hpoint rfl
    obtain ⟨hkeepable, hrows⟩ := hsuits canonical version hpoint hlasts
    exact fun _ => (hrows record hfind).loads hparsed hkeepable hfind
  | opening path hfind =>
    cases Lasts.path hlasts hsound hpoint rfl
    exact (hsuits canonical version hpoint hlasts).1
  | parsing path opened hopened =>
    cases Lasts.path hlasts hsound hpoint rfl
    have hkeepable := h call canonical version hlasts
    rw [hpoint] at hkeepable
    rw [hlasts.file] at hopened
    cases hopened
    exact ⟨hkeepable, rfl⟩
  | observing path opened header rest hparse =>
    have hopened := h call canonical version hlasts
    rw [hpoint] at hopened
    exact hopened
  | identifying path opened current header hcurrent =>
    cases Lasts.path hlasts hsound hpoint rfl
    obtain ⟨hkeepable, hopened⟩ : Keepable canonical version ∧ opened = version := by
      have hopened := h call canonical version hlasts
      rwa [hpoint] at hopened
    rw [hlasts.file] at hcurrent
    cases hcurrent
    exact ⟨hkeepable, hopened, rfl⟩
  | inserting path opened header fingerprint bytes now =>
    have hopened := h call canonical version hlasts
    rw [hpoint] at hopened
    exact hopened
  | other _ _ _ hnone hfailed => exact describes_other hnone hfailed

theorem Known.moved {s : Audit × Chronicle} (h : Known s.1.store s.2)
    (hsound : Sound s.1.store s.2) (hparsed : s.1.store.Parsed)
    (hsuits : Suits s (.registry (.call call answer)))
    (hmoves : Moves s.1.store (s.1.store.calls call) answer point) :
    Known (s.1.store.set call point) (s.2.answered call answer) := by
  intro other canonical version hlasts
  replace hlasts : Lasts s.1.store (s.2.answered call answer) other canonical version :=
    ⟨hlasts.target, hlasts.untouched, hlasts.file⟩
  rw [answered_forgotten, calls_set]
  by_cases hother : other = call
  · subst hother
    rw [if_pos rfl]
    exact describes_moved hsound hparsed h hsuits hmoves hlasts
  · rw [if_neg hother]
    obtain ⟨hcanonical, huntouched, hfile⟩ := hlasts
    rw [answered_other _ _ hother] at hcanonical
    rw [answered_touched] at huntouched
    exact h other canonical version ⟨hcanonical, huntouched, hfile⟩

theorem Known.refused (h : Known store chronicle) (err : RegistryError) :
    Known (store.set call (.registered (.error err))) chronicle := by
  intro other canonical version hlasts
  rw [calls_set]
  split
  · trivial
  · exact h other canonical version ⟨hlasts.target, hlasts.untouched, hlasts.file⟩

theorem Known.inserted {grown : Store} (h : Known store chronicle) (hsound : Sound store chronicle)
    (hparsed : store.Parsed) (hpoint : store.calls call = .inserting artifact version)
    (hinsert : store.insert artifact version = .ok grown) :
    Known (grown.set call (.registered (.ok (.registered artifact))))
      { chronicle with
        registered := Function.update chronicle.registered artifact.id (some artifact) } := by
  obtain ⟨-, -, rfl⟩ := insert_ok hinsert
  intro other canonical current hlasts
  replace hlasts : Lasts store chronicle other canonical current :=
    ⟨hlasts.target, hlasts.untouched, hlasts.file⟩
  have hknown := h other canonical current hlasts
  rw [calls_set]
  by_cases hother : other = call
  · subst hother
    rw [if_pos rfl]
    intro _
    have hpath := hlasts.path hsound hpoint rfl
    have hmetadata := hparsed.calls other
    rw [hpoint] at hknown hmetadata
    obtain ⟨hkeepable, rfl, hfingerprint⟩ := hknown
    exact .inserted hkeepable hpath (hsound.sized other artifact version hpoint) hfingerprint
      hmetadata List.mem_cons_self rfl
  · rw [if_neg hother]
    exact hknown.mono fun record hrecord =>
      ⟨record, List.mem_cons_of_mem _ hrecord, rfl, rfl, rfl⟩

theorem Known.forgot (h : Known store chronicle) (id : String) :
    Known { store with records := store.records.filter fun record => record.artifact.id ≠ id }
      (chronicle.forget store.calls id) := by
  intro call canonical version hlasts
  have hknown := h call canonical version ⟨hlasts.target, hlasts.untouched, hlasts.file⟩
  show Describes _ _ _ _ (store.calls call)
  cases hpoint : store.calls call with
  | registered result =>
    rw [forget_forgotten hpoint]
    rw [hpoint] at hknown
    cases result with
    | error err => trivial
    | ok registration =>
      intro hforgotten
      obtain ⟨hne, hforgotten⟩ := not_or.mp (List.mem_cons.not.mp hforgotten)
      obtain ⟨⟨record, hrecord, hid, hrow⟩, hmetadata⟩ := hknown hforgotten
      refine ⟨⟨record, List.mem_filter.mpr ⟨hrecord, ?_⟩, hid, hrow⟩, hmetadata⟩
      simpa [hid] using hne
  | _ =>
    rw [hpoint] at hknown
    exact hknown

theorem Known.touched {path : PathBuf} {files : PathBuf → Option Version} {serials : ℕ}
    (h : Known store chronicle) (hfiles : ∀ other, other ≠ path → files other = store.files other) :
    Known { store with files, serials } (chronicle.touch store.calls path) := by
  intro call canonical version hlasts
  obtain ⟨hcanonical, huntouched, hfile⟩ := hlasts
  show Describes _ _ _ _ (store.calls call)
  by_cases hidle : store.calls call = .idle
  · rw [hidle]
    trivial
  · have htouched : (chronicle.touch store.calls path).touched call =
        path :: chronicle.touched call := by
      simp only [touch]
    rw [htouched] at huntouched
    obtain ⟨hne, huntouched⟩ := not_or.mp (List.mem_cons.not.mp huntouched)
    exact h call canonical version ⟨hcanonical, huntouched, (hfiles canonical hne).symm.trans hfile⟩

theorem Known.updated (h : Known store chronicle) (id : String) (digest : List UInt8) :
    Known (store.update id digest) chronicle := by
  intro call canonical version hlasts
  have hknown := h call canonical version ⟨hlasts.target, hlasts.untouched, hlasts.file⟩
  refine hknown.mono fun record hrecord => ?_
  obtain ⟨record', hrecord', hid, hpath, -, hfingerprint, -⟩ := update_keeps hrecord
  exact ⟨record', hrecord', hid, hpath, hfingerprint⟩

theorem Known.step {s s' : Audit × Chronicle} {action : AuditAction} (h : Known s.1.store s.2)
    (hsound : Sound s.1.store s.2) (hparsed : s.1.store.Parsed) (hsuits : Suits s action)
    (hstep : (system sha256).step s action = some s') : Known s'.1.store s'.2 := by
  obtain ⟨audit', chronicle'⟩ := s'
  have heffect := step_effect hstep
  generalize audit'.store = store' at heffect ⊢
  cases heffect with
  | moved call answer point hmoves => exact h.moved hsound hparsed hsuits hmoves
  | refused call failure err => exact h.refused _
  | inserted call artifact version grown hpoint hinsert =>
    exact h.inserted hsound hparsed hpoint hinsert
  | forgotten id => exact h.forgot id
  | touched action path files serials hfiles => exact h.touched hfiles
  | updated _ id digest => exact h.updated id digest
  | kept => exact h

theorem known_init {s : Audit × Chronicle} (h : (system sha256).init s) :
    s.1.store.Parsed ∧ Known s.1.store s.2 := by
  obtain ⟨⟨⟨hrecords, hcalls, -⟩, -⟩, -⟩ := h
  refine ⟨⟨?_, ?_⟩, ?_⟩
  · intro record hrecord
    rw [hrecords] at hrecord
    cases hrecord
  · intro call
    rw [hcalls]
    trivial
  · intro call canonical version _
    rw [hcalls]
    trivial

/-- Registrations make their files loadable as long as no row is found of other content. -/
theorem register_loadable {s : Audit × Chronicle}
    (h : ReachableWhile (system sha256) Suits s) : Loadable s := by
  have hknown : s.1.store.Parsed ∧ Known s.1.store s.2 :=
    h.invariant (I := fun s => s.1.store.Parsed ∧ Known s.1.store s.2) (fun _ => known_init)
      fun _ _ _ hs hinv hsuits hstep => ⟨hinv.1.step hstep,
        hinv.2.step (sound_reachable hs.reachable) hinv.1 hsuits hstep⟩
  intro call canonical artifact version hreturned hlasts hforgotten
  obtain ⟨-, registration, hcall, rfl⟩ := hreturned
  have hloads := hknown.2 call canonical version hlasts
  rw [hcall] at hloads
  obtain ⟨⟨record, hrecord, hid, hpath, hfingerprint⟩, hmetadata⟩ := hloads hforgotten
  refine ⟨?_, hmetadata⟩
  have hget := (sound_reachable h.reachable).keyed.get_eq hrecord
  rw [hid] at hget
  have hcurrent : s.1.store.current canonical = .ok version := by
    rw [Store.current, hlasts.file]
  rw [Store.check, hget]
  show Except.ok (detectDrift record.artifact _) = _
  rw [hpath, hcurrent]
  have hsame : (ArtifactFingerprint.observe version).modifiedAt.isSome =
      record.artifact.fingerprint.modifiedAt.isSome := by rw [hfingerprint]
  rcases detectDrift_ok record.artifact hsame with ⟨hdrift, -⟩ | ⟨-, hother⟩
  · exact congrArg Except.ok hdrift
  · exact absurd hfingerprint.symm hother

/-- A registration that looks up the path of the container, with no row for it. -/
def fresh (s : Audit × Chronicle) : AuditAction → Bool
  | .registry (.call call (.done none)) =>
    match s.1.store.calls call with
    | .finding canonical =>
      canonical = model && s.1.store.files canonical = some containerVersion &&
        (s.1.store.findByPath canonical).isNone
    | _ => true
  | _ => true

theorem keepable_container : Keepable model containerVersion where
  text := by rw [model, Utf8.textOf_bytesOf]; rfl
  fits := by
    have hsize : containerVersion.bytes.length = 24 := rfl
    constructor
    · show (containerVersion.bytes.length : ℤ) ≤ _
      rw [hsize]
      decide
    · intro time htime
      cases htime
      decide

theorem suits_of_fresh (s : Audit × Chronicle) (action : AuditAction) (h : fresh s action = true) :
    Suits s action := by
  unfold Suits
  split
  · intro canonical version hpoint hlasts
    simp only [fresh, hpoint, Bool.and_eq_true, decide_eq_true_eq] at h
    obtain ⟨⟨rfl, hfile⟩, hfind⟩ := h
    rw [hlasts.file] at hfile
    cases hfile
    refine ⟨keepable_container, fun record hrecord => ?_⟩
    rw [hrecord] at hfind
    cases hfind
  · trivial

theorem register_loadable_untouched : ∃ s, ReachableWhile (system Audit.sampleSha256) Suits s ∧
    (∃ artifact, Returned s 0 model artifact ∧ Lasts s.1.store s.2 0 model containerVersion) ∧
    Loadable s := by
  obtain ⟨header, rest, hparse⟩ := container_parses
  have hobserving : ReachableWhile (system Audit.sampleSha256)
      (fun s action => fresh s action = true)
      (observingAt untouched model containerVersion header) :=
    observing_opened ⟨Audit.untouchedAudit_init, rfl⟩ rfl rfl hparse
  obtain ⟨s, hrun, hcanonical, htouched, hfile, hcall⟩ : ∃ s,
      (system Audit.sampleSha256).runWhile fresh
        (observingAt untouched model containerVersion header) (recording 0) = some s ∧
      s.2.canonicals 0 = some model ∧ s.2.touched 0 = [] ∧
      s.1.store.files model = some containerVersion ∧
      s.1.store.calls 0 =
        .registered (.ok (.registered (registeredAt model containerVersion header))) :=
    ⟨_, rfl, rfl, rfl, rfl, rfl⟩
  have hs := (reachableWhile_of_run (fun _ _ h => h) hobserving hrun).mono suits_of_fresh
  refine ⟨s, hs, ⟨_, ⟨hcanonical, _, hcall, rfl⟩, hcanonical, ?_, hfile⟩, register_loadable hs⟩
  rw [htouched]
  exact List.not_mem_nil

/-- Another container, which takes the place of the first. -/
def successor : List UInt8 := (Header.mk 2 0 []).encode

/-- The container that has taken the place of a registered one is registered again: the answer is
the row of the first, and a check says that the file has changed. -/
theorem register_replaced : ¬ ∀ sha256 s, Reachable (system sha256) s → Loadable s := by
  intro hclaim
  obtain ⟨header, rest, hparse⟩ := container_parses
  have hobserving : ReachableWhile (system Audit.sampleSha256)
      (fun _ action => unforgotten action = true)
      (observingAt untouched model containerVersion header) :=
    observing_opened ⟨Audit.untouchedAudit_init, rfl⟩ rfl rfl hparse
  obtain ⟨s, hrun, hcanonical, htouched, hforgotten, hfile, hpoint, hrecords⟩ : ∃ s,
      (system Audit.sampleSha256).run (observingAt untouched model containerVersion header)
        (recording 0 ++ .registry (.replace model successor (some 6)) :: finding 1 model) = some s ∧
      s.2.canonicals 1 = some model ∧ s.2.touched 1 = [] ∧ s.2.forgotten 1 = [] ∧
      s.1.store.files model = some ⟨1, successor, some 6⟩ ∧ s.1.store.calls 1 = .finding model ∧
      s.1.store.records = [⟨(registeredAt model containerVersion header).stored, containerVersion⟩] :=
    ⟨_, rfl, rfl, rfl, rfl, rfl, rfl, rfl⟩
  have hs := reachable_of_run hobserving.reachable hrun
  obtain ⟨audit, chronicle⟩ := s
  have hfind : audit.store.findByPath model =
      some ⟨(registeredAt model containerVersion header).stored, containerVersion⟩ :=
    findByPath_single hrecords rfl
  have hs' := hs.next _ (step_found hpoint hfind)
  obtain ⟨hcheck, -⟩ := hclaim _ _ hs' 1 model _ ⟨1, successor, some 6⟩
    ⟨hcanonical, _, calls_set_self .., rfl⟩
    ⟨hcanonical, by rw [htouched]; exact List.not_mem_nil, hfile⟩
    (by rw [hforgotten]; exact List.not_mem_nil)
  have hget : audit.store.get sampleId =
      some ⟨(registeredAt model containerVersion header).stored, containerVersion⟩ := by
    replace hrecords : audit.store.records = _ := hrecords
    rw [Store.get, hrecords]
    rfl
  have hpath : (registeredAt model containerVersion header).stored.path = model :=
    PathBuf.stored_of_text (Utf8.textOf_bytesOf "/m")
  have hcurrent : audit.store.current model = .ok ⟨1, successor, some 6⟩ := by
    replace hfile : audit.store.files model = _ := hfile
    rw [Store.current, hfile]
  have hdrift : audit.store.check sampleId (fun path => (audit.store.current path).map .observe) =
      .ok (detectDrift (registeredAt model containerVersion header).stored
        (.ok (.observe ⟨1, successor, some 6⟩))) := by
    rw [Store.check, hget]
    show Except.ok (detectDrift _ ((audit.store.current (registeredAt _ _ _).stored.path).map _)) = _
    rw [hpath, hcurrent]
    rfl
  have hchanged := hdrift.symm.trans hcheck
  cases hchanged

end Chronicle
end MehoyRuntime.Registry
