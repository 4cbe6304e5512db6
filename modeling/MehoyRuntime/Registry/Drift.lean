import MehoyRuntime.Registry.Chronicle

/-!
# What a check tells

`check` against what a registration has seen of its file, whatever has become of the file
since. The row is a storable copy of the fingerprint, and the comparison is with the copy.
-/

namespace MehoyRuntime.Registry
open TransitionSystem Filesystem
open MehoyRuntime.Runtime (ArtifactState)

/-- A size and a modification time that the storage keeps as they are. -/
def ArtifactFingerprint.Fits (fingerprint : ArtifactFingerprint) : Prop :=
  (fingerprint.sizeBytes : ℤ) ≤ i64Max ∧
    ∀ time, fingerprint.modifiedAt = some time → 0 ≤ time ∧ time ≤ i64Max

/-- `check`, where looking at a path comes to what `observe` says. -/
def Store.check (store : Store) (id : String)
    (observe : PathBuf → Except Fault ArtifactFingerprint) : Except RegistryError ArtifactState :=
  match store.get id with
  | none => .error (.unknownArtifact id)
  | some record => .ok (detectDrift record.artifact (observe record.artifact.path))

/-- A platform reports modification times, or it does not. -/
def Reports (reported : Bool) (observe : PathBuf → Except Fault ArtifactFingerprint) : Prop :=
  ∀ path current, observe path = .ok current → current.modifiedAt.isSome = reported

/-- The file is missing when it cannot be observed, unchanged when its size and its
modification time are those that its registration has seen, and changed otherwise. -/
def ExactDrift (artifact : ModelArtifact) (observe : PathBuf → Except Fault ArtifactFingerprint)
    (result : Except RegistryError ArtifactState) : Prop :=
  match observe artifact.path with
  | .error _ => result = .ok .missing
  | .ok current =>
    if current = artifact.fingerprint then result = .ok .unchanged
    else ∃ reason, result = .ok (.changed reason)

variable {sha256 : List UInt8 → List UInt8} {store : Store}

/-! ### A fingerprint against its copy -/

theorem ArtifactFingerprint.stored_eq_iff {fingerprint : ArtifactFingerprint} :
    fingerprint.stored = fingerprint ↔ fingerprint.Fits := by
  obtain ⟨size, modified⟩ := fingerprint
  simp only [ArtifactFingerprint.stored, ArtifactFingerprint.mk.injEq, fromSigned_toSigned_iff,
    ArtifactFingerprint.Fits]
  refine and_congr Iff.rfl ?_
  cases modified with
  | none => simp
  | some time => simp [fromEpochNanos_toEpochNanos_iff]

/-- Where the platform reports both times or neither, the comparison is that of the fields. -/
theorem detectDrift_ok (artifact : ModelArtifact) {current : ArtifactFingerprint}
    (h : current.modifiedAt.isSome = artifact.fingerprint.modifiedAt.isSome) :
    (detectDrift artifact (.ok current) = .unchanged ∧ current = artifact.fingerprint) ∨
      ((∃ reason, detectDrift artifact (.ok current) = .changed reason) ∧
        current ≠ artifact.fingerprint) := by
  unfold detectDrift
  generalize artifact.fingerprint = before at h ⊢
  obtain ⟨size, modified⟩ := current
  obtain ⟨sizeBefore, modifiedBefore⟩ := before
  by_cases hsize : size = sizeBefore
  · subst hsize
    cases modified with
    | none =>
      have hnone : modifiedBefore = none := by simpa using h.symm
      subst hnone
      exact .inl ⟨by simp, rfl⟩
    | some now =>
      obtain ⟨time, rfl⟩ := Option.isSome_iff_exists.mp h.symm
      by_cases htime : now = time
      · subst htime
        exact .inl ⟨by simp, rfl⟩
      · refine .inr ⟨⟨"modification time has changed since registration", by simp [htime]⟩, ?_⟩
        simp [htime]
  · refine .inr ⟨?_, by simp [hsize]⟩
    simp only [ne_eq, hsize, not_false_eq_true, if_true]
    exact ⟨_, rfl⟩

/-! ### A check against the file -/

namespace Chronicle
variable {s : Audit × Chronicle}

theorem registered_row (h : Reachable (system sha256) s) {id : String} {artifact : ModelArtifact}
    (hregistered : s.2.registered id = some artifact) :
    ∃ record, s.1.store.get id = some record ∧ record.artifact.path = artifact.path.stored ∧
      record.artifact.fingerprint = artifact.fingerprint.stored := by
  have hsound := sound_reachable h
  obtain ⟨record, hrecord, rfl⟩ := hsound.kept id artifact hregistered
  obtain ⟨artifact', hregistered', hkeeps, hsize⟩ := hsound.rows record hrecord
  rw [hregistered] at hregistered'
  cases hregistered'
  refine ⟨record, hsound.keyed.get_eq hrecord, ?_, ?_⟩
  · rw [hkeeps]
    rfl
  · rw [hkeeps]
    show ArtifactFingerprint.mk _ _ = _
    rw [hsize]
    rfl

/-- A check is exact, whatever has become of the file, when the path of the file is text and
its size and its modification time fit into the row. -/
theorem check_exact_iff (h : Reachable (system sha256) s) {id : String} {artifact : ModelArtifact}
    (hregistered : s.2.registered id = some artifact) :
    (∀ observe, Reports artifact.fingerprint.modifiedAt.isSome observe →
      ExactDrift artifact observe (s.1.store.check id observe)) ↔
    (Utf8.textOf artifact.path).isSome ∧ artifact.fingerprint.Fits := by
  obtain ⟨record, hget, hpath, hfingerprint⟩ := registered_row h hregistered
  have hcheck : ∀ observe, s.1.store.check id observe =
      .ok (detectDrift record.artifact (observe artifact.path.stored)) := by
    intro observe
    rw [Store.check, hget, ← hpath]
  have hreported : record.artifact.fingerprint.modifiedAt.isSome =
      artifact.fingerprint.modifiedAt.isSome := by
    rw [hfingerprint]
    exact Option.isSome_map ..
  constructor
  · intro hexact
    constructor
    · -- The file alone is there, and nobody has touched it.
      by_contra htext
      have hother : artifact.path.stored ≠ artifact.path := fun h => htext (PathBuf.text_of_stored h)
      have hfile := hexact (fun path => if path = artifact.path then .ok artifact.fingerprint
        else .error .notFound) ?_
      · rw [hcheck] at hfile
        simp only [ExactDrift, if_true, hother, if_false, detectDrift] at hfile
        cases hfile
      · intro path current hcurrent
        dsimp only at hcurrent
        split at hcurrent <;> cases hcurrent
        rfl
    · have hfile := hexact (fun _ => .ok artifact.fingerprint) ?_
      · rw [hcheck] at hfile
        simp only [ExactDrift, if_true] at hfile
        rcases detectDrift_ok record.artifact hreported.symm with ⟨-, hsame⟩ | ⟨⟨reason, hchanged⟩, -⟩
        · rw [hfingerprint] at hsame
          exact ArtifactFingerprint.stored_eq_iff.mp hsame.symm
        · rw [hchanged] at hfile
          cases hfile
      · intro path current hcurrent
        cases hcurrent
        rfl
  · rintro ⟨htext, hfits⟩ observe hreports
    obtain ⟨text, htext⟩ := Option.isSome_iff_exists.mp htext
    rw [ArtifactFingerprint.stored_eq_iff.mpr hfits] at hfingerprint
    rw [hcheck, PathBuf.stored_of_text htext]
    unfold ExactDrift
    cases hobserve : observe artifact.path with
    | error fault => rfl
    | ok current =>
      have hboth := (hreports artifact.path current hobserve).trans hreported.symm
      rcases detectDrift_ok record.artifact hboth with ⟨hdrift, hsame⟩ | ⟨⟨reason, hdrift⟩, hother⟩
      · rw [hfingerprint] at hsame
        simp only [hsame, if_true] at hdrift ⊢
        rw [hdrift]
      · rw [hfingerprint] at hother
        simp only [hother, if_false]
        exact ⟨reason, by rw [hdrift]⟩

theorem check_exact_untouched : ∃ s artifact,
    Reachable (system Audit.sampleSha256) s ∧ s.2.registered sampleId = some artifact ∧
    ((∀ observe, Reports artifact.fingerprint.modifiedAt.isSome observe →
      ExactDrift artifact observe (s.1.store.check sampleId observe)) ↔
    (Utf8.textOf artifact.path).isSome ∧ artifact.fingerprint.Fits) := by
  obtain ⟨header, rest, hparse⟩ := container_parses
  have hobserving : ReachableWhile (system Audit.sampleSha256)
      (fun _ action => unforgotten action = true)
      (observingAt untouched model containerVersion header) :=
    observing_opened ⟨Audit.untouchedAudit_init, rfl⟩ rfl rfl hparse
  obtain ⟨s, hrun, hregistered⟩ : ∃ s,
      (system Audit.sampleSha256).run (observingAt untouched model containerVersion header)
        (recording 0) = some s ∧
      s.2.registered sampleId = some (registeredAt model containerVersion header) := ⟨_, rfl, rfl⟩
  have hs := reachable_of_run hobserving.reachable hrun
  exact ⟨s, _, hs, hregistered, check_exact_iff hs hregistered⟩

/-- A second before 1970. -/
def early : Version := ⟨0, container, some (-10 ^ 9)⟩

def earlyFiles : Store where
  files path := if path = model then some early else none
  serials := 1
  records := []
  calls _ := .idle

/-- Its time is stored as the epoch, and the file that has just been registered has changed. -/
theorem check_early :
    ¬ ∀ sha256 s, Reachable (system sha256) s → ∀ id artifact,
      s.2.registered id = some artifact → ∀ observe,
        Reports artifact.fingerprint.modifiedAt.isSome observe →
          ExactDrift artifact observe (s.1.store.check id observe) := by
  intro hclaim
  obtain ⟨header, rest, hparse⟩ := container_parses
  have hinit : (system Audit.sampleSha256).init (⟨earlyFiles, fun _ => .idle, [], []⟩, empty) := by
    refine ⟨⟨⟨rfl, fun _ => rfl, ?_⟩, fun _ => rfl, rfl, rfl⟩, rfl⟩
    intro path version h
    simp only [earlyFiles, Option.ite_none_right_eq_some, Option.some.injEq] at h
    obtain ⟨-, rfl⟩ := h
    exact Nat.zero_lt_one
  have hobserving : ReachableWhile (system Audit.sampleSha256)
      (fun _ action => unforgotten action = true) (observingAt earlyFiles model early header) :=
    observing_opened hinit rfl rfl hparse
  obtain ⟨s, hrun, hregistered, hcheck⟩ : ∃ s,
      (system Audit.sampleSha256).run (observingAt earlyFiles model early header)
        (recording 0) = some s ∧
      s.2.registered sampleId = some (registeredAt model early header) ∧
      s.1.store.check sampleId (fun _ => .ok (.observe early)) =
        .ok (.changed "modification time has changed since registration") := ⟨_, rfl, rfl, rfl⟩
  have hs := reachable_of_run hobserving.reachable hrun
  have hexact := hclaim _ s hs sampleId _ hregistered (fun _ => .ok (.observe early)) ?_
  · rw [hcheck] at hexact
    simp only [ExactDrift, registeredAt, newArtifact, if_true] at hexact
    cases hexact
  · intro path current hcurrent
    cases hcurrent
    rfl

end Chronicle
end MehoyRuntime.Registry
