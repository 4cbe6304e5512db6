import MehoyRuntime.Registry.Chronicle
import MehoyRuntime.Runtime.Accounting

/-!
# What a load is accounted at

Loads against a registry that others register, verify and forget in, while the files are
replaced. A load reads its record twice: to be sized, before it reserves, and to be
resolved, when the file is compared with the second record.
-/

namespace MehoyRuntime.Registry
open TransitionSystem

def Store.found (store : Store) (id : String) (failure : Option String) :
    Except String (Option Runtime.ModelArtifact) :=
  (queried (store.get id) failure).map (Option.map fun record => record.artifact.loaded)

/-- A row has one size, which is read back both as the size of the artifact and as that of its
fingerprint. -/
def Record.Sized (record : Record) : Prop :=
  record.artifact.fingerprint.sizeBytes = record.artifact.sizeBytes ∧
    (record.artifact.sizeBytes : ℤ) ≤ i64Max

variable {sha256 : List UInt8 → List UInt8} {audit audit' : Audit} {action : AuditAction}

theorem found_ok {store : Store} {id : String} {failure : Option String}
    {artifact : Runtime.ModelArtifact} (h : store.found id failure = .ok (some artifact)) :
    ∃ record, store.get id = some record ∧ artifact = record.artifact.loaded := by
  cases failure with
  | some err => cases h
  | none =>
    cases hget : store.get id with
    | none => simp [Store.found, queried, hget, Except.map] at h
    | some record =>
      simp only [Store.found, queried, hget, Except.map, Option.map_some, Except.ok.injEq,
        Option.some.injEq] at h
      exact ⟨record, rfl, h.symm⟩

/-- Nothing changes the size under an identifier: a row is there with it, or it is inserted. -/
theorem Audit.step_row (h : audit.step sha256 action = some audit') {record' : Record}
    (hrecord' : record' ∈ audit'.store.records) :
    (∃ record ∈ audit.store.records, record.artifact.id = record'.artifact.id ∧
      record.artifact.sizeBytes = record'.artifact.sizeBytes ∧
      record.artifact.fingerprint = record'.artifact.fingerprint) ∨
    ∃ call artifact version grown, action = .registry (.call call (.done none)) ∧
      audit.store.calls call = .inserting artifact version ∧
      audit.store.insert artifact version = .ok grown ∧ record' = ⟨artifact.stored, version⟩ := by
  have hkept (hmem : record' ∈ audit.store.records) : ∃ record ∈ audit.store.records,
      record.artifact.id = record'.artifact.id ∧
      record.artifact.sizeBytes = record'.artifact.sizeBytes ∧
      record.artifact.fingerprint = record'.artifact.fingerprint := ⟨record', hmem, rfl, rfl, rfl⟩
  have heffect := Audit.step_effect h
  generalize audit'.store = store' at heffect hrecord'
  generalize Chronicle.empty.note audit action = noted at heffect
  cases heffect with
  | moved | refused | touched | kept => exact .inl (hkept hrecord')
  | forgotten id => exact .inl (hkept (List.mem_filter.mp hrecord').1)
  | inserted call artifact version grown hpoint hinsert =>
    obtain ⟨-, -, rfl⟩ := insert_ok hinsert
    rcases List.mem_cons.mp hrecord' with rfl | hmem
    · exact .inr ⟨call, artifact, version, _, rfl, hpoint, hinsert, rfl⟩
    · exact .inl (hkept hmem)
  | updated _ id digest =>
    obtain ⟨record, hrecord, hid, -, hfingerprint, heq⟩ := Audit.update_mem hrecord'
    refine .inl ⟨record, hrecord, hid, ?_, hfingerprint⟩
    rw [heq]
    split <;> rfl

theorem keyed_reachable (h : Reachable (Audit.system sha256) audit) : audit.store.Keyed := by
  obtain ⟨chronicle, hrecorded⟩ := Chronicle.reachable_iff.mp h
  exact (Chronicle.sound_reachable hrecorded).keyed

/-- The size is clamped before it is stored, and it is stored once. -/
theorem sized_reachable (h : Reachable (Audit.system sha256) audit) {record : Record}
    (hrecord : record ∈ audit.store.records) : record.Sized := by
  obtain ⟨chronicle, hrecorded⟩ := Chronicle.reachable_iff.mp h
  obtain ⟨artifact, -, hkeeps, -⟩ := (Chronicle.sound_reachable hrecorded).rows record hrecord
  rw [Record.Sized, hkeeps]
  refine ⟨rfl, ?_⟩
  show ((fromSigned (toSigned artifact.sizeBytes) : ℕ) : ℤ) ≤ i64Max
  unfold fromSigned toSigned i64Max
  omega

/-- A file that is let through has the size of the row, whatever the row was made of. -/
theorem detectDrift_size {artifact : ModelArtifact} {current : ArtifactFingerprint}
    (h : detectDrift artifact (.ok current) = .unchanged) :
    current.sizeBytes = artifact.fingerprint.sizeBytes := by
  by_contra hne
  simp [detectDrift, hne] at h

end MehoyRuntime.Registry

namespace MehoyRuntime.Runtime
open MehoyRuntime.Core MehoyRuntime.Stream TransitionSystem Filesystem RuntimeState
open MehoyRuntime.Registry (Audit AuditAction Record Version Store queried detectDrift i64Max
  ArtifactFingerprint)

/-- The runtime beside a registry that others use too. `resolving` is the record that the
resolve of a load has read, until the file is looked at; `passed`, which is read by statements
only, is the version of the file that the drift check of the load has let through. -/
structure Host where
  runtime : RuntimeState
  audit : Audit
  resolving : ℕ → Option Record
  passed : ℕ → Option Version

inductive HostAction
  | registry (action : AuditAction)
  | runtime (action : RuntimeAction)
  | size (load : ℕ) (failure : Option String)
  | get (load : ℕ) (failure : Option String)
  | check (load : ℕ) (failure incompatible : Option String)

/-- The steps of a load whose answer comes from the registry. -/
def RuntimeAction.asks : RuntimeAction → Bool
  | .stepLoad _ (.size _) | .stepLoad _ (.prepare _ _ _) => true
  | _ => false

/-- The version that has been let through, if any has. -/
def passing (id : String) (record : Record) (current : Except Fault Version) : Option Version :=
  match resolve id (.ok (some record.artifact.loaded))
      (detectDrift record.artifact (current.map .observe)), current with
  | .ok _, .ok version => some version
  | _, _ => none

namespace Host
variable (ext : Externals) (sha256 : List UInt8 → List UInt8)

def stepLoad (host : Host) (j : ℕ) (action : LoadAction) : Option Host :=
  (host.runtime.stepLoad ext j action).map fun runtime => { host with runtime }

def step (host : Host) : HostAction → Option Host
  | .registry action => (host.audit.step sha256 action).map fun audit => { host with audit }
  | .runtime action =>
    if action.asks then none
    else (host.runtime.step ext action).map fun runtime => { host with runtime }
  | .size j failure =>
    (host.runtime.loads[j]?).bind fun call =>
      host.stepLoad ext j (.size (host.audit.store.found call.artifact failure))
  | .get j failure =>
    (host.runtime.loads[j]?).bind fun call =>
      if call.pc = .preparing ∧ host.resolving j = none then
        match queried (host.audit.store.get call.artifact) failure with
        | .ok (some record) =>
          some { host with resolving := Function.update host.resolving j (some record) }
        | _ =>
          -- Without a record there is no file to look at.
          host.stepLoad ext j (.prepare (host.audit.store.found call.artifact failure) .missing none)
      else none
  | .check j failure incompatible =>
    (host.runtime.loads[j]?).bind fun call =>
      (host.resolving j).bind fun record =>
        let current := attempt (host.audit.store.current record.artifact.path) failure
        ({ host with
            resolving := Function.update host.resolving j none
            passed := Function.update host.passed j (passing call.artifact record current) }).stepLoad
          ext j (.prepare (.ok (some record.artifact.loaded))
            (detectDrift record.artifact (current.map .observe)) incompatible)

end Host

def hostSystem (ext : Externals) (sha256 : List UInt8 → List UInt8) : System Host HostAction where
  init host := (runtimeSystem ext).init host.runtime ∧ (Audit.system sha256).init host.audit ∧
    (∀ j, host.resolving j = none) ∧ ∀ j, host.passed j = none
  step := Host.step ext sha256

/-- A load that has been sized and not been resolved. -/
def LoadCall.sized (call : LoadCall) : Bool :=
  match call.pc with
  | .reserving _ | .preparing => true
  | _ => false

/-- A load between its two reads of the record. -/
def Host.between (host : Host) (j : ℕ) (call : LoadCall) : Prop :=
  host.runtime.loads[j]? = some call ∧ call.sized = true ∧ host.resolving j = none

/-- No row comes under an identifier that a load has read once and will read again. -/
def Undrawn (host : Host) : HostAction → Prop
  | .registry (.registry (.call call (.done none))) =>
    ∀ artifact version grown, host.audit.store.calls call = .inserting artifact version →
      host.audit.store.insert artifact version = .ok grown →
      ∀ j load, host.between j load → artifact.id ≠ load.artifact
  | _ => True

/-- The load has been sized at the version, it holds its claim as long as it is under way, and
what it has claimed is that size. -/
structure LoadCall.Accounted (call : LoadCall) (version : Version) : Prop where
  guard : call.Guard call.pc
  size : ∃ footprint, call.footprint = some footprint ∧
    footprint.weightBytes.toNat = version.bytes.length ∧
    ∀ claim, call.reserved = some claim → claim.2 = footprint

variable {ext : Externals} {sha256 : List UInt8 → List UInt8} {s s' : RuntimeState}
  {host host' : Host} {j : ℕ} {call call' : LoadCall}

/-! ### The parts by themselves -/

theorem stepLoad_parts {a : LoadAction} (h : host.stepLoad ext j a = some host') :
    (runtimeSystem ext).step host.runtime (.stepLoad j a) = some host'.runtime ∧
      host'.audit = host.audit := by
  obtain ⟨runtime, hruntime, rfl⟩ := Option.map_eq_some_iff.mp h
  exact ⟨hruntime, rfl⟩

theorem step_parts {action : HostAction} (h : host.step ext sha256 action = some host') :
    (host'.runtime = host.runtime ∨
      ∃ b, (runtimeSystem ext).step host.runtime b = some host'.runtime) ∧
    (host'.audit = host.audit ∨
      ∃ b, (Audit.system sha256).step host.audit b = some host'.audit) := by
  cases action with
  | registry action =>
    obtain ⟨audit, haudit, rfl⟩ := Option.map_eq_some_iff.mp h
    exact ⟨.inl rfl, .inr ⟨action, haudit⟩⟩
  | runtime action =>
    simp only [Host.step] at h
    split at h
    · cases h
    · obtain ⟨runtime, hruntime, rfl⟩ := Option.map_eq_some_iff.mp h
      exact ⟨.inr ⟨action, hruntime⟩, .inl rfl⟩
  | size j failure =>
    obtain ⟨call, hj, hcall⟩ := Option.bind_eq_some_iff.mp h
    obtain ⟨hruntime, haudit⟩ := stepLoad_parts hcall
    exact ⟨.inr ⟨_, hruntime⟩, .inl haudit⟩
  | get j failure =>
    obtain ⟨call, hj, hcall⟩ := Option.bind_eq_some_iff.mp h
    split at hcall
    · split at hcall
      · cases hcall
        exact ⟨.inl rfl, .inl rfl⟩
      · obtain ⟨hruntime, haudit⟩ := stepLoad_parts hcall
        exact ⟨.inr ⟨_, hruntime⟩, .inl haudit⟩
    · cases hcall
  | check j failure incompatible =>
    obtain ⟨call, hj, hcall⟩ := Option.bind_eq_some_iff.mp h
    obtain ⟨record, hrecord, hcheck⟩ := Option.bind_eq_some_iff.mp hcall
    obtain ⟨hruntime, haudit⟩ := stepLoad_parts hcheck
    exact ⟨.inr ⟨_, hruntime⟩, .inl haudit⟩

/-- Beside each other, the runtime and the registry are in states that they reach alone. -/
theorem parts_reachable {ok : Host → HostAction → Prop}
    (h : ReachableWhile (hostSystem ext sha256) ok host) :
    Reachable (runtimeSystem ext) host.runtime ∧ Reachable (Audit.system sha256) host.audit := by
  induction h with
  | init hinit => exact ⟨.init hinit.1, .init hinit.2.1⟩
  | step _ _ hstep ih =>
    obtain ⟨hruntime, haudit⟩ := step_parts hstep
    constructor
    · rcases hruntime with hsame | ⟨b, hb⟩
      · rw [hsame]
        exact ih.1
      · exact ih.1.next b hb
    · rcases haudit with hsame | ⟨b, hb⟩
      · rw [hsame]
        exact ih.2
      · exact ih.2.next b hb

/-! ### What a step does to the loads -/

/-- A load keeps what it was asked for and what it has been sized at, and it neither begins
again nor becomes sized. -/
structure LoadCall.Goes (call call' : LoadCall) : Prop where
  artifact : call'.artifact = call.artifact
  footprint : call'.footprint = call.footprint
  sized : call'.sized = true → call.sized = true
  sizing : call'.pc = .sizing → call.pc = .sizing

theorem LoadCall.Goes.past {pc : LoadPc} (hartifact : call'.artifact = call.artifact)
    (hfootprint : call'.footprint = call.footprint) (hsized : (call'.goto pc).sized = false)
    (hpc : pc ≠ .sizing) : call.Goes (call'.goto pc) where
  artifact := hartifact
  footprint := hfootprint
  sized h := absurd h (by simp [hsized])
  sizing h := absurd h hpc

theorem LoadStep.goes {b : LoadAction} (h : LoadStep ext s j call b s')
    (hasks : (RuntimeAction.stepLoad j b).asks = false) :
    ∃ call', s'.loads = s.loads.set j call' ∧ call.Goes call' := by
  cases h with
  | refused hpc => exact ⟨_, rfl, .past rfl rfl rfl (by simp)⟩
  | reserved hpc =>
    have hsized : call.sized = true := by rw [LoadCall.sized, hpc]
    exact ⟨_, rfl, rfl, rfl, fun _ => hsized, by simp [LoadCall.goto]⟩
  | built hpc => exact ⟨_, rfl, .past rfl rfl rfl (by simp)⟩
  | @fulfilled m model claim id ledger hpc hm hclaim hfulfil =>
    refine ⟨call.settled.goto (.returned (.ok id)), ?_, .past rfl rfl rfl (by simp)⟩
    rw [publish_frame]
    rfl
  | rejected hpc => exact ⟨_, rfl, .past rfl rfl rfl (by simp)⟩
  | teardown hpc hact =>
    rw [act_frame hact]
    exact ⟨_, rfl, .past rfl rfl rfl (by simp)⟩
  | torn hpc hover hend =>
    rcases hend with ⟨err, rfl⟩ | rfl
    · exact ⟨_, rfl, .past rfl rfl rfl (by simp)⟩
    · exact ⟨_, rfl, .past rfl rfl rfl (by simp)⟩
  | abandoned hpc hact =>
    rw [act_frame hact]
    exact ⟨_, rfl, .past rfl rfl rfl (by simp)⟩
  | @released result hpc =>
    cases result with
    | none => exact ⟨_, rfl, .past rfl rfl rfl (by simp [endPc])⟩
    | some err => exact ⟨_, rfl, .past rfl rfl rfl (by simp [endPc])⟩
  | inside hnext =>
    refine ⟨_, rfl, ?_⟩
    cases LoadCall.next_cases hnext with
    | unsized | sized | unresolved | incompatible | prepared => cases hasks
    | @terminated _ result hpc => cases result <;> exact .past rfl rfl rfl (by simp)
    | @shutDown _ result hpc | @rolledBack _ result hpc =>
      cases result <;> exact .past rfl rfl rfl (by simp)
    | _ => exact .past rfl rfl rfl (by simp)

inductive LoadsStep (s s' : RuntimeState) : Prop
  | same (hloads : s'.loads = s.loads)
  | begun (artifact : String) (hloads : s'.loads = s.loads ++ [.new artifact])
  | moved (j : ℕ) (call call' : LoadCall) (hj : s.loads[j]? = some call)
      (hloads : s'.loads = s.loads.set j call') (hgoes : call.Goes call')

theorem loads_step {a : RuntimeAction} (h : RuntimeState.step ext s a = some s')
    (hasks : a.asks = false) : LoadsStep s s' := by
  cases step_cases h with
  | load artifact => exact .begun artifact rfl
  | unloadWithin id drain => exact .same rfl
  | ofLoad hj hstep =>
    obtain ⟨call', hloads, hgoes⟩ := hstep.goes hasks
    exact .moved _ _ call' hj hloads hgoes
  | ofUnload hj hstep => exact .same hstep.loads
  | ofModel htaken hfree hact => exact .same (act_loads hact)

/-- The first read: the load is refused, or it is sized at the record. -/
theorem stepLoad_size {found : Except String (Option ModelArtifact)}
    (h : s.stepLoad ext j (.size found) = some s') :
    ∃ call call', s.loads[j]? = some call ∧ s' = s.setLoad j call' ∧ call.pc = .sizing ∧
      call'.pc ≠ .sizing ∧
      (call'.sized = true → call'.artifact = call.artifact ∧ ∃ record, found = .ok (some record) ∧
        call'.footprint = some (.fromContainerSize record.sizeBytes)) := by
  obtain ⟨call, hj, hstep⟩ := stepLoad_cases h
  cases hstep with
  | inside hnext =>
    cases LoadCall.next_cases hnext with
    | unsized hpc =>
      refine ⟨call, _, hj, rfl, hpc, by simp [LoadCall.goto], fun hsized => ?_⟩
      cases hsized
    | sized hpc hsize =>
      refine ⟨call, _, hj, rfl, hpc, by simp [LoadCall.goto], fun _ => ⟨rfl, ?_⟩⟩
      unfold declaredFootprint at hsize
      split at hsize
      · cases hsize
      · cases hsize
      · cases hsize
        exact ⟨_, rfl, rfl⟩

/-- The second read: whatever comes of it, the load keeps the size of the first. -/
theorem stepLoad_prepare {found : Except String (Option ModelArtifact)} {drift : ArtifactState}
    {incompatible : Option String}
    (h : s.stepLoad ext j (.prepare found drift incompatible) = some s') :
    ∃ call call', s.loads[j]? = some call ∧ s' = s.setLoad j call' ∧ call.pc = .preparing ∧
      call'.sized = false ∧ call.Goes call' := by
  obtain ⟨call, hj, hstep⟩ := stepLoad_cases h
  cases hstep with
  | inside hnext =>
    cases LoadCall.next_cases hnext with
    | unresolved hpc | incompatible hpc | prepared hpc =>
      exact ⟨call, _, hj, rfl, hpc, rfl, .past rfl rfl rfl (by simp)⟩

/-! ### What a load carries from its first read on -/

/-- The load has been sized at so many bytes. -/
def RuntimeState.Carries (s : RuntimeState) (j : ℕ) (weight : UInt64) : Prop :=
  ∃ call footprint, s.loads[j]? = some call ∧ call.pc ≠ .sizing ∧ call.footprint = some footprint ∧
    footprint.weightBytes = weight

theorem carries_set {i : ℕ} {weight : UInt64} (h : s.Carries i weight)
    (hj : s.loads[j]? = some call) (hloads : s'.loads = s.loads.set j call')
    (hkeeps : call.pc ≠ .sizing → call'.footprint = call.footprint ∧ call'.pc ≠ .sizing) :
    s'.Carries i weight := by
  obtain ⟨load, footprint, hi, hpc, hfootprint, hweight⟩ := h
  by_cases hsame : i = j
  · subst hsame
    rw [hj] at hi
    cases hi
    obtain ⟨hkept, hlater⟩ := hkeeps hpc
    refine ⟨call', footprint, ?_, hlater, hkept.trans hfootprint, hweight⟩
    rw [hloads]
    exact Slots.get_set_self hj call'
  · refine ⟨load, footprint, ?_, hpc, hfootprint, hweight⟩
    rw [hloads, List.getElem?_set_ne (Ne.symm hsame)]
    exact hi

theorem LoadsStep.carries {weight : UInt64} (h : LoadsStep s s') (hcarries : s.Carries j weight) :
    s'.Carries j weight := by
  cases h with
  | same hloads =>
    obtain ⟨call, footprint, hj, hrest⟩ := hcarries
    exact ⟨call, footprint, hloads ▸ hj, hrest⟩
  | begun artifact hloads =>
    obtain ⟨call, footprint, hj, hrest⟩ := hcarries
    refine ⟨call, footprint, ?_, hrest⟩
    rw [hloads]
    exact Slots.get_push_of_get hj _
  | moved i call call' hi hloads hgoes =>
    exact carries_set hcarries hi hloads fun hpc => ⟨hgoes.footprint, fun h => hpc (hgoes.sizing h)⟩

theorem LoadsStep.sized (h : LoadsStep s s') (hj : s'.loads[j]? = some call')
    (hsized : call'.sized = true) :
    ∃ call, s.loads[j]? = some call ∧ call.sized = true ∧ call'.artifact = call.artifact ∧
      call'.footprint = call.footprint := by
  cases h with
  | same hloads => exact ⟨call', hloads ▸ hj, hsized, rfl, rfl⟩
  | begun artifact hloads =>
    rw [hloads] at hj
    rcases Slots.get_push_cases hj with ⟨-, rfl⟩ | hj
    · cases hsized
    · exact ⟨call', hj, hsized, rfl, rfl⟩
  | moved i call after hi hloads hgoes =>
    rw [hloads] at hj
    rcases Slots.get_set_cases hj with ⟨rfl, rfl⟩ | ⟨-, hj⟩
    · exact ⟨call, hi, hgoes.sized hsized, hgoes.artifact, hgoes.footprint⟩
    · exact ⟨call', hj, hsized, rfl, rfl⟩

/-! ### The invariant -/

/-- A load between its reads has the size of every row of its identifier; a load that has read
its record again has the size of that record; and a load whose file has been let through has
the size of that file. -/
structure Host.Inv (host : Host) : Prop where
  declared : ∀ j call, host.between j call → ∃ footprint, call.footprint = some footprint ∧
    ∀ record ∈ host.audit.store.records, record.artifact.id = call.artifact →
      record.artifact.loaded.sizeBytes = footprint.weightBytes
  resolving : ∀ j record, host.resolving j = some record →
    record.Sized ∧ host.runtime.Carries j record.artifact.loaded.sizeBytes
  passed : ∀ j version, host.passed j = some version →
    (version.bytes.length : ℤ) ≤ i64Max ∧
      host.runtime.Carries j (UInt64.ofNat version.bytes.length)

theorem passing_some {id : String} {record : Record} {current : Except Fault Version}
    {version : Version} (h : passing id record current = some version) (hsized : record.Sized) :
    version.bytes.length = record.artifact.sizeBytes := by
  unfold passing at h
  split at h
  · rename_i hresolve
    cases h
    have hdrift : detectDrift record.artifact (.ok (.observe version)) = .unchanged := by
      unfold resolve at hresolve
      simp only at hresolve
      split at hresolve
      · assumption
      · cases hresolve
      · cases hresolve
    exact (Registry.detectDrift_size hdrift).trans hsized.1
  · cases h

theorem inv_registry {action : AuditAction} {audit : Audit} (hinv : host.Inv)
    (hok : Undrawn host (.registry action)) (hstep : host.audit.step sha256 action = some audit) :
    ({ host with audit } : Host).Inv where
  declared := by
    intro j call hbetween
    obtain ⟨footprint, hfootprint, hrows⟩ := hinv.declared j call hbetween
    refine ⟨footprint, hfootprint, fun record' hrecord' hid => ?_⟩
    rcases Audit.step_row hstep hrecord' with ⟨record, hrecord, hsame, hsize, -⟩ |
      ⟨n, artifact, version, grown, rfl, hpoint, hinsert, rfl⟩
    · have hbefore := hrows record hrecord (hsame.trans hid)
      rw [← hbefore]
      show UInt64.ofNat _ = UInt64.ofNat _
      rw [hsize]
    · exact absurd hid (hok artifact version grown hpoint hinsert j call hbetween)
  resolving := hinv.resolving
  passed := hinv.passed

theorem inv_runtime {runtime : RuntimeState} (hinv : host.Inv)
    (hloads : LoadsStep host.runtime runtime) : ({ host with runtime } : Host).Inv where
  declared := by
    rintro j call' ⟨hj, hsized, hnone⟩
    obtain ⟨call, hbefore, hsizedBefore, hartifact, hfootprint⟩ := hloads.sized hj hsized
    rw [hartifact, hfootprint]
    exact hinv.declared j call ⟨hbefore, hsizedBefore, hnone⟩
  resolving j record hrecord :=
    ⟨(hinv.resolving j record hrecord).1, hloads.carries (hinv.resolving j record hrecord).2⟩
  passed j version hversion :=
    ⟨(hinv.passed j version hversion).1, hloads.carries (hinv.passed j version hversion).2⟩

theorem inv_size {failure : Option String} (hinv : host.Inv) (hkeyed : host.audit.store.Keyed)
    (hj : host.runtime.loads[j]? = some call)
    (hstep : host.stepLoad ext j (.size (host.audit.store.found call.artifact failure)) = some host') :
    host'.Inv := by
  obtain ⟨runtime, hruntime, rfl⟩ := Option.map_eq_some_iff.mp hstep
  obtain ⟨before, call', hbefore, rfl, hpc, hlater, hsized⟩ := stepLoad_size hruntime
  rw [hj] at hbefore
  cases hbefore
  have hcarries {i : ℕ} {weight : UInt64} (h : host.runtime.Carries i weight) :
      (host.runtime.setLoad j call').Carries i weight :=
    carries_set h hj rfl fun hne => absurd hpc hne
  constructor
  case declared =>
    rintro i load ⟨hi, hload, hnone⟩
    rcases Slots.get_set_cases hi with ⟨rfl, rfl⟩ | ⟨-, hi⟩
    · obtain ⟨hartifact, artifact, hfound, hfootprint⟩ := hsized hload
      obtain ⟨record, hget, rfl⟩ := Registry.found_ok hfound
      refine ⟨_, hfootprint, fun other hother hid => ?_⟩
      have hunique : other = record :=
        hkeyed.ids other hother record (Registry.get_mem hget)
          (by rw [hid, hartifact, Registry.get_id hget])
      rw [hunique]
      rfl
    · exact hinv.declared i load ⟨hi, hload, hnone⟩
  case resolving =>
    intro i record hrecord
    exact ⟨(hinv.resolving i record hrecord).1, hcarries (hinv.resolving i record hrecord).2⟩
  case passed =>
    intro i version hversion
    exact ⟨(hinv.passed i version hversion).1, hcarries (hinv.passed i version hversion).2⟩

theorem inv_prepare {found : Except String (Option ModelArtifact)} {drift : ArtifactState}
    {incompatible : Option String} (hinv : host.Inv)
    (hstep : host.stepLoad ext j (.prepare found drift incompatible) = some host') : host'.Inv := by
  obtain ⟨runtime, hruntime, rfl⟩ := Option.map_eq_some_iff.mp hstep
  obtain ⟨before, call', hbefore, rfl, -, -, hgoes⟩ := stepLoad_prepare hruntime
  exact inv_runtime hinv (.moved j before call' hbefore rfl hgoes)

/-- What the load reads again is the row that it has been sized at, if that is still there. -/
theorem inv_get {failure : Option String} (hinv : host.Inv)
    (hrows : ∀ record ∈ host.audit.store.records, record.Sized)
    (hstep : host.step ext sha256 (.get j failure) = some host') : host'.Inv := by
  obtain ⟨call, hj, hcall⟩ := Option.bind_eq_some_iff.mp hstep
  split at hcall
  · rename_i hreads
    obtain ⟨hpc, hnone⟩ := hreads
    split at hcall
    · rename_i record hget
      cases hcall
      have hrecord : host.audit.store.get call.artifact = some record := by
        cases failure with
        | some err => cases hget
        | none => simpa [queried] using hget
      have hmem := Registry.get_mem hrecord
      have hsized : call.sized = true := by rw [LoadCall.sized, hpc]
      obtain ⟨footprint, hfootprint, hweight⟩ := hinv.declared j call ⟨hj, hsized, hnone⟩
      have hsize := hweight record hmem (Registry.get_id hrecord)
      have hlater : call.pc ≠ .sizing := by simp [hpc]
      constructor
      case declared =>
        rintro i load ⟨hi, hload, hunread⟩
        refine hinv.declared i load ⟨hi, hload, ?_⟩
        by_cases hsame : i = j
        · subst hsame
          exact hnone
        · simpa [Function.update_of_ne hsame] using hunread
      case resolving =>
        intro i other hother
        rcases Slots.update_cases hother with ⟨rfl, hread⟩ | ⟨-, hother⟩
        · cases hread
          exact ⟨hrows record hmem, call, footprint, hj, hlater, hfootprint, hsize.symm⟩
        · exact hinv.resolving i other hother
      case passed => exact hinv.passed
    · exact inv_prepare hinv hcall
  · cases hcall

/-- What is let through has the size of the record that it is compared with. -/
theorem inv_check {failure incompatible : Option String} (hinv : host.Inv)
    (hstep : host.step ext sha256 (.check j failure incompatible) = some host') : host'.Inv := by
  obtain ⟨call, hj, hcall⟩ := Option.bind_eq_some_iff.mp hstep
  obtain ⟨record, hrecord, hcheck⟩ := Option.bind_eq_some_iff.mp hcall
  obtain ⟨runtime, hruntime, rfl⟩ := Option.map_eq_some_iff.mp hcheck
  replace hruntime : host.runtime.stepLoad ext j _ = some runtime := hruntime
  obtain ⟨before, call', hbefore, rfl, -, hresolved, hgoes⟩ := stepLoad_prepare hruntime
  have hcarries {i : ℕ} {weight : UInt64} (h : host.runtime.Carries i weight) :
      (host.runtime.setLoad j call').Carries i weight :=
    LoadsStep.carries (.moved j before call' hbefore rfl hgoes) h
  constructor
  case declared =>
    rintro i load ⟨hi, hload, hnone⟩
    rcases Slots.get_set_cases hi with ⟨-, rfl⟩ | ⟨hne, hi⟩
    · rw [hresolved] at hload
      cases hload
    · refine hinv.declared i load ⟨hi, hload, ?_⟩
      simpa [Function.update_of_ne hne] using hnone
  case resolving =>
    intro i other hother
    rcases Slots.update_cases hother with ⟨-, hnone⟩ | ⟨-, hother⟩
    · cases hnone
    · exact ⟨(hinv.resolving i other hother).1, hcarries (hinv.resolving i other hother).2⟩
  case passed =>
    intro i version hversion
    rcases Slots.update_cases hversion with ⟨rfl, hpassing⟩ | ⟨-, hversion⟩
    · obtain ⟨hsized, hsize⟩ := hinv.resolving i record hrecord
      have hlength := passing_some hpassing hsized
      rw [hlength]
      exact ⟨hsized.2, hcarries hsize⟩
    · exact ⟨(hinv.passed i version hversion).1, hcarries (hinv.passed i version hversion).2⟩

theorem inv_step {action : HostAction} (hinv : host.Inv)
    (haudit : Reachable (Audit.system sha256) host.audit) (hok : Undrawn host action)
    (hstep : host.step ext sha256 action = some host') : host'.Inv := by
  cases action with
  | registry action =>
    obtain ⟨audit, hregistry, rfl⟩ := Option.map_eq_some_iff.mp hstep
    exact inv_registry hinv hok hregistry
  | runtime action =>
    simp only [Host.step] at hstep
    split at hstep
    · cases hstep
    · rename_i hasks
      obtain ⟨runtime, hruntime, rfl⟩ := Option.map_eq_some_iff.mp hstep
      exact inv_runtime hinv (loads_step hruntime (Bool.not_eq_true _ ▸ hasks))
  | size j failure =>
    obtain ⟨call, hj, hcall⟩ := Option.bind_eq_some_iff.mp hstep
    exact inv_size hinv (Registry.keyed_reachable haudit) hj hcall
  | get j failure => exact inv_get hinv (fun _ => Registry.sized_reachable haudit) hstep
  | check j failure incompatible => exact inv_check hinv hstep

theorem inv_init (h : (hostSystem ext sha256).init host) : host.Inv := by
  obtain ⟨⟨limits, hruntime⟩, -, hresolving, hpassed⟩ := h
  have hloads : host.runtime.loads = [] := by
    rw [hruntime]
    rfl
  constructor
  case declared =>
    rintro j call ⟨hj, -⟩
    rw [hloads] at hj
    cases hj
  case resolving =>
    intro j record hrecord
    rw [hresolving] at hrecord
    cases hrecord
  case passed =>
    intro j version hversion
    rw [hpassed] at hversion
    cases hversion

/-- A load that gets past the drift check has claimed the size of the file that the check has
seen, whatever others have done to the registry and to the files between its reads. -/
theorem load_accounted (h : ReachableWhile (hostSystem ext sha256) Undrawn host) {j : ℕ}
    {version : Version} (hpassed : host.passed j = some version) :
    (version.bytes.length : ℤ) ≤ i64Max ∧
      ∃ call, host.runtime.loads[j]? = some call ∧ call.Accounted version := by
  have hinv : host.Inv := h.invariant (I := Host.Inv) (fun _ => inv_init)
    fun _ _ _ hreach hinv hok hstep => inv_step hinv (parts_reachable hreach).2 hok hstep
  obtain ⟨hfits, call, footprint, hj, -, hfootprint, hweight⟩ := hinv.passed j version hpassed
  have hguard := reachable_guarded (parts_reachable h).1 j call hj
  have hlt : version.bytes.length < 2 ^ 64 := by
    unfold i64Max at hfits
    omega
  refine ⟨hfits, call, hj, hguard, footprint, hfootprint, ?_, fun claim hclaim => ?_⟩
  · rw [hweight, Word.ofNat_toNat_of_lt hlt]
  · have hclaimed := hguard.footprint hclaim
    rw [hfootprint] at hclaimed
    exact (Option.some.inj hclaimed).symm

/-! ### A load of a container -/

open MehoyRuntime.Registry (container model sampleId atParsing querying newArtifact)
open MehoyRuntime.Registry.Chronicle (containerVersion)

def start : Host :=
  ⟨.withLimits .default, Audit.untouchedAudit, fun _ => none, fun _ => none⟩

theorem start_init : (hostSystem ext sha256).init start :=
  ⟨⟨_, rfl⟩, Audit.untouchedAudit_init, fun _ => rfl, fun _ => rfl⟩

def settled (host : Host) : HostAction → Bool
  | .registry _ => host.runtime.loads.isEmpty
  | _ => true

theorem undrawn_of_settled (host : Host) (action : HostAction) (h : settled host action = true) :
    Undrawn host action := by
  cases action with
  | registry action =>
    have hnone : host.runtime.loads = [] := List.isEmpty_iff.mp h
    unfold Undrawn
    split
    · rintro artifact version grown - - j load ⟨hj, -⟩
      rw [hnone] at hj
      cases hj
    · trivial
  | runtime | size | get | check => trivial

def ofRegistry (actions : List Registry.Action) : List HostAction :=
  actions.map fun action => .registry (.registry action)

def Host.parsed (host : Host) (n : ℕ) (canonical : Registry.PathBuf) (version : Version)
    (header : Registry.GgufHeader) : Host :=
  let store := host.audit.store.set n (.observing canonical version header)
  { host with audit := { host.audit with store, ids := store.ids ++ host.audit.ids } }

theorem step_parsed {n : ℕ} {canonical : Registry.PathBuf} {version : Version}
    {header : Registry.GgufHeader} {rest : Registry.Budgeted}
    (hpoint : host.audit.store.calls n = .parsing canonical version)
    (hparse : Registry.parse (.ofBytes version.bytes) = .ok header rest) :
    (hostSystem ext sha256).step host (.registry (.registry (.call n (.done none)))) =
      some (host.parsed n canonical version header) := by
  simp only [hostSystem, Host.step, Audit.step, Registry.step_parses hpoint hparse,
    Option.map_some, Host.parsed]

/-- A load goes on with a file that is reported unchanged. -/
theorem step_checked {record : Record} {version : Version}
    (hj : host.runtime.loads[j]? = some call) (hpc : call.pc = .preparing)
    (hrecord : host.resolving j = some record)
    (hfile : host.audit.store.files record.artifact.path = some version)
    (hdrift : detectDrift record.artifact (.ok (.observe version)) = .unchanged) :
    ∃ host', (hostSystem ext sha256).step host (.check j none none) = some host' ∧
      host'.passed j = some version ∧
      host'.runtime.loads[j]? =
        some ({ call with record := some record.artifact.loaded }.goto .identifying) := by
  have hcurrent : host.audit.store.current record.artifact.path = .ok version := by
    rw [Store.current, hfile]
  have hpassing : passing call.artifact record (.ok version) = some version := by
    simp only [passing, Except.map, hdrift, resolve]
  have hnext : call.next call.pc (.prepare (.ok (some record.artifact.loaded)) .unchanged none) =
      some ({ call with record := some record.artifact.loaded }.goto .identifying) := by
    rw [hpc]
    rfl
  have hstep : host.runtime.stepLoad ext j
      (.prepare (.ok (some record.artifact.loaded)) .unchanged none) =
      some (host.runtime.setLoad j
        ({ call with record := some record.artifact.loaded }.goto .identifying)) := by
    rw [hpc] at hnext
    simp only [RuntimeState.stepLoad, hj, Option.bind_some, hpc, hnext, Option.map_some]
  refine ⟨{ host with
    runtime := host.runtime.setLoad j
      ({ call with record := some record.artifact.loaded }.goto .identifying)
    resolving := Function.update host.resolving j none
    passed := Function.update host.passed j (some version) }, ?_, Function.update_self .., ?_⟩
  · simp only [hostSystem, Host.step, hj, hrecord, Option.bind_some, attempt, hcurrent, hpassing,
      Except.map, hdrift, Host.stepLoad, hstep, Option.map_some]
  · exact Slots.get_set_self hj _

def openedHost : Host :=
  { start with audit := { Audit.untouchedAudit with store := atParsing } }

/-- The rest of its registration, and a load of it up to its claim. -/
def sizing : List HostAction :=
  ofRegistry [.call 0 (.done none), .call 0 (.identified (.ok (List.replicate 16 0)) 0),
    .call 0 (.done none)] ++
  [.runtime (.load sampleId), .size 0 none, .runtime (.stepLoad 0 .reserve)]

def sizedHost (header : Registry.GgufHeader) : Host :=
  ((hostSystem sampleExternals Audit.sampleSha256).runWhile settled
    (openedHost.parsed 0 model containerVersion header) sizing).getD start

theorem sizedHost_reachable : ∃ header,
    ReachableWhile (hostSystem sampleExternals Audit.sampleSha256) Undrawn (sizedHost header) := by
  obtain ⟨header, rest, hparse⟩ := Registry.container_parses
  have hopened : (hostSystem sampleExternals Audit.sampleSha256).runWhile settled start
      (ofRegistry (querying 0 ++ [.call 0 (.done none), .call 0 (.done none)])) =
      some openedHost := rfl
  have hparsing := reachableWhile_of_run undrawn_of_settled (.init start_init) hopened
  have hpoint : openedHost.audit.store.calls 0 = .parsing model containerVersion := rfl
  have hobserving := hparsing.step (undrawn_of_settled _ _ rfl) (step_parsed hpoint hparse)
  have hsized : (hostSystem sampleExternals Audit.sampleSha256).runWhile settled
      (openedHost.parsed 0 model containerVersion header) sizing = some (sizedHost header) := rfl
  exact ⟨header, reachableWhile_of_run undrawn_of_settled hobserving hsized⟩

theorem sizedHost_get (header : Registry.GgufHeader) : ∃ host,
    (hostSystem sampleExternals Audit.sampleSha256).step (sizedHost header) (.get 0 none) = some host ∧
    host.runtime.loads[0]? = (sizedHost header).runtime.loads[0]? ∧
    host.resolving 0 = some (Registry.recordOf header containerVersion) ∧
    host.audit.store.files model = some containerVersion := ⟨_, rfl, rfl, rfl, rfl⟩

/-- Nobody touches the container. -/
theorem load_accounted_untouched : ∃ host,
    ReachableWhile (hostSystem sampleExternals Audit.sampleSha256) Undrawn host ∧
    host.passed 0 = some containerVersion ∧
    (containerVersion.bytes.length : ℤ) ≤ i64Max ∧
    ∃ call, host.runtime.loads[0]? = some call ∧ call.Accounted containerVersion := by
  obtain ⟨header, hsized⟩ := sizedHost_reachable
  obtain ⟨host, hget, hloads, hrecord, hfile⟩ := sizedHost_get header
  obtain ⟨call, hj, hpc⟩ : ∃ call, (sizedHost header).runtime.loads[0]? = some call ∧
      call.pc = .preparing := ⟨_, rfl, rfl⟩
  rw [← Registry.recordOf_path header containerVersion] at hfile
  have hfaithful : (Registry.recordOf header containerVersion).Faithful := rfl
  have hsize : (container.length : ℤ) ≤ i64Max := by decide
  have htime : ∀ time, some (5 : ℤ) = some time → 0 ≤ time ∧ time ≤ i64Max := by
    rintro time ⟨⟩
    decide
  have hdrift := Registry.detectDrift_untouched hfaithful hsize htime
  obtain ⟨passed, hcheck, hpassed, -⟩ := @step_checked sampleExternals Audit.sampleSha256 host 0 call
    _ containerVersion (hloads.trans hj) hpc hrecord hfile hdrift
  have hreach := (hsized.step (undrawn_of_settled _ _ rfl) hget).step
    (undrawn_of_settled _ _ rfl) hcheck
  exact ⟨passed, hreach, hpassed, load_accounted hreach hpassed⟩

/-- Another container at the same path, one byte longer. -/
def longerVersion : Version := ⟨1, container ++ [0], some 6⟩

/-- The row is forgotten after the load has been sized at it, and the longer container is
registered up to its header. -/
def replacing : List HostAction :=
  ofRegistry ([.forget sampleId, .replace model longerVersion.bytes longerVersion.modified] ++
    querying 1 ++ [.call 1 (.done none), .call 1 (.done none)])

def replacedHost (header : Registry.GgufHeader) : Host :=
  ((hostSystem sampleExternals Audit.sampleSha256).run (sizedHost header) replacing).getD start

/-- The registration ends with the identifier that the first one has drawn. -/
def redrawing : List HostAction :=
  ofRegistry [.call 1 (.done none), .call 1 (.identified (.ok (List.replicate 16 0)) 0),
    .call 1 (.done none)] ++ [.get 0 none]

def longerRecord (header : Registry.GgufHeader) : Record :=
  ⟨(Registry.newArtifact sampleId model header (.observe longerVersion) 0).stored, longerVersion⟩

theorem container_weight (header : Registry.GgufHeader) :
    (Registry.recordOf header containerVersion).artifact.loaded.sizeBytes.toNat =
      container.length := by
  have hsize : Registry.fromSigned (Registry.toSigned container.length) = container.length :=
    Registry.fromSigned_toSigned (by decide)
  have hloaded : (Registry.recordOf header containerVersion).artifact.loaded.sizeBytes =
    UInt64.ofNat (Registry.fromSigned (Registry.toSigned container.length)) := rfl
  rw [hloaded, hsize]
  decide

/-- The identifier is drawn again: the load goes on with a file that is longer than what it has
claimed. -/
theorem load_accounted_redrawn :
    ¬ ∀ ext sha256 host, Reachable (hostSystem ext sha256) host →
      ∀ j version, host.passed j = some version →
        (version.bytes.length : ℤ) ≤ i64Max ∧
          ∃ call, host.runtime.loads[j]? = some call ∧ call.Accounted version := by
  intro hclaim
  obtain ⟨header, hsized⟩ := sizedHost_reachable
  obtain ⟨longer, rest, hparse⟩ := Registry.container_parses_before [0]
  have hreplaced : (hostSystem sampleExternals Audit.sampleSha256).run (sizedHost header) replacing =
      some (replacedHost header) := rfl
  have hpoint : (replacedHost header).audit.store.calls 1 = .parsing model longerVersion := rfl
  have hparsed := (reachable_of_run hsized.reachable hreplaced).next _ (step_parsed hpoint hparse)
  obtain ⟨host, hrun, hrecord, hfile, call, hj, hpc, hfootprint⟩ : ∃ host,
      (hostSystem sampleExternals Audit.sampleSha256).run
        ((replacedHost header).parsed 1 model longerVersion longer) redrawing = some host ∧
      host.resolving 0 = some (longerRecord longer) ∧
      host.audit.store.files model = some longerVersion ∧
      ∃ call, host.runtime.loads[0]? = some call ∧ call.pc = .preparing ∧
        call.footprint = some (.fromContainerSize
          (Registry.recordOf header containerVersion).artifact.loaded.sizeBytes) :=
    ⟨_, rfl, rfl, rfl, _, rfl, rfl, rfl⟩
  have hpath : (longerRecord longer).artifact.path = model :=
    Registry.PathBuf.stored_of_text (Utf8.textOf_bytesOf "/m")
  rw [← hpath] at hfile
  have hfaithful : (longerRecord longer).Faithful := rfl
  have hsize : (longerVersion.bytes.length : ℤ) ≤ i64Max := by decide
  have htime : ∀ time, some (6 : ℤ) = some time → 0 ≤ time ∧ time ≤ i64Max := by
    rintro time ⟨⟩
    decide
  have hdrift := Registry.detectDrift_untouched hfaithful hsize htime
  obtain ⟨passed, hcheck, hpassed, hload⟩ := @step_checked sampleExternals Audit.sampleSha256 host 0
    call _ longerVersion hj hpc hrecord hfile hdrift
  obtain ⟨-, call', hj', haccounted⟩ := hclaim _ _ passed
    ((reachable_of_run hparsed hrun).next _ hcheck) 0 longerVersion hpassed
  obtain rfl := Option.some.inj (hload.symm.trans hj')
  obtain ⟨footprint, hclaimed, hweight, -⟩ := haccounted.size
  obtain rfl := Option.some.inj (hfootprint.symm.trans hclaimed)
  have hsame : container.length = longerVersion.bytes.length :=
    (container_weight header).symm.trans hweight
  exact absurd hsame (by decide)

end MehoyRuntime.Runtime
