import MehoyRuntime.Backend.Compatibility
import MehoyRuntime.Registry.Inspection
import MehoyRuntime.Registry.Listing
import MehoyRuntime.Runtime.Capabilities
import MehoyRuntime.Runtime.Sizing
import MehoyRuntime.Runtime.Unstopped

/-!
# What a load starts a backend with

`ModelLoader::load` between its registry and its backend. The record that is resolved is
described to the backend, the backend judges the description, and what it lets through is
what its worker is started with. Others use the registry and replace the files meanwhile.
-/

namespace MehoyRuntime.Runtime
open MehoyRuntime.Core MehoyRuntime.Stream TransitionSystem Filesystem RuntimeState
open MehoyRuntime.Registry (Audit Record Version ArtifactMetadata)
open MehoyRuntime.Backend (ModelDescriptor LlamaCppWorkerSpec assess launchMode commandLine)

def describe (artifact : Registry.ModelArtifact) : ModelDescriptor where
  architecture := artifact.metadata.architecture
  contextLength := artifact.metadata.contextLength.map UInt64.ofNat
  embeddingLength := artifact.metadata.embeddingLength.map UInt64.ofNat
  tokenizerModel := artifact.metadata.tokenizerModel
  hasChatTemplate := artifact.metadata.chatTemplate.isSome

def specOf (artifact : Registry.ModelArtifact) : LlamaCppWorkerSpec where
  modelPath := Registry.toStringLossy artifact.path
  descriptor := describe artifact
  contextSize := none
  gpuLayers := none

/-- The reason for which a load goes no further. -/
def preflight (descriptor : ModelDescriptor) : Option String :=
  if (assess descriptor).permitsStart then none else some (assess descriptor).display

/-- The host, with what each load has started its backend with. The record that each load has been
judged on, and what registrations have opened, are read by statements only. -/
structure Loader where
  host : Host
  specs : ℕ → Option LlamaCppWorkerSpec
  judged : ℕ → Option Record
  opened : List (Registry.PathBuf × Version)

namespace Loader
variable (ext : Externals) (sha256 : List UInt8 → List UInt8)

/-- The load goes on to its backend. -/
def started (host : Host) (j : ℕ) (record : Record) : Option LlamaCppWorkerSpec :=
  match (host.runtime.loads[j]?).map LoadCall.pc with
  | some .identifying => some (specOf record.artifact)
  | _ => none

/-- The verdict on a record is that of the backend; everything else is as before. -/
def step (loader : Loader) : HostAction → Option Loader
  | .check j failure _ =>
    (loader.host.resolving j).bind fun record =>
      (loader.host.step ext sha256
        (.check j failure (preflight (describe record.artifact)))).map fun host =>
          { loader with
            host
            specs := Function.update loader.specs j (started host j record)
            judged := Function.update loader.judged j (some record) }
  | .registry action =>
    (loader.host.step ext sha256 (.registry action)).map fun host =>
      { loader with host, opened := loader.host.audit.store.opens action ++ loader.opened }
  | action => (loader.host.step ext sha256 action).map fun host => { loader with host }

end Loader

def loaderSystem (ext : Externals) (sha256 : List UInt8 → List UInt8) :
    System Loader HostAction where
  init loader := (hostSystem ext sha256).init loader.host ∧
    (∀ j, loader.specs j = none ∧ loader.judged j = none) ∧ loader.opened = []
  step := Loader.step ext sha256

/-- The points of a load that has nothing of a backend, if it has not had anything before. -/
def LoadPc.unstarted : LoadPc → Bool
  | .sizing | .reserving _ | .preparing | .releasing _ | .returned (.error _) | .dropped => true
  | _ => false

/-- The points before the preflight. -/
def LoadPc.early : LoadPc → Bool
  | .sizing | .reserving _ | .preparing => true
  | _ => false

def RuntimeError.incompatibility : RuntimeError → Option String
  | .instance_ (.incompatible reason) => some reason
  | _ => none

/-- The reason of an incompatibility that the load reports, or is about to. -/
def LoadPc.refusal : LoadPc → Option String
  | .releasing (some err) | .returned (.error err) => err.incompatibility
  | _ => none

/-- The record of the artifact that a load was asked for. A registration has opened a file at its
path, and the metadata are those of the header that was parsed of that file. -/
structure LoadCall.Reads (call : LoadCall) (opened : List (Registry.PathBuf × Version))
    (record : Record) : Prop where
  id : record.artifact.id = call.artifact
  file : ∃ canonical : Registry.PathBuf,
    record.artifact.path = canonical.stored ∧ (canonical, record.parsed) ∈ opened
  header : ∃ header, record.parsed.Holds header ∧
    record.artifact.metadata = (ArtifactMetadata.fromHeader header).stored

/-- The only reason there is to refuse an artifact. -/
structure Projector (record : Record) (reason : String) : Prop where
  architecture : record.artifact.metadata.architecture = some "clip"
  text : reason = "unsupported: clip is a companion projector rather than a standalone model"

/-- The worker specification of an artifact. -/
structure Specifies (spec : LlamaCppWorkerSpec) (artifact : Registry.ModelArtifact) : Prop where
  path : spec.modelPath = Registry.toStringLossy artifact.path
  architecture : spec.descriptor.architecture = artifact.metadata.architecture
  contextLength : spec.descriptor.contextLength = artifact.metadata.contextLength.map UInt64.ofNat
  embeddingLength :
    spec.descriptor.embeddingLength = artifact.metadata.embeddingLength.map UInt64.ofNat
  tokenizerModel : spec.descriptor.tokenizerModel = artifact.metadata.tokenizerModel
  hasChatTemplate : spec.descriptor.hasChatTemplate = artifact.metadata.chatTemplate.isSome
  contextSize : spec.contextSize = none
  gpuLayers : spec.gpuLayers = none

/-- A load has nothing of a backend, and if it was refused then because the record that it has read
is one of a projector; or the record that it has read permits a start, it goes on with that record,
and its worker is specified by it. -/
inductive LoadCall.Judged (call : LoadCall) (opened : List (Registry.PathBuf × Version)) :
    Option Record → Option LlamaCppWorkerSpec → Prop
  | unstarted {read} (hrecord : call.record = none) (hidentity : call.identity = none)
      (hbuilt : call.built = none) (hstop : call.stopFailed = false)
      (hpc : call.pc.unstarted = true) (hreads : ∀ record, read = some record →
        call.Reads opened record)
      (hrefusal : ∀ reason, call.pc.refusal = some reason →
        ∃ record, read = some record ∧ Projector record reason) : Judged call opened read none
  | started {record spec} (hrecord : call.record = some record.artifact.loaded)
      (hreads : call.Reads opened record) (hspec : Specifies spec record.artifact)
      (hpermits : record.artifact.metadata.architecture ≠ some "clip") (hpc : call.pc.early = false)
      (hrefusal : call.pc.refusal = none) : Judged call opened (some record) (some spec)

/-- A capability is known as the metadata has it, or it has been verified since. -/
def ModelCapabilities.StemFrom (capabilities : ModelCapabilities) (descriptor : ModelDescriptor) :
    Prop :=
  ∀ capability, capabilities capability = indicatedByMetadata descriptor.architecture
      descriptor.embeddingLength descriptor.hasChatTemplate capability ∨
    ∃ now backend, capabilities capability = .verified now backend

variable {ext : Externals} {sha256 : List UInt8 → List UInt8} {s s' : RuntimeState}
  {host host' : Host} {loader loader' : Loader} {j : ℕ} {call call' : LoadCall}
  {spec : LlamaCppWorkerSpec} {opened more : List (Registry.PathBuf × Version)}

/-! ### The verdict -/

theorem preflight_none {descriptor : ModelDescriptor} (h : preflight descriptor = none) :
    descriptor.architecture ≠ some "clip" := by
  unfold preflight at h
  split at h
  · rename_i hpermits
    exact Backend.assess_permits_iff.mp hpermits
  · cases h

theorem preflight_some {descriptor : ModelDescriptor} {reason : String}
    (h : preflight descriptor = some reason) : descriptor.architecture = some "clip" ∧
      reason = "unsupported: clip is a companion projector rather than a standalone model" := by
  unfold preflight at h
  split at h
  · cases h
  · rename_i hpermits
    have hclip : descriptor.architecture = some "clip" := by
      by_contra hne
      exact hpermits (Backend.assess_permits_iff.mpr hne)
    have hreason := Backend.assess_refused hclip
    rw [Option.some.inj h] at hreason
    exact ⟨hclip, hreason⟩

theorem specifies_described (artifact : Registry.ModelArtifact) :
    Specifies (specOf artifact) artifact := by
  constructor <;> rfl

theorem LoadCall.Reads.later {record : Record} (h : call.Reads opened record)
    (hartifact : call'.artifact = call.artifact) (hmore : opened ⊆ more) :
    call'.Reads more record := by
  obtain ⟨canonical, hpath, hopened⟩ := h.file
  exact ⟨h.id.trans hartifact.symm, ⟨canonical, hpath, hmore hopened⟩, h.header⟩

theorem LoadCall.Judged.mono {read : Option Record} {given : Option LlamaCppWorkerSpec}
    (h : call.Judged opened read given) (hmore : opened ⊆ more) : call.Judged more read given := by
  cases h with
  | unstarted hrecord hidentity hbuilt hstop hpc hreads hrefusal =>
    refine .unstarted hrecord hidentity hbuilt hstop hpc (fun record hread => ?_) hrefusal
    exact (hreads record hread).later rfl hmore
  | started hrecord hreads hspec hpermits hpc hrefusal =>
    exact .started hrecord (hreads.later rfl hmore) hspec hpermits hpc hrefusal

/-- A row that a load finds under the identifier it was asked for. -/
theorem reads_of_get {store : Registry.Store} (hparsed : store.Parsed)
    (hinspected : store.Inspected opened) {record : Record}
    (hget : store.get call.artifact = some record) : call.Reads opened record where
  id := Registry.get_id hget
  file := hinspected.rows record (Registry.get_mem hget)
  header := hparsed.rows record (Registry.get_mem hget)

/-! ### The steps of a load after its preflight -/

/-- A step neither resolves a load nor refuses it as incompatible, and it does nothing of a
backend for a load that has nothing of one. -/
structure LoadCall.Proceeds (call call' : LoadCall) : Prop where
  artifact : call'.artifact = call.artifact
  record : call'.record = call.record
  built : call.pc ≠ .committing → call'.built = call.built
  late : call.pc.early = false → call'.pc.early = false
  refusal : call.pc.refusal = none → call'.pc.refusal = none
  told : ∀ reason, call.pc.unstarted = true → call'.pc.refusal = some reason →
    call.pc.refusal = some reason
  unstarted : call.pc.unstarted = true → call'.pc.unstarted = true ∧
    call'.identity = call.identity ∧ call'.built = call.built ∧ call'.stopFailed = call.stopFailed

theorem LoadCall.Proceeds.of_started (hartifact : call'.artifact = call.artifact)
    (hrecord : call'.record = call.record)
    (hbuilt : call.pc ≠ .committing → call'.built = call.built)
    (hstarted : call.pc.unstarted = false) (hlate : call'.pc.early = false)
    (hrefusal : call'.pc.refusal = none) : call.Proceeds call' where
  artifact := hartifact
  record := hrecord
  built := hbuilt
  late _ := hlate
  refusal _ := hrefusal
  told _ h := by
    rw [hstarted] at h
    cases h
  unstarted h := by
    rw [hstarted] at h
    cases h

theorem LoadCall.Proceeds.of_unstarted {pc : LoadPc} (hartifact : call'.artifact = call.artifact)
    (hrecord : call'.record = call.record)
    (hidentity : call'.identity = call.identity) (hbuilt : call'.built = call.built)
    (hstop : call'.stopFailed = call.stopFailed) (hpc : pc.unstarted = true)
    (hlate : call.pc.early = false → pc.early = false)
    (hrefusal : ∀ reason, pc.refusal = some reason → call.pc.refusal = some reason) :
    call.Proceeds (call'.goto pc) where
  artifact := hartifact
  record := hrecord
  built _ := hbuilt
  late := hlate
  refusal hnone := by
    cases hsome : (call'.goto pc).pc.refusal with
    | none => rfl
    | some reason =>
      rw [hrefusal reason hsome] at hnone
      cases hnone
  told reason _ := hrefusal reason
  unstarted _ := ⟨hpc, hidentity, hbuilt, hstop⟩

@[simp] theorem LoadCall.attempted_artifact (call : LoadCall) (result : Except String Unit) :
    (call.attempted result).artifact = call.artifact := by
  cases result <;> rfl

@[simp] theorem LoadCall.attempted_record (call : LoadCall) (result : Except String Unit) :
    (call.attempted result).record = call.record := by
  cases result <;> rfl

theorem declaredFootprint_refusal {id : String} {found : Except String (Option ModelArtifact)}
    {err : LoadError} (h : declaredFootprint id found = .error err) :
    (RuntimeError.instance_ err).incompatibility = none := by
  unfold declaredFootprint at h
  split at h <;> cases h <;> rfl

theorem resolve_refusal {id : String} {found : Except String (Option ModelArtifact)}
    {drift : ArtifactState} {err : LoadError} (h : resolve id found drift = .error err) :
    (RuntimeError.instance_ err).incompatibility = none := by
  unfold resolve at h
  split at h
  · cases h
    rfl
  · cases h
    rfl
  · split at h <;> cases h <;> rfl

theorem reserve_refusal {ledger : Ledger} {limits : ResidentLimits} {footprint : ResourceFootprint}
    {err : RuntimeError} (h : ledger.reserve limits footprint = .error err) :
    err.incompatibility = none := by
  unfold Ledger.reserve at h
  split at h
  · rename_i refusal _
    cases h
    cases refusal <;> rfl
  · cases h

theorem next_proceeds {a : LoadAction} (h : call.next call.pc a = some call')
    (hasks : (RuntimeAction.stepLoad j a).asks = false) : call.Proceeds call' := by
  have hstarted {pc : LoadPc} (hpc : call.pc = pc) (hlate : pc.unstarted = false) :
      call.pc.unstarted = false := hpc ▸ hlate
  cases LoadCall.next_cases h with
  | unsized | sized | unresolved | incompatible | prepared => cases hasks
  | unreachable hpc | identified hpc | unspawned hpc | spawned hpc | ready hpc | unready hpc
  | elapsed hpc | flushed hpc | accepted hpc | refused hpc | uncommitted hpc =>
    exact .of_started rfl rfl (fun _ => rfl) (hstarted hpc rfl) rfl rfl
  | terminated hpc | shutDown hpc | rolledBack hpc =>
    exact .of_started (LoadCall.attempted_artifact call _) (LoadCall.attempted_record call _)
      (fun _ => LoadCall.attempted_built call _) (hstarted hpc rfl) rfl rfl
  | dropped hsuspended =>
    refine .of_unstarted rfl rfl rfl rfl rfl rfl (fun _ => rfl) ?_
    intro reason hreason
    cases hreason

theorem torn_proceeds (hj : s.loads[j]? = some call) {reason : String} {m k : ℕ}
    (hpc : call.pc = .tearing reason m k) (h : s.stepLoad ext j .torn = some s') :
    ∃ call', s'.loads = s.loads.set j call' ∧ call.Proceeds call' := by
  have hstarted : call.pc.unstarted = false := by rw [hpc]; rfl
  simp only [stepLoad, hj, Option.bind_some, hpc] at h
  split at h <;> cases h <;> exact ⟨_, rfl, .of_started rfl rfl (fun _ => rfl) hstarted rfl rfl⟩

theorem stepLoad_proceeds {a : LoadAction} (hj : s.loads[j]? = some call)
    (hasks : (RuntimeAction.stepLoad j a).asks = false) (h : s.stepLoad ext j a = some s') :
    ∃ call', s'.loads = s.loads.set j call' ∧ call.Proceeds call' := by
  obtain ⟨found, hfound, hstep⟩ := stepLoad_cases h
  rw [hj] at hfound
  cases hfound
  have hstarted {pc : LoadPc} (hpc : call.pc = pc) (hlate : pc.unstarted = false) :
      call.pc.unstarted = false := hpc ▸ hlate
  cases hstep with
  | refused hpc hreserve =>
    refine ⟨_, rfl, .of_unstarted rfl rfl rfl rfl rfl rfl (fun _ => rfl) fun reason hreason => ?_⟩
    have hnone := reserve_refusal hreserve
    replace hreason : RuntimeError.incompatibility _ = some reason := hreason
    rw [hnone] at hreason
    cases hreason
  | reserved hpc =>
    refine ⟨_, rfl, .of_unstarted rfl rfl rfl rfl rfl rfl (fun hlate => ?_) fun reason hreason => ?_⟩
    · rw [hpc] at hlate
      cases hlate
    · cases hreason
  | built hpc => exact ⟨_, rfl, .of_started rfl rfl (absurd hpc) (hstarted hpc rfl) rfl rfl⟩
  | @fulfilled m model claim id ledger hpc hm hclaim hfulfil =>
    refine ⟨call.settled.goto (.returned (.ok id)), ?_,
      .of_started rfl rfl (fun _ => rfl) (hstarted hpc rfl) rfl rfl⟩
    rw [publish_frame]
    rfl
  | rejected hpc => exact ⟨_, rfl, .of_started rfl rfl (fun _ => rfl) (hstarted hpc rfl) rfl rfl⟩
  | teardown hpc hact | abandoned hpc hact =>
    rw [act_frame hact]
    exact ⟨_, rfl, .of_started rfl rfl (fun _ => rfl) (hstarted hpc rfl) rfl rfl⟩
  | torn hpc => exact torn_proceeds hj hpc h
  | @released result hpc =>
    refine ⟨call.settled.goto (endPc result), rfl, .of_unstarted rfl rfl rfl rfl rfl ?_ ?_ ?_⟩
    · cases result <;> rfl
    · cases result <;> exact fun _ => rfl
    · intro reason hreason
      rw [hpc]
      cases result with
      | none => cases hreason
      | some err => exact hreason
  | inside hnext => exact ⟨_, rfl, next_proceeds hnext hasks⟩

theorem LoadCall.Judged.proceeds {read : Option Record} {given : Option LlamaCppWorkerSpec}
    (h : call.Judged opened read given) (hproceeds : call.Proceeds call') :
    call'.Judged opened read given := by
  have hsub : opened ⊆ opened := fun _ hmem => hmem
  cases h with
  | unstarted hrecord hidentity hbuilt hstop hpc hreads hrefusal =>
    obtain ⟨hpc', hidentity', hbuilt', hstop'⟩ := hproceeds.unstarted hpc
    refine .unstarted (hproceeds.record.trans hrecord) (hidentity'.trans hidentity)
      (hbuilt'.trans hbuilt) (hstop'.trans hstop) hpc' (fun record hread => ?_) fun reason hreason => ?_
    · exact (hreads record hread).later hproceeds.artifact hsub
    · exact hrefusal reason (hproceeds.told reason hpc hreason)
  | started hrecord hreads hspec hpermits hpc hrefusal =>
    exact .started (hproceeds.record.trans hrecord) (hreads.later hproceeds.artifact hsub) hspec
      hpermits (hproceeds.late hpc) (hproceeds.refusal hrefusal)

/-- What a step that resolves no load does to the loads. -/
inductive Proceeding (s s' : RuntimeState) : Prop
  | same (hloads : s'.loads = s.loads)
  | begun (artifact : String) (hloads : s'.loads = s.loads ++ [.new artifact])
  | moved (j : ℕ) (call call' : LoadCall) (hj : s.loads[j]? = some call)
      (hloads : s'.loads = s.loads.set j call') (hproceeds : call.Proceeds call')

theorem proceeding_of_step {a : RuntimeAction} (h : RuntimeState.step ext s a = some s')
    (hasks : a.asks = false) : Proceeding s s' := by
  cases step_cases h with
  | load artifact => exact .begun artifact rfl
  | unloadWithin id drain => exact .same rfl
  | @ofLoad j call b s' hj hstep =>
    obtain ⟨call', hloads, hproceeds⟩ := stepLoad_proceeds hj hasks h
    exact .moved j call call' hj hloads hproceeds
  | ofUnload hj hstep => exact .same hstep.loads
  | ofModel htaken hfree hact => exact .same (act_loads hact)

/-! ### The models that loads build -/

theorem LoadedModel.stem_step {t t' : LoadedModel.State} {a : LoadedModel.Action}
    (h : LoadedModel.step ext t a = some t') {descriptor : ModelDescriptor}
    (hstem : t.capabilities.StemFrom descriptor) : t'.capabilities.StemFrom descriptor := by
  have hverify (verified : ModelCapability) (now : ℕ) (backend : Option BackendIdentity) :
      (t.capabilities.verify verified now backend).StemFrom descriptor := by
    intro capability
    unfold ModelCapabilities.verify
    split
    · exact .inr ⟨now, backend, rfl⟩
    · exact hstem capability
  cases LoadedModel.step_verifies h with
  | kept hkept =>
    have hcapabilities : t'.capabilities = t.capabilities := congrArg Prod.snd hkept
    rw [hcapabilities]
    exact hstem
  | @whole i now w result hi hpc hnew =>
    rw [hnew]
    exact hverify w.request.capability now _
  | @stream now ha hnew =>
    rw [hnew]
    exact hverify .textGeneration now _

/-- The load that a further model is of. -/
theorem committed_of_longer {a : RuntimeAction} (h : RuntimeState.step ext s a = some s')
    (hlonger : s.models.length < s'.models.length) : ∃ (j : ℕ) (call : LoadCall) (bytes : List UInt8),
      s.loads[j]? = some call ∧ call.pc = .committing ∧
      s'.models = s.models ++ [⟨call.build bytes, false⟩] ∧
      s'.loads = s.loads.set j
        ({ call with built := some s.models.length }.goto (.fulfilling s.models.length)) := by
  cases step_cases h with
  | load | unloadWithin => exact absurd hlonger (Nat.lt_irrefl _)
  | @ofLoad j call b s' hj hstep =>
    obtain ⟨bytes, hmodels⟩ := hstep.built_of_longer hlonger
    cases hstep with
    | @built bytes' hpc => exact ⟨j, call, bytes', hj, hpc, rfl, rfl⟩
    | @fulfilled m model claim id ledger hpc hm hclaim hfulfil =>
      have hsame : ({ s with ledger := ledger }.publish m).models = s.models.set m _ :=
        RuntimeState.publish_models hm
      simp only [RuntimeState.setLoad, hsame, List.length_set] at hlonger
      exact absurd hlonger (Nat.lt_irrefl _)
    | teardown hpc hact | abandoned hpc hact =>
      simp only [RuntimeState.setLoad, act_length hact] at hlonger
      exact absurd hlonger (Nat.lt_irrefl _)
    | _ => exact absurd hlonger (Nat.lt_irrefl _)
  | ofUnload hj hstep => exact absurd hstep.length (Nat.ne_of_gt hlonger)
  | ofModel htaken hfree hact => exact absurd (act_length hact) (Nat.ne_of_gt hlonger)

/-- A model that no load builds at this step was there before. -/
theorem model_kept {a : RuntimeAction} (h : RuntimeState.step ext s a = some s')
    (hshort : ¬ s.models.length < s'.models.length) {m : ℕ} {model' : Model}
    (hm' : s'.models[m]? = some model') :
    ∃ model, s.models[m]? = some model ∧ ∀ descriptor,
      model.loaded.capabilities.StemFrom descriptor →
        model'.loaded.capabilities.StemFrom descriptor := by
  cases step_models h with
  | same hmodels =>
    rw [hmodels] at hm'
    exact ⟨model', hm', fun _ hstem => hstem⟩
  | built hnew hmodels =>
    rw [hmodels, List.length_append, List.length_singleton] at hshort
    omega
  | acted htaken hx hstep hmodels =>
    rw [hmodels] at hm'
    rcases Slots.get_set_cases hm' with ⟨rfl, rfl⟩ | ⟨-, hm⟩
    · exact ⟨_, hx, fun _ hstem => LoadedModel.stem_step hstep hstem⟩
    · exact ⟨model', hm, fun _ hstem => hstem⟩
  | published footprint hx hmodels hentry =>
    rw [hmodels] at hm'
    rcases Slots.get_set_cases hm' with ⟨rfl, rfl⟩ | ⟨-, hm⟩
    · exact ⟨_, hx, fun _ hstem => hstem⟩
    · exact ⟨model', hm, fun _ hstem => hstem⟩

/-! ### The invariant -/

/-- The model is of a load that was let through, and it is known as that load was described. -/
def Loader.Stems (loader : Loader) (m : ℕ) (model : Model) : Prop :=
  ∃ (j : ℕ) (call : LoadCall) (spec : LlamaCppWorkerSpec),
    loader.host.runtime.loads[j]? = some call ∧ call.built = some m ∧ loader.specs j = some spec ∧
      model.loaded.capabilities.StemFrom spec.descriptor

structure Loader.Inv (loader : Loader) : Prop where
  inspected : loader.host.audit.store.Inspected loader.opened
  resolving : ∀ (j : ℕ) (record : Record), loader.host.resolving j = some record →
    ∃ call, loader.host.runtime.loads[j]? = some call ∧ call.Reads loader.opened record
  loads : ∀ (j : ℕ) (call : LoadCall), loader.host.runtime.loads[j]? = some call →
    call.Judged loader.opened (loader.judged j) (loader.specs j)
  beyond : ∀ j, loader.host.runtime.loads.length ≤ j → loader.specs j = none ∧ loader.judged j = none
  models : ∀ (m : ℕ) (model : Model), loader.host.runtime.models[m]? = some model →
    loader.Stems m model

/-- Before its preflight a load has nothing of a backend, and it has none when it is refused. -/
theorem LoadCall.Judged.early {read read' : Option Record} {given : Option LlamaCppWorkerSpec}
    (h : call.Judged opened read given) (hearly : call.pc.early = true) {pc : LoadPc}
    (hpc : pc.unstarted = true)
    (hreads : ∀ record, read' = some record → read = some record ∨ call.Reads opened record)
    (hrefusal : ∀ reason, pc.refusal = some reason →
      ∃ record, read' = some record ∧ Projector record reason)
    (footprint : Option ResourceFootprint) :
    given = none ∧ call.built = none ∧
      ({ call with footprint }.goto pc).Judged opened read' none := by
  cases h with
  | unstarted hrecord hidentity hbuilt hstop _ hread _ =>
    refine ⟨rfl, hbuilt, .unstarted hrecord hidentity hbuilt hstop hpc (fun record hsome => ?_)
      hrefusal⟩
    rcases hreads record hsome with hbefore | hnow
    · exact (hread record hbefore).later rfl fun _ hmem => hmem
    · exact hnow.later rfl fun _ hmem => hmem
  | started hrecord hread hspec hpermits hlate =>
    rw [hearly] at hlate
    cases hlate

theorem Loader.Stems.later {m : ℕ} {model model' : Model} (h : loader.Stems m model)
    (hloads : ∀ (j : ℕ) (call : LoadCall), loader.host.runtime.loads[j]? = some call →
      call.built = some m → ∃ call', loader'.host.runtime.loads[j]? = some call' ∧
        call'.built = some m ∧ loader'.specs j = loader.specs j)
    (hstem : ∀ descriptor, model.loaded.capabilities.StemFrom descriptor →
      model'.loaded.capabilities.StemFrom descriptor) : loader'.Stems m model' := by
  obtain ⟨j, call, spec, hj, hbuilt, hspec, hknown⟩ := h
  obtain ⟨call', hj', hbuilt', hspecs⟩ := hloads j call hj hbuilt
  exact ⟨j, call', spec, hj', hbuilt', hspecs.trans hspec, hstem _ hknown⟩

/-- One load moves on. What it is judged on and given by now is noted, and a model that was not
there is its own. -/
theorem Loader.Inv.moved (hinv : loader.Inv) (hj : loader.host.runtime.loads[j]? = some call)
    {read : Option Record} {given : Option LlamaCppWorkerSpec}
    (hcall' : call'.Judged loader.opened read given) (hartifact : call'.artifact = call.artifact)
    (hkept : ∀ m, call.built = some m → call'.built = some m ∧ given = loader.specs j)
    (hloads : host'.runtime.loads = loader.host.runtime.loads.set j call')
    (hmodels : ∀ (m : ℕ) (model' : Model), host'.runtime.models[m]? = some model' →
      (∃ model, loader.host.runtime.models[m]? = some model ∧
        ∀ descriptor, model.loaded.capabilities.StemFrom descriptor →
          model'.loaded.capabilities.StemFrom descriptor) ∨
      (call'.built = some m ∧ ∃ spec, given = some spec ∧
        model'.loaded.capabilities.StemFrom spec.descriptor))
    (hstore : host'.audit.store = loader.host.audit.store)
    (hresolving : ∀ (i : ℕ) (record : Record), host'.resolving i = some record →
      loader.host.resolving i = some record) :
    Loader.Inv { loader with
      host := host'
      specs := Function.update loader.specs j given
      judged := Function.update loader.judged j read } := by
  have hself : host'.runtime.loads[j]? = some call' := by
    rw [hloads]
    exact Slots.get_set_self hj call'
  have hother : ∀ i load, i ≠ j → loader.host.runtime.loads[i]? = some load →
      host'.runtime.loads[i]? = some load := by
    intro i load hne hi
    rw [hloads, List.getElem?_set_ne (Ne.symm hne)]
    exact hi
  constructor
  case inspected =>
    show host'.audit.store.Inspected loader.opened
    rw [hstore]
    exact hinv.inspected
  case resolving =>
    intro i record hrecord
    obtain ⟨load, hi, hreads⟩ := hinv.resolving i record (hresolving i record hrecord)
    by_cases hsame : i = j
    · subst hsame
      rw [hj] at hi
      cases hi
      exact ⟨call', hself, hreads.later hartifact fun _ hmem => hmem⟩
    · exact ⟨load, hother i load hsame hi, hreads⟩
  case loads =>
    intro i load hi
    replace hi : host'.runtime.loads[i]? = some load := hi
    rw [hloads] at hi
    rcases Slots.get_set_cases hi with ⟨rfl, rfl⟩ | ⟨hne, hi⟩
    · simpa only [Function.update_self] using hcall'
    · simpa only [Function.update_of_ne hne] using hinv.loads i load hi
  case beyond =>
    intro i hi
    replace hi : host'.runtime.loads.length ≤ i := hi
    obtain ⟨hlt, -⟩ := List.getElem?_eq_some_iff.mp hself
    have hne : i ≠ j := by omega
    rw [hloads, List.length_set] at hi
    simpa only [Function.update_of_ne hne] using hinv.beyond i hi
  case models =>
    intro m model' hm
    rcases hmodels m model' hm with ⟨model, hbefore, hstem⟩ | ⟨hbuilt, spec, hgiven, hstem⟩
    · refine (hinv.models m model hbefore).later (fun i load hi hbuilt => ?_) hstem
      by_cases hsame : i = j
      · subst hsame
        rw [hj] at hi
        cases hi
        obtain ⟨hbuilt', hgiven⟩ := hkept m hbuilt
        exact ⟨call', hself, hbuilt', by simpa only [Function.update_self] using hgiven⟩
      · exact ⟨load, hother i load hsame hi, hbuilt, Function.update_of_ne hsame ..⟩
    · exact ⟨j, call', spec, hself, hbuilt, by simpa only [Function.update_self] using hgiven, hstem⟩

/-- A load that is not given anything at this step. -/
theorem Loader.Inv.unnoted (hinv : loader.Inv) (hj : loader.host.runtime.loads[j]? = some call)
    (hcall' : call'.Judged loader.opened (loader.judged j) (loader.specs j))
    (hartifact : call'.artifact = call.artifact)
    (hkept : ∀ m, call.built = some m → call'.built = some m)
    (hloads : host'.runtime.loads = loader.host.runtime.loads.set j call')
    (hmodels : ∀ (m : ℕ) (model' : Model), host'.runtime.models[m]? = some model' →
      (∃ model, loader.host.runtime.models[m]? = some model ∧
        ∀ descriptor, model.loaded.capabilities.StemFrom descriptor →
          model'.loaded.capabilities.StemFrom descriptor) ∨
      (call'.built = some m ∧ ∃ spec, loader.specs j = some spec ∧
        model'.loaded.capabilities.StemFrom spec.descriptor))
    (hstore : host'.audit.store = loader.host.audit.store)
    (hresolving : ∀ (i : ℕ) (record : Record), host'.resolving i = some record →
      loader.host.resolving i = some record) : Loader.Inv { loader with host := host' } := by
  have hmoved := hinv.moved hj hcall' hartifact (fun m hbuilt => ⟨hkept m hbuilt, rfl⟩) hloads
    hmodels hstore hresolving
  rwa [Function.update_eq_self, Function.update_eq_self] at hmoved

/-- A load that is asked for its artifact and not let through. -/
theorem Loader.Inv.asked (hinv : loader.Inv) (hj : loader.host.runtime.loads[j]? = some call)
    (hearly : call.pc.early = true) {pc : LoadPc} (hpc : pc.unstarted = true)
    {read : Option Record}
    (hreads : ∀ record, read = some record →
      loader.judged j = some record ∨ call.Reads loader.opened record)
    (hrefusal : ∀ reason, pc.refusal = some reason →
      ∃ record, read = some record ∧ Projector record reason)
    {footprint : Option ResourceFootprint}
    (hruntime : host'.runtime = loader.host.runtime.setLoad j ({ call with footprint }.goto pc))
    (hstore : host'.audit.store = loader.host.audit.store)
    (hresolving : ∀ (i : ℕ) (record : Record), host'.resolving i = some record →
      loader.host.resolving i = some record) :
    Loader.Inv { loader with
      host := host'
      specs := Function.update loader.specs j none
      judged := Function.update loader.judged j read } := by
  obtain ⟨-, hbuilt, hjudged⟩ :=
    (hinv.loads j call hj).early hearly hpc hreads hrefusal footprint
  have hloads := congrArg RuntimeState.loads hruntime
  refine hinv.moved hj hjudged rfl (fun m hsome => ?_) hloads (fun m model' hm => ?_) hstore hresolving
  · rw [hbuilt] at hsome
    cases hsome
  · rw [hruntime] at hm
    exact .inl ⟨model', hm, fun _ hstem => hstem⟩

/-- A load that is not judged, either. -/
theorem Loader.Inv.unjudged (hinv : loader.Inv) (hj : loader.host.runtime.loads[j]? = some call)
    (hearly : call.pc.early = true) {pc : LoadPc} (hpc : pc.unstarted = true)
    (hrefusal : pc.refusal = none) {footprint : Option ResourceFootprint}
    (hruntime : host'.runtime = loader.host.runtime.setLoad j ({ call with footprint }.goto pc))
    (hstore : host'.audit.store = loader.host.audit.store)
    (hresolving : ∀ (i : ℕ) (record : Record), host'.resolving i = some record →
      loader.host.resolving i = some record) : Loader.Inv { loader with host := host' } := by
  have hnone : ∀ reason, pc.refusal = some reason →
      ∃ record, loader.judged j = some record ∧ Projector record reason := by
    intro reason hreason
    rw [hrefusal] at hreason
    cases hreason
  have hreads : ∀ record, loader.judged j = some record →
      loader.judged j = some record ∨ call.Reads loader.opened record := fun _ h => .inl h
  obtain ⟨hgiven, -⟩ := (hinv.loads j call hj).early hearly hpc hreads hnone none
  have hasked := hinv.asked hj hearly hpc hreads hnone hruntime hstore hresolving
  rwa [← hgiven, Function.update_eq_self, Function.update_eq_self] at hasked

/-- A load that commits was let through, and its model is known as it was described. -/
theorem Loader.Inv.committed (hinv : loader.Inv) (hmanned : Manned loader.host.runtime)
    (hj : loader.host.runtime.loads[j]? = some call) (hpc : call.pc = .committing)
    {runtime : RuntimeState} {bytes : List UInt8}
    (hmodels : runtime.models = loader.host.runtime.models ++ [⟨call.build bytes, false⟩])
    (hloads : runtime.loads = loader.host.runtime.loads.set j
      ({ call with built := some loader.host.runtime.models.length }.goto
        (.fulfilling loader.host.runtime.models.length))) :
    Loader.Inv { loader with host := { loader.host with runtime } } := by
  have hlate : call.pc.unstarted = false := by rw [hpc]; rfl
  have hproceeds : call.Proceeds
      ({ call with built := some loader.host.runtime.models.length }.goto
        (.fulfilling loader.host.runtime.models.length)) :=
    .of_started rfl rfl (absurd hpc) hlate rfl rfl
  have hworker := hmanned.worker j call hj
  rw [hpc] at hworker
  have hjudged := hinv.loads j call hj
  refine hinv.unnoted hj (hjudged.proceeds hproceeds) rfl (fun m hbuilt => ?_) hloads
    (fun m model' hm => ?_) rfl fun i record hrecord => hrecord
  · rw [hworker.2] at hbuilt
    cases hbuilt
  · replace hm : runtime.models[m]? = some model' := hm
    rw [hmodels] at hm
    rcases Slots.get_push_cases hm with ⟨rfl, rfl⟩ | hm
    · refine .inr ⟨rfl, ?_⟩
      generalize loader.specs j = given at hjudged ⊢
      generalize loader.judged j = read at hjudged
      cases hjudged with
      | unstarted _ _ _ _ hunstarted =>
        rw [hlate] at hunstarted
        cases hunstarted
      | @started record spec hrecord hreads hspec =>
        refine ⟨spec, rfl, fun capability => .inl ?_⟩
        show indicatedByMetadata _ _ _ capability = _
        rw [hrecord, hspec.architecture, hspec.embeddingLength, hspec.hasChatTemplate]
        rfl
    · exact .inl ⟨model', hm, fun _ hstem => hstem⟩

theorem Loader.Inv.runtime_step {a : RuntimeAction} {runtime : RuntimeState} (hinv : loader.Inv)
    (hmanned : Manned loader.host.runtime) (hasks : a.asks = false)
    (h : RuntimeState.step ext loader.host.runtime a = some runtime) :
    Loader.Inv { loader with host := { loader.host with runtime } } := by
  by_cases hlonger : loader.host.runtime.models.length < runtime.models.length
  · obtain ⟨j, call, bytes, hj, hpc, hmodels, hloads⟩ := committed_of_longer h hlonger
    exact hinv.committed hmanned hj hpc hmodels hloads
  · have hkept {m : ℕ} {model' : Model} (hm : runtime.models[m]? = some model') :=
      model_kept h hlonger hm
    have hstill (hloads : ∀ (j : ℕ) (call : LoadCall), loader.host.runtime.loads[j]? = some call →
        runtime.loads[j]? = some call) : ∀ (m : ℕ) (model' : Model),
          runtime.models[m]? = some model' →
            Loader.Stems { loader with host := { loader.host with runtime } } m model' := by
      intro m model' hm
      obtain ⟨model, hbefore, hstem⟩ := hkept hm
      exact (hinv.models m model hbefore).later
        (fun j call hj hbuilt => ⟨call, hloads j call hj, hbuilt, rfl⟩) hstem
    cases proceeding_of_step h hasks with
    | same hloads =>
      constructor
      case inspected => exact hinv.inspected
      case resolving =>
        intro j record hrecord
        obtain ⟨call, hj, hreads⟩ := hinv.resolving j record hrecord
        exact ⟨call, hloads ▸ hj, hreads⟩
      case loads =>
        intro j call hj
        exact hinv.loads j call (hloads ▸ hj)
      case beyond =>
        intro j hj
        exact hinv.beyond j (hloads ▸ hj)
      case models => exact hstill fun j call hj => hloads ▸ hj
    | begun artifact hloads =>
      have hbefore (j : ℕ) (call : LoadCall) (hj : loader.host.runtime.loads[j]? = some call) :
          runtime.loads[j]? = some call := by
        rw [hloads]
        exact Slots.get_push_of_get hj _
      constructor
      case inspected => exact hinv.inspected
      case resolving =>
        intro j record hrecord
        obtain ⟨call, hj, hreads⟩ := hinv.resolving j record hrecord
        exact ⟨call, hbefore j call hj, hreads⟩
      case loads =>
        intro j call hj
        replace hj : runtime.loads[j]? = some call := hj
        rw [hloads] at hj
        rcases Slots.get_push_cases hj with ⟨rfl, rfl⟩ | hj
        · obtain ⟨hspecs, hjudged⟩ := hinv.beyond _ (Nat.le_refl _)
          show LoadCall.Judged _ _ (loader.judged _) (loader.specs _)
          rw [hspecs, hjudged]
          refine .unstarted rfl rfl rfl rfl rfl (fun record hread => ?_) fun reason hreason => ?_
          · cases hread
          · cases hreason
        · exact hinv.loads j call hj
      case beyond =>
        intro j hj
        replace hj : runtime.loads.length ≤ j := hj
        rw [hloads, List.length_append] at hj
        exact hinv.beyond j (by omega)
      case models => exact hstill hbefore
    | moved j call call' hj hloads hproceeds =>
      refine hinv.unnoted hj ((hinv.loads j call hj).proceeds hproceeds) hproceeds.artifact
        (fun m hbuilt => ?_) hloads (fun m model' hm => .inl (hkept hm)) rfl
        fun i record hrecord => hrecord
      have hcommitting : call.pc ≠ .committing := by
        intro hpc
        have hworker := hmanned.worker j call hj
        rw [hpc] at hworker
        rw [hworker.2] at hbuilt
        cases hbuilt
      exact (hproceeds.built hcommitting).trans hbuilt

theorem Loader.Inv.size {found : Except String (Option ModelArtifact)} (hinv : loader.Inv)
    (h : loader.host.stepLoad ext j (.size found) = some host') :
    Loader.Inv { loader with host := host' } := by
  obtain ⟨runtime, hruntime, rfl⟩ := Option.map_eq_some_iff.mp h
  obtain ⟨call, hj, hstep⟩ := stepLoad_cases hruntime
  cases hstep with
  | inside hnext =>
    cases LoadCall.next_cases hnext with
    | unsized hpc herr =>
      have hearly : call.pc.early = true := by rw [hpc]; rfl
      have hrefusal : (LoadPc.returned (.error _)).refusal = none := declaredFootprint_refusal herr
      exact hinv.unjudged hj hearly rfl hrefusal rfl rfl fun _ _ hrecord => hrecord
    | sized hpc hsize =>
      have hearly : call.pc.early = true := by rw [hpc]; rfl
      exact hinv.unjudged hj hearly rfl rfl rfl rfl fun _ _ hrecord => hrecord

theorem resolve_missing {id : String} {found : Except String (Option ModelArtifact)}
    {artifact : ModelArtifact} : resolve id found .missing ≠ .ok artifact := by
  intro h
  unfold resolve at h
  split at h
  · cases h
  · cases h
  · cases h

theorem Loader.Inv.unresolved {found : Except String (Option ModelArtifact)} (hinv : loader.Inv)
    (h : loader.host.stepLoad ext j (.prepare found .missing none) = some host') :
    Loader.Inv { loader with host := host' } := by
  obtain ⟨runtime, hruntime, rfl⟩ := Option.map_eq_some_iff.mp h
  obtain ⟨call, hj, hstep⟩ := stepLoad_cases hruntime
  cases hstep with
  | inside hnext =>
    cases LoadCall.next_cases hnext with
    | unresolved hpc herr =>
      have hearly : call.pc.early = true := by rw [hpc]; rfl
      have hrefusal : (LoadPc.releasing (some (.instance_ _))).refusal = none := resolve_refusal herr
      exact hinv.unjudged hj hearly rfl hrefusal rfl rfl fun _ _ hrecord => hrecord
    | prepared hpc hresolve => exact absurd hresolve resolve_missing

/-- What a load reads is a row, and a row is made of a header. -/
theorem Loader.Inv.get {failure : Option String} (hinv : loader.Inv)
    (hparsed : loader.host.audit.store.Parsed)
    (h : loader.host.step ext sha256 (.get j failure) = some host') :
    Loader.Inv { loader with host := host' } := by
  obtain ⟨call, hj, hcall⟩ := Option.bind_eq_some_iff.mp h
  split at hcall
  · split at hcall
    · rename_i record hget
      cases hcall
      have hrecord : loader.host.audit.store.get call.artifact = some record := by
        cases failure with
        | some err => cases hget
        | none => simpa [Registry.queried] using hget
      refine ⟨hinv.inspected, fun i other hother => ?_, hinv.loads, hinv.beyond, hinv.models⟩
      rcases Slots.update_cases hother with ⟨rfl, hread⟩ | ⟨-, hother⟩
      · cases hread
        exact ⟨call, hj, reads_of_get hparsed hinv.inspected hrecord⟩
      · exact hinv.resolving i other hother
    · exact hinv.unresolved hcall
  · cases hcall

theorem resolve_ok {id : String} {record artifact : ModelArtifact} {drift : ArtifactState}
    (h : resolve id (.ok (some record)) drift = .ok artifact) : artifact = record := by
  unfold resolve at h
  dsimp only at h
  split at h <;> cases h
  rfl

theorem Loader.started_identifying {record : Record} (hj : host.runtime.loads[j]? = some call)
    (hloads : host'.runtime.loads = host.runtime.loads.set j (call'.goto .identifying)) :
    Loader.started host' j record = some (specOf record.artifact) := by
  unfold Loader.started
  rw [hloads, Slots.get_set_self hj]
  rfl

theorem Loader.started_unstarted {record : Record} {pc : LoadPc} (hpc : pc.unstarted = true)
    (hj : host.runtime.loads[j]? = some call)
    (hloads : host'.runtime.loads = host.runtime.loads.set j (call'.goto pc)) :
    Loader.started host' j record = none := by
  unfold Loader.started
  rw [hloads, Slots.get_set_self hj]
  cases pc with
  | identifying => cases hpc
  | _ => rfl

/-- The preflight. -/
theorem Loader.Inv.check {failure : Option String} {record : Record} (hinv : loader.Inv)
    (hrecord : loader.host.resolving j = some record)
    (h : loader.host.step ext sha256
      (.check j failure (preflight (describe record.artifact))) = some host') :
    Loader.Inv { loader with
      host := host'
      specs := Function.update loader.specs j (Loader.started host' j record)
      judged := Function.update loader.judged j (some record) } := by
  obtain ⟨call, hj, hreads⟩ := hinv.resolving j record hrecord
  obtain ⟨found, hfound, hcall⟩ := Option.bind_eq_some_iff.mp h
  rw [hj] at hfound
  cases hfound
  obtain ⟨other, hother, hcheck⟩ := Option.bind_eq_some_iff.mp hcall
  rw [hrecord] at hother
  cases hother
  obtain ⟨runtime, hruntime, rfl⟩ := Option.map_eq_some_iff.mp hcheck
  have hresolving (i : ℕ) (other : Record)
      (hother : Function.update loader.host.resolving j none i = some other) :
      loader.host.resolving i = some other := by
    rcases Slots.update_cases hother with ⟨-, hnone⟩ | ⟨-, hother⟩
    · cases hnone
    · exact hother
  have hasked {pc : LoadPc} {checked : Host} (hpc : call.pc = .preparing)
      (hunstarted : pc.unstarted = true)
      (hrefusal : ∀ reason, pc.refusal = some reason → Projector record reason)
      (hmoved : checked.runtime = loader.host.runtime.setLoad j (call.goto pc))
      (hstore : checked.audit.store = loader.host.audit.store)
      (hbefore : ∀ (i : ℕ) (other : Record), checked.resolving i = some other →
        loader.host.resolving i = some other) :
      Loader.Inv { loader with
        host := checked
        specs := Function.update loader.specs j (Loader.started checked j record)
        judged := Function.update loader.judged j (some record) } := by
    have hearly : call.pc.early = true := by rw [hpc]; rfl
    have hnone : Loader.started checked j record = none :=
      Loader.started_unstarted hunstarted hj (congrArg RuntimeState.loads hmoved)
    rw [hnone]
    refine hinv.asked hj hearly hunstarted (fun other hother => ?_) (fun reason hreason => ?_)
      hmoved hstore hbefore
    · cases hother
      exact .inr hreads
    · exact ⟨record, rfl, hrefusal reason hreason⟩
  obtain ⟨moving, hmoving, hstep⟩ := stepLoad_cases hruntime
  replace hmoving : loader.host.runtime.loads[j]? = some moving := hmoving
  rw [hj] at hmoving
  cases hmoving
  cases hstep with
  | inside hnext =>
    generalize hverdict : preflight (describe record.artifact) = verdict at hnext
    cases LoadCall.next_cases hnext with
    | unresolved hpc herr =>
      have hrefusal : (LoadPc.releasing (some (.instance_ _))).refusal = none := resolve_refusal herr
      refine hasked hpc rfl (fun reason hreason => ?_) rfl rfl hresolving
      rw [hrefusal] at hreason
      cases hreason
    | @incompatible _ _ reason _ hpc =>
      obtain ⟨hclip, hreason⟩ := preflight_some hverdict
      refine hasked hpc rfl (fun other hother => ?_) rfl rfl hresolving
      cases hother
      exact ⟨hclip, hreason⟩
    | @prepared _ _ artifact hpc hresolve =>
      obtain rfl := resolve_ok hresolve
      rw [Loader.started_identifying hj rfl]
      have hspec := specifies_described record.artifact
      have hbuilt : call.built = none := by
        have hjudged := hinv.loads j call hj
        generalize loader.judged j = read at hjudged
        generalize loader.specs j = given at hjudged
        cases hjudged with
        | unstarted _ _ hbuilt => exact hbuilt
        | started _ _ _ _ hlate =>
          rw [hpc] at hlate
          cases hlate
      have hjudged : LoadCall.Judged
          ({ call with record := some record.artifact.loaded }.goto .identifying) loader.opened
          (some record) (some (specOf record.artifact)) :=
        .started rfl (hreads.later rfl fun _ hmem => hmem) hspec (preflight_none hverdict) rfl rfl
      refine hinv.moved hj hjudged rfl (fun m hsome => ?_) rfl
        (fun m model' hm => .inl ⟨model', hm, fun _ hstem => hstem⟩) rfl hresolving
      rw [hbuilt] at hsome
      cases hsome

theorem Loader.Inv.step {action : HostAction} (hinv : loader.Inv)
    (hmanned : Manned loader.host.runtime) (hparsed : loader.host.audit.store.Parsed)
    (h : loader.step ext sha256 action = some loader') : loader'.Inv := by
  cases action with
  | check j failure incompatible =>
    obtain ⟨record, hrecord, hcheck⟩ := Option.bind_eq_some_iff.mp h
    obtain ⟨host, hhost, rfl⟩ := Option.map_eq_some_iff.mp hcheck
    exact hinv.check hrecord hhost
  | registry action =>
    obtain ⟨host, hhost, rfl⟩ := Option.map_eq_some_iff.mp h
    obtain ⟨audit, haudit, rfl⟩ := Option.map_eq_some_iff.mp hhost
    have hmore : loader.opened ⊆ loader.host.audit.store.opens action ++ loader.opened :=
      List.subset_append_right _ _
    constructor
    case inspected => exact hinv.inspected.step haudit
    case resolving =>
      intro j record hrecord
      obtain ⟨call, hj, hreads⟩ := hinv.resolving j record hrecord
      exact ⟨call, hj, hreads.later rfl hmore⟩
    case loads =>
      intro j call hj
      exact (hinv.loads j call hj).mono hmore
    case beyond => exact hinv.beyond
    case models => exact hinv.models
  | runtime action =>
    obtain ⟨host, hhost, rfl⟩ := Option.map_eq_some_iff.mp h
    simp only [Host.step] at hhost
    split at hhost
    · cases hhost
    · rename_i hasks
      obtain ⟨runtime, hruntime, rfl⟩ := Option.map_eq_some_iff.mp hhost
      exact hinv.runtime_step hmanned (Bool.not_eq_true _ ▸ hasks) hruntime
  | size j failure =>
    obtain ⟨host, hhost, rfl⟩ := Option.map_eq_some_iff.mp h
    obtain ⟨call, hj, hcall⟩ := Option.bind_eq_some_iff.mp hhost
    exact hinv.size hcall
  | get j failure =>
    obtain ⟨host, hhost, rfl⟩ := Option.map_eq_some_iff.mp h
    exact hinv.get hparsed hhost

theorem Loader.Inv.init (h : (loaderSystem ext sha256).init loader) : loader.Inv := by
  obtain ⟨⟨⟨limits, hruntime⟩, haudit, hresolving, -⟩, hspecs, hopened⟩ := h
  constructor
  case inspected =>
    rw [hopened]
    exact Registry.inspected_init haudit
  case resolving =>
    intro j record hrecord
    rw [hresolving] at hrecord
    cases hrecord
  case loads =>
    intro j call hj
    rw [hruntime] at hj
    cases hj
  case beyond => exact fun j _ => hspecs j
  case models =>
    intro m model hm
    rw [hruntime] at hm
    cases hm

/-- The verdict of the backend is one of those that the host leaves open. -/
theorem host_step {action : HostAction} (h : loader.step ext sha256 action = some loader') :
    ∃ action', (hostSystem ext sha256).step loader.host action' = some loader'.host := by
  cases action with
  | check j failure incompatible =>
    obtain ⟨record, -, hcheck⟩ := Option.bind_eq_some_iff.mp h
    obtain ⟨host, hhost, rfl⟩ := Option.map_eq_some_iff.mp hcheck
    exact ⟨.check j failure _, hhost⟩
  | registry action =>
    obtain ⟨host, hhost, rfl⟩ := Option.map_eq_some_iff.mp h
    exact ⟨.registry action, hhost⟩
  | runtime action =>
    obtain ⟨host, hhost, rfl⟩ := Option.map_eq_some_iff.mp h
    exact ⟨.runtime action, hhost⟩
  | size j failure =>
    obtain ⟨host, hhost, rfl⟩ := Option.map_eq_some_iff.mp h
    exact ⟨.size j failure, hhost⟩
  | get j failure =>
    obtain ⟨host, hhost, rfl⟩ := Option.map_eq_some_iff.mp h
    exact ⟨.get j failure, hhost⟩

theorem host_reachable (h : Reachable (loaderSystem ext sha256) loader) :
    Reachable (hostSystem ext sha256) loader.host := by
  induction h with
  | init hinit => exact .init hinit.1
  | step _ _ hstep ih =>
    obtain ⟨action, hhost⟩ := host_step hstep
    exact ih.next action hhost

theorem Loader.inv_reachable (h : Reachable (loaderSystem ext sha256) loader) : loader.Inv := by
  refine h.invariant (I := Loader.Inv) (fun _ => Loader.Inv.init) ?_
  intro loader loader' action hreach hinv _ hstep
  obtain ⟨hruntime, haudit⟩ := parts_reachable (host_reachable hreach)
  exact hinv.step (reachable_manned hruntime) (Registry.parsed_of_reachable haudit) hstep

/-- The options that a worker is started with beside its model and its channel, against what is
known of the model that runs on it. -/
structure ModelCapabilities.Suits (capabilities : ModelCapabilities) (options : List String) :
    Prop where
  generation : ∀ evidence, capabilities .textGeneration = .indicated evidence → options = []
  embeddings : ∀ evidence, capabilities .embeddings = .indicated evidence →
    capabilities .textGeneration = .unknown → options = ["--embedding"]

theorem commandLine_options (hspec : spec.contextSize = none ∧ spec.gpuLayers = none)
    (channel : ℕ) (secretFile : String) :
    (commandLine spec channel secretFile).drop 9 =
      if launchMode spec.descriptor = .embedding then ["--embedding"] else [] := by
  obtain ⟨hcontext, hlayers⟩ := hspec
  simp [commandLine, hcontext, hlayers]

theorem ModelCapabilities.StemFrom.suits {capabilities : ModelCapabilities}
    (h : capabilities.StemFrom spec.descriptor) :
    capabilities.Suits (if launchMode spec.descriptor = .embedding then ["--embedding"] else []) := by
  constructor
  case generation =>
    intro evidence hindicated
    rcases h .textGeneration with hknown | ⟨now, backend, hverified⟩
    · rw [hindicated, indicatedByMetadata] at hknown
      split at hknown
      · rename_i htemplate
        refine if_neg fun hmode => ?_
        rw [(Backend.launchMode_embedding_iff.mp hmode).2] at htemplate
        cases htemplate
      · cases hknown
    · rw [hindicated] at hverified
      cases hverified
  case embeddings =>
    intro evidence hindicated hunknown
    rcases h .embeddings with hknown | ⟨now, backend, hverified⟩
    · rw [hindicated, indicatedByMetadata] at hknown
      split at hknown
      · rename_i hfamily
        have hbert := (Bool.and_eq_true_iff.mp hfamily).1
        rcases h .textGeneration with hplain | ⟨now, backend, hverified⟩
        · rw [hunknown, indicatedByMetadata] at hplain
          split at hplain
          · cases hplain
          · rename_i htemplate
            exact if_pos (Backend.launchMode_embedding_iff.mpr ⟨hbert, Bool.not_eq_true _ ▸ htemplate⟩)
        · rw [hunknown] at hverified
          cases hverified
      · cases hknown
    · rw [hindicated] at hverified
      cases hverified

/-- The mode that the worker of a model is started in is the one that its metadata speaks for. -/
theorem models_start_as_indicated (h : Reachable (loaderSystem ext sha256) loader) {m : ℕ}
    {model : Model} (hm : loader.host.runtime.models[m]? = some model) :
    ∃ (j : ℕ) (call : LoadCall) (spec : LlamaCppWorkerSpec),
      loader.host.runtime.loads[j]? = some call ∧ call.built = some m ∧ loader.specs j = some spec ∧
      ∀ channel secretFile,
        model.loaded.capabilities.Suits ((commandLine spec channel secretFile).drop 9) := by
  have hinv := Loader.inv_reachable h
  obtain ⟨j, call, spec, hj, hbuilt, hspec, hstem⟩ := hinv.models m model hm
  have hjudged := hinv.loads j call hj
  rw [hspec] at hjudged
  refine ⟨j, call, spec, hj, hbuilt, hspec, fun channel secretFile => ?_⟩
  generalize loader.judged j = read at hjudged
  cases hjudged with
  | started hrecord hreads hspecifies =>
    rw [commandLine_options ⟨hspecifies.contextSize, hspecifies.gpuLayers⟩]
    exact hstem.suits

/-! ### A container that is loaded -/

theorem registry_step {action : Registry.AuditAction}
    (h : (hostSystem ext sha256).step loader.host (.registry action) = some host') :
    (loaderSystem ext sha256).step loader (.registry action) = some { loader with
      host := host'
      opened := loader.host.audit.store.opens action ++ loader.opened } := by
  show loader.step ext sha256 (.registry action) = _
  replace h : loader.host.step ext sha256 (.registry action) = some host' := h
  simp only [Loader.step, h, Option.map_some]

theorem check_step {failure incompatible : Option String} {record : Record}
    (hrecord : loader.host.resolving j = some record)
    (h : (hostSystem ext sha256).step loader.host
      (.check j failure (preflight (describe record.artifact))) = some host') :
    (loaderSystem ext sha256).step loader (.check j failure incompatible) = some { loader with
      host := host'
      specs := Function.update loader.specs j (Loader.started host' j record)
      judged := Function.update loader.judged j (some record) } := by
  show loader.step ext sha256 (.check j failure incompatible) = _
  replace h : loader.host.step ext sha256
    (.check j failure (preflight (describe record.artifact))) = some host' := h
  simp only [Loader.step, hrecord, Option.bind_some, h, Option.map_some]

theorem check_runtime {failure incompatible : Option String}
    (h : (hostSystem ext sha256).step host (.check j failure incompatible) = some host') :
    ∃ call', host'.runtime = host.runtime.setLoad j call' := by
  obtain ⟨call, -, hcall⟩ := Option.bind_eq_some_iff.mp h
  obtain ⟨record, -, hcheck⟩ := Option.bind_eq_some_iff.mp hcall
  obtain ⟨runtime, hruntime, rfl⟩ := Option.map_eq_some_iff.mp hcheck
  obtain ⟨before, call', -, hset, -⟩ := stepLoad_prepare hruntime
  exact ⟨call', hset⟩

open MehoyRuntime.Registry (model querying)

/-- The container of an embedding model without a chat template. -/
def bert : Registry.Header where
  version := 3
  tensorCount := 0
  entries := [("general.architecture", .string "bert"), ("bert.embedding_length", .u32 384)]

theorem bert_fits : bert.Fits where
  version := .inr rfl
  tensorCount := by decide
  count := by decide
  distinct := by decide
  keys := by decide
  values := by
    have htext : "bert".utf8ByteSize ≤ 16777216 := by decide
    simp [bert, Registry.Value.Fits, Registry.MAX_STRING_BYTES, htext]

set_option maxRecDepth 4000 in
theorem bert_length : bert.encode.length = 105 := by decide

def bertVersion : Version := ⟨1, bert.encode, some 6⟩

def bertHeader : Registry.GgufHeader := ⟨3, 0, 2, Registry.entriesOf bert.entries ∅⟩

def bertRecord : Record :=
  ⟨(Registry.newArtifact Registry.sampleId model bertHeader (.observe bertVersion) 0).stored,
    bertVersion⟩

theorem bert_parsed :
    ∃ rest, Registry.parse (.ofBytes bertVersion.bytes) = .ok bertHeader rest := by
  have hsize : bert.encode.length ≤ Registry.MAX_HEADER_BYTES := by
    rw [bert_length]
    decide
  have hnext := Registry.next_ofBytes bert.encode [] Registry.MAX_HEADER_BYTES
  obtain ⟨rest, hrun, -⟩ := Registry.parses_header bert_fits _ hnext hsize
  rw [List.append_nil] at hrun
  exact ⟨rest, hrun⟩

theorem bert_described :
    describe bertRecord.artifact = ⟨some "bert", none, some 384, none, false⟩ := by
  decide

def startLoader : Loader := ⟨start, fun _ => none, fun _ => none, []⟩

/-- The container is put at its path and registered up to its header. -/
def openingBert : List HostAction :=
  ofRegistry ([.replace model bertVersion.bytes bertVersion.modified] ++ querying 0 ++
    [.call 0 (.done none), .call 0 (.done none)])

def openedLoader : Loader :=
  ((loaderSystem sampleExternals Audit.sampleSha256).run startLoader openingBert).getD startLoader

def parsedLoader : Loader :=
  { openedLoader with host := openedLoader.host.parsed 0 model bertVersion bertHeader }

/-- The container is registered, and a load has read its record twice. -/
def readLoader : Loader :=
  ((loaderSystem sampleExternals Audit.sampleSha256).run parsedLoader
    (sizing ++ [.get 0 none])).getD startLoader

theorem readLoader_reachable :
    Reachable (loaderSystem sampleExternals Audit.sampleSha256) readLoader := by
  have hinit : (loaderSystem sampleExternals Audit.sampleSha256).init startLoader :=
    ⟨start_init, fun _ => ⟨rfl, rfl⟩, rfl⟩
  have hopened : (loaderSystem sampleExternals Audit.sampleSha256).run startLoader openingBert =
      some openedLoader := rfl
  obtain ⟨rest, hparse⟩ := bert_parsed
  have hpoint : openedLoader.host.audit.store.calls 0 = .parsing model bertVersion := rfl
  have hhost := @step_parsed sampleExternals Audit.sampleSha256 _ _ _ _ _ _ hpoint hparse
  have hparsed : (loaderSystem sampleExternals Audit.sampleSha256).step openedLoader
      (.registry (.registry (.call 0 (.done none)))) = some parsedLoader := by
    rw [registry_step hhost]
    rfl
  have hread : (loaderSystem sampleExternals Audit.sampleSha256).run parsedLoader
      (sizing ++ [.get 0 none]) = some readLoader := rfl
  exact reachable_of_run ((reachable_of_run (.init hinit) hopened).next _ hparsed) hread

set_option maxRecDepth 4000 in
/-- The load of the container goes on to its backend. -/
theorem readLoader_checked : ∃ (checked : Loader) (call : LoadCall),
    (loaderSystem sampleExternals Audit.sampleSha256).step readLoader (.check 0 none none) =
      some checked ∧
    checked.judged 0 = some bertRecord ∧ call.record = some bertRecord.artifact.loaded ∧
    checked.host.runtime = readLoader.host.runtime.setLoad 0 (call.goto .identifying) := by
  obtain ⟨call, hj, hpc⟩ : ∃ call, readLoader.host.runtime.loads[0]? = some call ∧
      call.pc = .preparing := ⟨_, rfl, rfl⟩
  have hrecord : readLoader.host.resolving 0 = some bertRecord := rfl
  have hpath : bertRecord.artifact.path = model :=
    Registry.PathBuf.stored_of_text (Utf8.textOf_bytesOf "/m")
  have hfile : readLoader.host.audit.store.files model = some bertVersion := rfl
  rw [← hpath] at hfile
  have hfaithful : bertRecord.Faithful := rfl
  have hsize : (bert.encode.length : ℤ) ≤ Registry.i64Max := by
    rw [bert_length]
    decide
  have htime : ∀ time, some (6 : ℤ) = some time → 0 ≤ time ∧ time ≤ Registry.i64Max := by
    rintro time ⟨⟩
    decide
  have hdrift := Registry.detectDrift_untouched hfaithful hsize htime
  obtain ⟨host, hcheck, -, hload⟩ := @step_checked sampleExternals Audit.sampleSha256 _ 0 _ _
    bertVersion hj hpc hrecord hfile hdrift
  have hverdict : preflight (describe bertRecord.artifact) = none := by
    rw [bert_described]
    rfl
  obtain ⟨call', hruntime⟩ := check_runtime hcheck
  rw [hruntime] at hload
  have hset : (readLoader.host.runtime.setLoad 0 call').loads[0]? = some call' :=
    Slots.get_set_self hj call'
  rw [hset] at hload
  rw [Option.some.inj hload] at hruntime
  rw [← hverdict] at hcheck
  exact ⟨_, { call with record := some _ }, check_step hrecord hcheck, rfl, rfl, hruntime⟩

/-- The rest of the load, up to its model. -/
def committing : List HostAction :=
  [.runtime (.stepLoad 0 (.identified none (.ok ()))), .runtime (.stepLoad 0 (.spawned (.ok ()))),
    .runtime (.stepLoad 0 (.waited .ready)), .runtime (.stepLoad 0 (.probed .accepted)),
    .runtime (.stepLoad 0 (.commit (.ok [])))]

set_option maxRecDepth 4000 in
theorem committing_runs (checked : Loader) {call : LoadCall}
    (hrecord : call.record = some bertRecord.artifact.loaded)
    (hruntime : checked.host.runtime = readLoader.host.runtime.setLoad 0 (call.goto .identifying)) :
    ∃ (loader : Loader) (call : LoadCall) (model : Model),
      (loaderSystem sampleExternals Audit.sampleSha256).run checked committing = some loader ∧
      loader.judged = checked.judged ∧
      loader.host.runtime.loads[0]? = some call ∧ loader.host.runtime.models[0]? = some model ∧
      model.loaded.capabilities = indicatedByMetadata (some "bert") (some 384) false := by
  obtain ⟨⟨runtime, audit, resolving, passed⟩, specs⟩ := checked
  obtain ⟨artifact, footprint, reserved, record, identity, stopFailed, built, pc⟩ := call
  replace hruntime : runtime = _ := hruntime
  replace hrecord : record = _ := hrecord
  subst hruntime hrecord
  exact ⟨_, _, _, rfl, rfl, rfl, rfl, rfl⟩

theorem committed_reachable : ∃ (loader : Loader) (call : LoadCall) (model : Model),
    Reachable (loaderSystem sampleExternals Audit.sampleSha256) loader ∧
    loader.judged 0 = some bertRecord ∧
    loader.host.runtime.loads[0]? = some call ∧ loader.host.runtime.models[0]? = some model ∧
    model.loaded.capabilities = indicatedByMetadata (some "bert") (some 384) false := by
  obtain ⟨checked, call, hcheck, hjudged, hrecord, hruntime⟩ := readLoader_checked
  obtain ⟨loader, call, model, hrun, hkept, hj, hm⟩ := committing_runs checked hrecord hruntime
  have hreach := reachable_of_run (readLoader_reachable.next _ hcheck) hrun
  rw [← hkept] at hjudged
  exact ⟨loader, call, model, hreach, hjudged, hj, hm⟩

/-- The model embeds and does not generate. -/
theorem models_start_as_indicated_plain : ∃ (loader : Loader) (model : Model),
    Reachable (loaderSystem sampleExternals Audit.sampleSha256) loader ∧
    loader.host.runtime.models[0]? = some model ∧
    model.loaded.capabilities .embeddings = .indicated .metadata ∧
    model.loaded.capabilities .textGeneration = .unknown ∧
    ∃ (j : ℕ) (call : LoadCall) (spec : LlamaCppWorkerSpec),
      loader.host.runtime.loads[j]? = some call ∧ call.built = some 0 ∧ loader.specs j = some spec ∧
      ∀ channel secretFile,
        model.loaded.capabilities.Suits ((commandLine spec channel secretFile).drop 9) := by
  obtain ⟨loader, call, model, hreach, -, -, hm, hcapabilities⟩ := committed_reachable
  refine ⟨loader, model, hreach, hm, ?_, ?_, models_start_as_indicated hreach hm⟩
  · rw [hcapabilities]
    rfl
  · rw [hcapabilities]
    rfl

end MehoyRuntime.Runtime
