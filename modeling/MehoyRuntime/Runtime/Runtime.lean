import MehoyRuntime.Runtime.Load

/-!
# The runtime

`Runtime` with any number of loads and unloads in flight, and everything callers do with
the models it holds. A section under the ledger lock is one step. A model goes on existing
after it was forgotten, for the calls that resolved it before.
-/

namespace MehoyRuntime.Runtime
open MehoyRuntime.Core MehoyRuntime.Stream TransitionSystem KeyedTable

/-- A model that was built. It can be resolved once it is `published`. -/
structure Model where
  loaded : LoadedModel.State
  published : Bool

inductive UnloadingPc
  | requiring
  | resolved
  | awaiting (call : ℕ)
  | checking (result : Except LoadError UnloadOutcome)
  | removing (outcome : UnloadOutcome)
  | returned (result : Except RuntimeError UnloadOutcome)
  | dropped
  | panicked
  deriving DecidableEq

/-- A call of `Runtime::unload_within`. `model` is what it resolved. -/
structure Unloading where
  id : InstanceId
  drain : ℕ
  model : Option ℕ
  pc : UnloadingPc
  deriving DecidableEq

inductive UnloadingAction
  | require
  | begin
  | outcome
  | check
  | remove
  | drop
  deriving DecidableEq

structure RuntimeState where
  limits : ResidentLimits
  ledger : Ledger
  loads : List LoadCall
  models : List Model
  unloads : List Unloading
  allocated : ℕ

def defaultDrain : ℕ := 10 * 10 ^ 9

inductive RuntimeAction
  | load (artifact : String)
  | stepLoad (call : ℕ) (action : LoadAction)
  | unloadWithin (id : InstanceId) (drain : ℕ)
  | stepUnload (call : ℕ) (action : UnloadingAction)
  | onModel (model : ℕ) (action : LoadedModel.Action)
  | recordGenerationStream (model source request now : ℕ)

/-- What callers do with a model they resolved. -/
def LoadedModel.Action.byCaller : LoadedModel.Action → Bool
  | .beginUnload _ | .stepUnload _ _ | .dropUnload _ | .recordGenerationStream _ _ => false
  | _ => true

/-- The steps an unload call that is under way takes by itself. -/
def LoadedModel.Action.underway : LoadedModel.Action → Bool
  | .stepUnload _ _ => true
  | _ => false

namespace RuntimeState

def withLimits (limits : ResidentLimits) : RuntimeState where
  limits := limits
  ledger := .default
  loads := []
  models := []
  unloads := []
  allocated := 0

def usage (s : RuntimeState) : ResidentUsage := s.ledger.committed

def footprint (s : RuntimeState) (id : InstanceId) : Option ResourceFootprint :=
  (s.ledger.resident.lookup id).map Resident.footprint

def resolve (s : RuntimeState) (id : InstanceId) : Option ℕ :=
  (s.ledger.resident.lookup id).map Resident.model

def require (s : RuntimeState) (id : InstanceId) : Except RuntimeError ℕ :=
  match s.resolve id with
  | none => .error (.unknownInstance id)
  | some model => .ok model

def setLoad (s : RuntimeState) (j : ℕ) (call : LoadCall) : RuntimeState :=
  { s with loads := s.loads.set j call }

def setUnload (s : RuntimeState) (j : ℕ) (call : Unloading) : RuntimeState :=
  { s with unloads := s.unloads.set j call }

def addModel (s : RuntimeState) (loaded : LoadedModel.State) : RuntimeState :=
  { s with models := s.models ++ [⟨loaded, false⟩] }

def act (ext : Externals) (s : RuntimeState) (m : ℕ) (a : LoadedModel.Action) :
    Option RuntimeState :=
  (s.models[m]?).bind fun model =>
    (LoadedModel.step ext model.loaded a).map fun loaded =>
      { s with models := s.models.set m { model with loaded := loaded } }

def nextCall (s : RuntimeState) (m : ℕ) : ℕ :=
  (s.models[m]?).elim 0 fun model => model.loaded.unloads.length

def unloadPc (s : RuntimeState) (m k : ℕ) : Option UnloadPc :=
  (s.models[m]?).bind fun model => (model.loaded.unloads[k]?).map UnloadCall.pc

def publish (s : RuntimeState) (m : ℕ) : RuntimeState :=
  match s.models[m]? with
  | some model => { s with models := s.models.set m { model with published := true } }
  | none => s

def stepLoad (ext : Externals) (s : RuntimeState) (j : ℕ) (a : LoadAction) :
    Option RuntimeState :=
  (s.loads[j]?).bind fun call =>
    match call.pc, a with
    | .reserving footprint, .reserve =>
      -- The check and the claim are one section under the ledger lock.
      match s.ledger.reserve s.limits footprint with
      | .error err => some (s.setLoad j (call.goto (.returned (.error err))))
      | .ok (id, ledger) =>
        some ({ s with ledger := ledger, allocated := s.allocated + 1 }.setLoad j
          ((call.admitted ⟨id, footprint⟩).goto .preparing))
    | .committing, .commit (.ok bytes) =>
      some ((s.addModel (call.build bytes)).setLoad j
        ({ call with built := some s.models.length }.goto (.fulfilling s.models.length)))
    | .fulfilling m, .fulfil =>
      (s.models[m]?).bind fun model =>
        call.reserved.map fun claim =>
          -- The guard is settled either way; a model that is handed back is this load's to stop.
          match s.ledger.fulfil claim.1 model.loaded.id m with
          | (.ok id, ledger) =>
            ({ s with ledger := ledger }.publish m).setLoad j
              (call.settled.goto (.returned (.ok id)))
          | (.error reason, ledger) =>
            { s with ledger := ledger }.setLoad j
              (call.settled.goto (.rejected reason m))
    | .rejected reason m, .beginTeardown =>
      (s.act ext m (.beginUnload defaultDrain)).map fun s' =>
        s'.setLoad j (call.goto (.tearing reason m (s.nextCall m)))
    | .tearing reason m k, .torn =>
      match s.unloadPc m k with
      | some (.returned (.ok _)) =>
        some (s.setLoad j (call.goto (.returned (.error (.instance_ (.instance_ reason))))))
      | some (.returned (.error err)) =>
        some (s.setLoad j (call.goto (.returned (.error (.instance_ (.instance_
          (describeRollback reason (.error err.display))))))))
      | some .panicked => some (s.setLoad j (call.goto .panicked))
      | _ => none
    | .tearing _ m k, .drop =>
      (s.act ext m (.dropUnload k)).map fun s' => s'.setLoad j (call.goto .dropped)
    | .releasing result, .release =>
      let ledger := match call.reserved with
        | some claim => s.ledger.release claim.1
        | none => s.ledger
      some ({ s with ledger := ledger }.setLoad j (call.settled.goto
        (match result with
          | some err => .returned (.error err)
          | none => .dropped)))
    | pc, a => (call.next pc a).map (s.setLoad j)

/-- One step of a call of `unload_within` that resolved its model. -/
def unloadModel (ext : Externals) (s : RuntimeState) (j : ℕ) (call : Unloading) (m : ℕ) :
    UnloadingPc → UnloadingAction → Option RuntimeState
  | .resolved, .begin =>
    (s.act ext m (.beginUnload call.drain)).map fun s' =>
      s'.setUnload j { call with pc := .awaiting (s.nextCall m) }
  | .awaiting k, .outcome =>
    match s.unloadPc m k with
    | some (.returned result) => some (s.setUnload j { call with pc := .checking result })
    | some .panicked => some (s.setUnload j { call with pc := .panicked })
    | _ => none
  | .awaiting k, .drop =>
    (s.act ext m (.dropUnload k)).map fun s' => s'.setUnload j { call with pc := .dropped }
  | .checking (.ok outcome), .check =>
    (s.models[m]?).map fun model =>
      -- Whatever its own call answered, the phase decides whether the entry is forgotten.
      if model.loaded.phase = .unloaded then s.setUnload j { call with pc := .removing outcome }
      else s.setUnload j { call with pc := .returned (.ok outcome) }
  | .checking (.error err), .check =>
    some (s.setUnload j { call with pc := .returned (.error (.instance_ err)) })
  | .removing outcome, .remove =>
    -- By identifier, in a section of its own: what stands there may be another model by now.
    some ({ s with ledger := s.ledger.remove call.id }.setUnload j
      { call with pc := .returned (.ok outcome) })
  | _, _ => none

def stepUnload (ext : Externals) (s : RuntimeState) (j : ℕ) (a : UnloadingAction) :
    Option RuntimeState :=
  (s.unloads[j]?).bind fun call =>
    match call.pc, a with
    | .requiring, .require =>
      match s.require call.id with
      | .error err => some (s.setUnload j { call with pc := .returned (.error err) })
      | .ok m => some (s.setUnload j { call with model := some m, pc := .resolved })
    | .requiring, .drop => some (s.setUnload j { call with pc := .dropped })
    | pc, a => call.model.bind fun m => s.unloadModel ext j call m pc a

/-- What a stream that its consumer still holds has demonstrated. -/
def demonstrated (s : RuntimeState) (source request : ℕ) : Option Bool :=
  (s.models[source]?).bind fun model =>
    match model.loaded.admitted[request]? with
    | some (.stream t) =>
      if t.chan.receiverAlive then some t.chan.stream.demonstratedGeneration else none
    | _ => none

def step (ext : Externals) (s : RuntimeState) : RuntimeAction → Option RuntimeState
  | .load artifact => some { s with loads := s.loads ++ [.new artifact] }
  | .stepLoad j action => s.stepLoad ext j action
  | .unloadWithin id drain => some { s with unloads := s.unloads ++ [⟨id, drain, none, .requiring⟩] }
  | .stepUnload j action => s.stepUnload ext j action
  | .onModel m action =>
    (s.models[m]?).bind fun model =>
      if action.underway || (action.byCaller && model.published) then s.act ext m action else none
  | .recordGenerationStream m source request now =>
    (s.models[m]?).bind fun model =>
      if model.published then
        (s.demonstrated source request).bind fun d => s.act ext m (.recordGenerationStream d now)
      else none

end RuntimeState

def runtimeSystem (ext : Externals) : System RuntimeState RuntimeAction where
  init s := ∃ limits, s = .withLimits limits
  step := RuntimeState.step ext

theorem reachable_of_withLimits {ext : Externals} {limits : ResidentLimits}
    {as : List RuntimeAction} {s : RuntimeState}
    (h : (runtimeSystem ext).run (.withLimits limits) as = some s) :
    Reachable (runtimeSystem ext) s :=
  reachable_of_run (.init ⟨limits, rfl⟩) h

end MehoyRuntime.Runtime
