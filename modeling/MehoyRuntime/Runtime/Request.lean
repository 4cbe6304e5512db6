import MehoyRuntime.Stream.Execute
import MehoyRuntime.Runtime.Vocabulary

/-!
# Requests of an instance

What one admitted request of each task class goes through. The two whole-response
classes share their shape: a biased select between the token and the backend's answer,
polled as one step, then one outcome on the handle. The answer arrives at some moment of
its own, which `late` compares with the first stop of the worker.
-/

namespace MehoyRuntime.Runtime
open MehoyRuntime.Core MehoyRuntime.Stream

inductive WholeRequest
  | embed (request : EmbedRequest)
  | generateText (request : GenerateTextRequest)
  deriving DecidableEq, Repr

inductive WholeResult
  | embeddings (result : EmbeddingResult)
  | generation (result : GenerationResult)
  deriving DecidableEq, Repr

inductive Sent
  | embed (outcome : Except EmbedError EmbeddingResult)
  | generate (outcome : Except GenerateError GenerationResult)
  deriving DecidableEq

def Sent.answers : Sent → WholeRequest → Bool
  | .embed _, .embed _ | .generate _, .generateText _ => true
  | _, _ => false

def WholeRequest.capability : WholeRequest → ModelCapability
  | .embed _ => .embeddings
  | .generateText _ => .textGeneration

/-- The rest of `embed` or `generate_text` once the answer is there: the outcome for the
handle and the result for the caller. Only an answer of the request's own class arrives. -/
def conclude : WholeRequest → Sent → RequestState × Except LoadError WholeResult
  | .embed _, .embed (.error source) => (.failed, .error (.inference source.display))
  | .embed asked, .embed (.ok result) =>
    match validate asked result with
    | .error defect => (.failed, .error (.unusableResult defect.display))
    | .ok () => (.completed, .ok (.embeddings result))
  | .generateText _, .generate (.error source) => (.failed, .error (.inference source.display))
  | .generateText _, .generate (.ok result) =>
    match validateGeneration result with
    | .error defect => (.failed, .error (.unusableResult defect.display))
    | .ok () => (.completed, .ok (.generation result))
  | .embed _, .generate _ | .generateText _, .embed _ => (.failed, .error (.inference ""))

/-- An answer, and whether the worker's first stop had been called when it arrived. -/
structure Arrival where
  late : Bool
  sent : Sent
  deriving DecidableEq

inductive WholePc
  | admitted
  | selecting (polled : Bool)
  | stopped (cause : CancellationCause)
  | sent (sent : Sent)
  | verifying (result : WholeResult)
  | returned (result : Except LoadError WholeResult)
  | dropped
  deriving DecidableEq

structure Whole where
  request : WholeRequest
  verify : Bool
  handle : RequestHandle
  transport : Option Arrival
  pc : WholePc
  deriving DecidableEq

inductive WholeAction
  | markRunning
  | arrive (sent : Sent)
  | poll
  | settle
  | drop
  deriving DecidableEq

namespace Whole

/-- One poll of the select: the token first, then the backend. -/
def poll (w : Whole) : Whole :=
  match w.handle.cancellationCause with
  | some cause => { w with pc := .stopped cause }
  | none =>
    match w.transport with
    | some arrival => { w with pc := .sent arrival.sent }
    | none => { w with pc := .selecting true }

def finish (w : Whole) (outcome : RequestState) (pc : WholePc) : Whole :=
  { w with handle := (w.handle.finish outcome).2, pc := pc }

def resultPc (w : Whole) : Except LoadError WholeResult → WholePc
  | .ok result => if w.verify then .verifying result else .returned (.ok result)
  | .error err => .returned (.error err)

/-- One step of the caller's future, or of the backend. A future can only be dropped
where it is suspended, which is in the select. -/
def step (stopCalled : Bool) (w : Whole) : WholePc → WholeAction → Option Whole
  | .admitted, .markRunning =>
    some { w with handle := w.handle.markRunning, pc := .selecting false }
  | .selecting _, .arrive sent =>
    if w.transport = none ∧ sent.answers w.request then
      some { w with transport := some ⟨stopCalled, sent⟩ }
    else none
  | .selecting _, .poll => some w.poll
  | .selecting true, .drop => some { w with pc := .dropped }
  | .stopped cause, .settle => some (w.finish .cancelled (.returned (.error (.stopped cause))))
  | .sent sent, .settle =>
    some (w.finish (conclude w.request sent).1 (w.resultPc (conclude w.request sent).2))
  | _, _ => none

inductive Step (late : Bool) (w : Whole) : WholeAction → Whole → Prop
  | running (hpc : w.pc = .admitted) :
      Step late w .markRunning { w with handle := w.handle.markRunning, pc := .selecting false }
  | arrived {polled sent} (hpc : w.pc = .selecting polled) (hnone : w.transport = none) :
      Step late w (.arrive sent) { w with transport := some ⟨late, sent⟩ }
  | told {polled cause} (hpc : w.pc = .selecting polled)
      (hcause : w.handle.cancellationCause = some cause) :
      Step late w .poll { w with pc := .stopped cause }
  | answered {polled arrival} (hpc : w.pc = .selecting polled)
      (hcause : w.handle.cancellationCause = none) (harrival : w.transport = some arrival) :
      Step late w .poll { w with pc := .sent arrival.sent }
  | waiting {polled} (hpc : w.pc = .selecting polled)
      (hcause : w.handle.cancellationCause = none) (hnone : w.transport = none) :
      Step late w .poll { w with pc := .selecting true }
  | dropped (hpc : w.pc = .selecting true) : Step late w .drop { w with pc := .dropped }
  | stopped {cause} (hpc : w.pc = .stopped cause) :
      Step late w .settle (w.finish .cancelled (.returned (.error (.stopped cause))))
  | settled {sent} (hpc : w.pc = .sent sent) :
      Step late w .settle (w.finish (conclude w.request sent).1
        (w.resultPc (conclude w.request sent).2))

theorem step_cases {late : Bool} {w w' : Whole} {a : WholeAction}
    (h : w.step late w.pc a = some w') : w.Step late a w' := by
  unfold step at h
  split at h
  case h_1 hpc =>
    cases h
    exact .running hpc
  case h_2 hpc =>
    split at h <;> cases h
    rename_i hfree
    exact .arrived hpc hfree.1
  case h_3 hpc =>
    cases h
    unfold poll
    split
    · rename_i hcause
      exact .told hpc hcause
    · rename_i hcause
      split
      · rename_i harrival
        exact .answered hpc hcause harrival
      · rename_i hnone
        exact .waiting hpc hcause hnone
  case h_4 hpc =>
    cases h
    exact .dropped hpc
  case h_5 hpc =>
    cases h
    exact .stopped hpc
  case h_6 hpc =>
    cases h
    exact .settled hpc
  case h_7 => cases h

end Whole

/-- A request that was admitted. A streaming one is `accepted` until its task starts. -/
inductive Request
  | whole (w : Whole)
  | accepted (handle : RequestHandle) (body : Except String (List UInt8))
  | stream (s : Stream.State)
  deriving DecidableEq

namespace Request

def handle : Request → RequestHandle
  | .whole w => w.handle
  | .accepted handle _ => handle
  | .stream s => s.chan.handle

def withHandle : Request → RequestHandle → Request
  | .whole w, h => .whole { w with handle := h }
  | .accepted _ body, h => .accepted h body
  | .stream s, h => .stream (s.withHandle h)

def executing : Request → Bool
  | .whole w =>
    match w.pc with
    | .returned _ | .dropped => false
    | _ => true
  | .accepted _ _ => true
  | .stream s =>
    match s.pc with
    | .done | .aborted => false
    | _ => true

def isTerminal (r : Request) : Bool := r.handle.isTerminal

def dropped : Request → Bool
  | .whole w =>
    match w.pc with
    | .dropped => true
    | _ => false
  | .accepted _ _ | .stream _ => false

@[simp] theorem withHandle_handle (r : Request) (h : RequestHandle) :
    (r.withHandle h).handle = h := by
  cases r <;> rfl

@[simp] theorem withHandle_dropped (r : Request) (h : RequestHandle) :
    (r.withHandle h).dropped = r.dropped := by
  cases r <;> rfl

end Request

inductive RequestAction
  | whole (action : WholeAction)
  | startGeneration
  | stream (action : Stream.Action)
  deriving DecidableEq

def Request.step (ext : Externals) (stopCalled : Bool) : Request → RequestAction → Option Request
  | .whole w, .whole action => (w.step stopCalled w.pc action).map .whole
  | .accepted handle body, .startGeneration => some (.stream (Stream.startGeneration handle body))
  | .stream s, .stream action => (Stream.step ext s action).map .stream
  | _, _ => none

end MehoyRuntime.Runtime
