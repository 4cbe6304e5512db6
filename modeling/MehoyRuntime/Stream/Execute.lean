import MehoyRuntime.Lib.System
import MehoyRuntime.Stream.Channel
import MehoyRuntime.Stream.Wire

/-!
# The execution task of a streaming generation

`execute` and `read` as a step function. Between two awaits the task runs in steps of
its own; a biased select is polled in parts, the token first, then the consumer, then
the work with its idle budget, so that every order of the other parties' actions with
these parts is a run. Each update of the handle and each send is a step.
-/

namespace MehoyRuntime.Stream
open MehoyRuntime.Core TransitionSystem

inductive Interruption
  | cancelled (cause : CancellationCause)
  | failed (error : GenerationStreamError)
  deriving DecidableEq, Repr

inductive EndOfBody
  | marked
  | closed
  deriving DecidableEq, Repr

/-- The selects of `within`, by the work they wait for, and the one in `read`. -/
inductive AwaitPoint
  | connecting
  | handshaking
  | sending
  | collecting (status : ℕ)
  | reading
  deriving DecidableEq, Repr

inductive PollStage
  | token
  | closed
  | work
  deriving DecidableEq, Repr

inductive Pc
  | start
  | awaiting (point : AwaitPoint) (stage : PollStage)
  | building
  | handling (payloads : List String)
  | emitting (text : String) (rest : List String)
  | closing (outcome : Except Interruption EndOfBody)
  | cancelling (cause : CancellationCause)
  | finishing (outcome : RequestState) (item : StreamItem)
  | announcing (item : StreamItem)
  | done
  | aborted
  deriving DecidableEq, Repr

inductive Pump
  | unspawned
  | running
  | aborted
  deriving DecidableEq, Repr

def Pump.abort : Pump → Pump
  | .unspawned => .unspawned
  | .running | .aborted => .aborted

/-- What the task holds of its request's transport: a connection not yet handed to the
connection task, that task, and the response body. -/
structure Transport where
  connection : Bool
  pump : Pump
  body : Bool
  deriving DecidableEq, Repr

def Transport.release (t : Transport) : Transport := ⟨false, t.pump.abort, false⟩

structure State where
  chan : Channel
  body : Except String (List UInt8)
  pc : Pc
  transport : Transport
  decoder : SseDecoder
  terminal : Option GenerationSummary
  deriving DecidableEq

/-- `start_generation`: the stream and its task, which has not been polled yet. -/
def startGeneration (handle : RequestHandle) (body : Except String (List UInt8)) : State where
  chan := generationStream handle
  body := body
  pc := .start
  transport := ⟨false, .unspawned, false⟩
  decoder := .default
  terminal := none

/-- What the work of a select came back with. Errors are the text of the source's. -/
inductive WorkOutcome
  | connected (outcome : Except String Unit)
  | handshaken (outcome : Except String Unit)
  | answered (outcome : Except String ℕ)
  | collected (outcome : Except String (List UInt8))
  | frame (outcome : Option (Except String (Option (List UInt8))))
  deriving DecidableEq

inductive TaskAction
  | run
  | pollToken
  | pollClosed
  | pollWork (outcome : WorkOutcome)
  | pollElapsed
  | pollPending
  | built (outcome : Except String Unit)
  | send
  deriving DecidableEq

inductive Action
  | task (action : TaskAction)
  | abort
  | requestCancellation (cause : CancellationCause)
  | next
  | dropStream
  deriving DecidableEq

namespace State

def goto (s : State) (pc : Pc) : State := { s with pc := pc }

def withHandle (s : State) (h : RequestHandle) : State :=
  { s with chan := { s.chan with handle := h } }

/-- The task ends: what is left of the sink is dropped. -/
def ended (s : State) (pc : Pc) : State := { s with chan := s.chan.dropSink, pc := pc }

/-- The start of every method that consumes the sink. -/
def consumeSink (s : State) (pc : Pc) : State :=
  if s.chan.sinkFinished then s.ended .done
  else { s with chan := { s.chan with sinkFinished := true }, pc := pc }

def requestId (s : State) : RequestId := s.chan.handle.id

def complete (s : State) (summary : GenerationSummary) : State :=
  s.consumeSink (.finishing .completed (.ok (.completed s.requestId summary)))

def cancel (s : State) (cause : CancellationCause) : State := s.consumeSink (.cancelling cause)

def fail (s : State) (error : GenerationStreamError) : State :=
  s.consumeSink (.finishing .failed (.error error))

def release (s : State) : State := { s with transport := s.transport.release }

/-- A task that is dropped drops what it holds; the connection task is only detached. -/
def abandon (s : State) : State :=
  { s with transport := { s.transport with connection := false, body := false } }

def interrupted (s : State) (point : AwaitPoint) (cause : CancellationCause) : State :=
  match point with
  | .reading => s.goto (.closing (.error (.cancelled cause)))
  | .connecting | .handshaking | .sending | .collecting _ => s.release.cancel cause

/-- The idle budget ran out: the token is told, and what it holds then is the cause. -/
def elapsed (s : State) (point : AwaitPoint) : State :=
  let s' := s.withHandle (s.chan.handle.cancelToken .streamIdleTimeout)
  s'.interrupted point (s'.chan.handle.cancellationCause.getD .streamIdleTimeout)

def framed (s : State) : Option (Except String (Option (List UInt8))) → State
  | none => s.goto (.closing (.ok .closed))
  | some (.error detail) => s.goto (.closing (.error (.failed (.transport detail))))
  | some (.ok none) => s.goto (.awaiting .reading .token)
  | some (.ok (some chunk)) =>
    match s.decoder.push chunk with
    | (.error detail, decoder) =>
      { s with decoder, pc := .closing (.error (.failed (.malformedEvent detail))) }
    | (.ok payloads, decoder) => { s with decoder, pc := .handling payloads }

def answered (s : State) (status : ℕ) : State :=
  let s' := s.withHandle s.chan.handle.markRunning
  let point := if isSuccess status then .reading else .collecting status
  { s' with
    transport := { s'.transport with connection := false, body := true }
    pc := .awaiting point .token }

def resumed (ext : Externals) (s : State) : AwaitPoint → WorkOutcome → Option State
  | .connecting, .connected (.error detail) => some (s.release.fail (.transport detail))
  | .connecting, .connected (.ok ()) => some (s.goto (.awaiting .handshaking .token))
  | .handshaking, .handshaken (.error detail) => some (s.release.fail (.transport detail))
  | .handshaking, .handshaken (.ok ()) =>
    some { s with transport := ⟨false, .running, false⟩, pc := .building }
  | .sending, .answered (.error detail) => some (s.release.fail (.transport detail))
  | .sending, .answered (.ok status) => some (s.answered status)
  | .collecting _, .collected (.error detail) => some (s.release.fail (.refused detail))
  | .collecting status, .collected (.ok bytes) =>
    some (s.release.fail (.refused (classify ext status bytes).display))
  | .reading, .frame outcome => some (s.framed outcome)
  | _, _ => none

/-- The loop over the payloads of one push. -/
def handlePayloads (ext : Externals) (s : State) : List String → State
  | [] => s.goto (.awaiting .reading .token)
  | payload :: rest =>
    match readPayload ext s.terminal payload with
    | .marked => s.goto (.closing (.ok .marked))
    | .malformed detail => s.goto (.closing (.error (.failed (.malformedEvent detail))))
    | .skipped => s.goto (.handling rest)
    | .delta text terminal =>
      -- Recorded before the text is handed over: a last event with text still completes.
      let s' := { s with terminal }
      match s'.chan.delta text with
      | .returned true => s'.goto (.handling rest)
      | .returned false => s'.goto (.closing (.error (.cancelled .consumerGone)))
      | .sending => s'.goto (.emitting text rest)

def unexpectedEnd (s : State) : EndOfBody → String
  | .marked => "the backend ended the stream without reporting why generation stopped"
  | .closed =>
    if s.decoder.hasPartialEvent then
      "the backend closed the connection part way through an event"
    else "the backend closed the connection before completing"

/-- The end of `read`: the body is dropped and the connection task aborted first. -/
def close (s : State) (outcome : Except Interruption EndOfBody) : State :=
  let s' := s.release
  match outcome with
  | .error (.cancelled cause) => s'.cancel cause
  | .error (.failed error) => s'.fail error
  | .ok ending =>
    match s'.terminal with
    | some summary => s'.complete summary
    | none => s'.fail (.unexpectedEnd (s'.unexpectedEnd ending))

def taskStep (ext : Externals) (s : State) : Pc → TaskAction → Option State
  | .start, .run =>
    match s.body with
    | .error detail => some (s.fail (.transport detail))
    | .ok _ =>
      some { s with
        transport := { s.transport with connection := true }
        pc := .awaiting .connecting .token }
  -- The select is biased: the token is polled first, then the consumer, then the work
  -- under its idle budget.
  | .awaiting point .token, .pollToken =>
    match s.chan.handle.cancellationCause with
    | some cause => some (s.interrupted point cause)
    | none => some (s.goto (.awaiting point .closed))
  | .awaiting point .closed, .pollClosed =>
    if s.chan.receiverAlive then some (s.goto (.awaiting point .work))
    else some (s.interrupted point .consumerGone)
  | .awaiting point .work, .pollWork outcome => resumed ext s point outcome
  | .awaiting point .work, .pollElapsed => some (s.elapsed point)
  | .awaiting point .work, .pollPending => some (s.goto (.awaiting point .token))
  | .building, .built (.error detail) => some (s.release.fail (.transport detail))
  | .building, .built (.ok ()) => some (s.goto (.awaiting .sending .token))
  | .handling payloads, .run => some (handlePayloads ext s payloads)
  -- `delta` waits for room outside any select, so a cause on the token does not wake it.
  | .emitting text rest, .send =>
    match s.chan.send (.ok (.textDelta s.requestId text)) with
    | none => none
    | some (true, chan) => some { s with chan, pc := .handling rest }
    | some (false, chan) =>
      some { s with chan, pc := .closing (.error (.cancelled .consumerGone)) }
  | .closing outcome, .run => some (s.close outcome)
  | .cancelling cause, .run =>
    some ((s.withHandle (s.chan.handle.requestCancellation cause).2).goto
      (.finishing .cancelled (.ok (.cancelled s.requestId cause))))
  | .finishing outcome item, .run =>
    some ((s.withHandle (s.chan.handle.finish outcome).2).goto (.announcing item))
  -- The outcome stands on the handle already when the terminal item waits for room.
  | .announcing item, .send =>
    match s.chan.send item with
    | none => none
    | some (_, chan) => some (State.ended { s with chan } .done)
  | _, _ => none

/-- The points where a task that is dropped can be suspended. -/
def suspended (s : State) : Bool :=
  match s.pc with
  | .start | .awaiting _ .token | .emitting _ _ | .announcing _ => true
  | _ => false

end State

def step (ext : Externals) (s : State) : Action → Option State
  | .task action => s.taskStep ext s.pc action
  | .abort => if s.suspended then some (s.abandon.ended .aborted) else none
  | .requestCancellation cause => some (s.withHandle (s.chan.handle.requestCancellation cause).2)
  | .next =>
    if s.chan.receiverAlive then s.chan.next.map fun r => { s with chan := r.2 } else none
  | .dropStream =>
    if s.chan.receiverAlive then some { s with chan := s.chan.dropStream } else none

/-- A handle between its admission and the start of its stream: it is new, or it has
been told to stop already. -/
def Accepted (h : RequestHandle) : Prop :=
  ∃ id, h = .new id ∨ ∃ cause, h = ((RequestHandle.new id).requestCancellation cause).2

def system (ext : Externals) : System State Action where
  init s := ∃ handle body, Accepted handle ∧ s = startGeneration handle body
  step := step ext

namespace State
variable {ext : Externals} {s s' : State}

inductive TaskStep (ext : Externals) (s : State) : TaskAction → State → Prop
  | unencoded {detail} (hpc : s.pc = .start) (hbody : s.body = .error detail) :
      TaskStep ext s .run (s.fail (.transport detail))
  | started {bytes} (hpc : s.pc = .start) (hbody : s.body = .ok bytes) :
      TaskStep ext s .run { s with
        transport := { s.transport with connection := true }
        pc := .awaiting .connecting .token }
  | told {point cause} (hpc : s.pc = .awaiting point .token)
      (hcause : s.chan.handle.cancellationCause = some cause) :
      TaskStep ext s .pollToken (s.interrupted point cause)
  | untold {point} (hpc : s.pc = .awaiting point .token)
      (hcause : s.chan.handle.cancellationCause = none) :
      TaskStep ext s .pollToken (s.goto (.awaiting point .closed))
  | held {point} (hpc : s.pc = .awaiting point .closed) (halive : s.chan.receiverAlive = true) :
      TaskStep ext s .pollClosed (s.goto (.awaiting point .work))
  | abandoned {point} (hpc : s.pc = .awaiting point .closed)
      (hgone : s.chan.receiverAlive = false) :
      TaskStep ext s .pollClosed (s.interrupted point .consumerGone)
  | resumed {point outcome s'} (hpc : s.pc = .awaiting point .work)
      (hresumed : s.resumed ext point outcome = some s') : TaskStep ext s (.pollWork outcome) s'
  | elapsed {point} (hpc : s.pc = .awaiting point .work) :
      TaskStep ext s .pollElapsed (s.elapsed point)
  | pending {point} (hpc : s.pc = .awaiting point .work) :
      TaskStep ext s .pollPending (s.goto (.awaiting point .token))
  | unbuilt {detail} (hpc : s.pc = .building) :
      TaskStep ext s (.built (.error detail)) (s.release.fail (.transport detail))
  | built (hpc : s.pc = .building) :
      TaskStep ext s (.built (.ok ())) (s.goto (.awaiting .sending .token))
  | handled {payloads} (hpc : s.pc = .handling payloads) :
      TaskStep ext s .run (s.handlePayloads ext payloads)
  | emitted {text rest chan} (hpc : s.pc = .emitting text rest)
      (hsend : s.chan.send (.ok (.textDelta s.requestId text)) = some (true, chan)) :
      TaskStep ext s .send { s with chan, pc := .handling rest }
  | unheard {text rest chan} (hpc : s.pc = .emitting text rest)
      (hsend : s.chan.send (.ok (.textDelta s.requestId text)) = some (false, chan)) :
      TaskStep ext s .send { s with chan, pc := .closing (.error (.cancelled .consumerGone)) }
  | closed {outcome} (hpc : s.pc = .closing outcome) : TaskStep ext s .run (s.close outcome)
  | cancelled {cause} (hpc : s.pc = .cancelling cause) :
      TaskStep ext s .run ((s.withHandle (s.chan.handle.requestCancellation cause).2).goto
        (.finishing .cancelled (.ok (.cancelled s.requestId cause))))
  | finished {outcome item} (hpc : s.pc = .finishing outcome item) :
      TaskStep ext s .run ((s.withHandle (s.chan.handle.finish outcome).2).goto (.announcing item))
  | announced {item alive chan} (hpc : s.pc = .announcing item)
      (hsend : s.chan.send item = some (alive, chan)) :
      TaskStep ext s .send (State.ended { s with chan } .done)

theorem taskStep_cases {a : TaskAction} (h : s.taskStep ext s.pc a = some s') :
    TaskStep ext s a s' := by
  unfold taskStep at h
  split at h
  case h_1 hpc =>
    split at h <;> cases h
    · rename_i hbody
      exact .unencoded hpc hbody
    · rename_i hbody
      exact .started hpc hbody
  case h_2 hpc =>
    split at h <;> cases h
    · rename_i hcause
      exact .told hpc hcause
    · rename_i hcause
      exact .untold hpc hcause
  case h_3 hpc =>
    split at h <;> cases h
    · rename_i halive
      exact .held hpc halive
    · rename_i hgone
      exact .abandoned hpc (Bool.eq_false_iff.mpr hgone)
  case h_4 hpc => exact .resumed hpc h
  case h_5 hpc =>
    cases h
    exact .elapsed hpc
  case h_6 hpc =>
    cases h
    exact .pending hpc
  case h_7 hpc =>
    cases h
    exact .unbuilt hpc
  case h_8 hpc =>
    cases h
    exact .built hpc
  case h_9 hpc =>
    cases h
    exact .handled hpc
  case h_10 hpc =>
    split at h <;> cases h
    · rename_i hsend
      exact .emitted hpc hsend
    · rename_i hsend
      exact .unheard hpc hsend
  case h_11 hpc =>
    cases h
    exact .closed hpc
  case h_12 hpc =>
    cases h
    exact .cancelled hpc
  case h_13 hpc =>
    cases h
    exact .finished hpc
  case h_14 hpc =>
    split at h <;> cases h
    rename_i hsend
    exact .announced hpc hsend
  case h_15 => cases h

inductive Step (ext : Externals) (s : State) : Action → State → Prop
  | task {a s'} (htask : s.taskStep ext s.pc a = some s') : Step ext s (.task a) s'
  | aborted (hsuspended : s.suspended = true) : Step ext s .abort (s.abandon.ended .aborted)
  | told {cause} : Step ext s (.requestCancellation cause)
      (s.withHandle (s.chan.handle.requestCancellation cause).2)
  | finished (halive : s.chan.receiverAlive = true) (hfinished : s.chan.stream.finished = true) :
      Step ext s .next s
  | read {item rest} (halive : s.chan.receiverAlive = true)
      (hunfinished : s.chan.stream.finished = false) (hqueue : s.chan.queue = item :: rest) :
      Step ext s .next { s with chan := { s.chan with
        queue := rest
        stream := s.chan.stream.observe item
        delivered := s.chan.delivered ++ [item] } }
  | gone (halive : s.chan.receiverAlive = true) (hunfinished : s.chan.stream.finished = false)
      (hqueue : s.chan.queue = []) (hgone : s.chan.senderAlive = false) :
      Step ext s .next { s with chan := { s.chan with
        handle := (s.chan.handle.finish .failed).2
        stream := { s.chan.stream with finished := true }
        delivered := s.chan.delivered ++ [Channel.producerGone] } }
  | dropped (halive : s.chan.receiverAlive = true) :
      Step ext s .dropStream { s with chan := s.chan.dropStream }

theorem step_cases {a : Action} (h : step ext s a = some s') : Step ext s a s' := by
  cases a with
  | task action => exact .task h
  | abort =>
    simp only [step] at h
    split at h <;> cases h
    exact .aborted ‹_›
  | requestCancellation cause =>
    cases h
    exact .told
  | next =>
    simp only [step] at h
    split at h
    · rename_i halive
      obtain ⟨⟨out, chan⟩, hnext, rfl⟩ := Option.map_eq_some_iff.mp h
      rcases Channel.next_cases hnext with ⟨hfinished, -, rfl⟩ |
        ⟨hunfinished, item, rest, hqueue, -, rfl⟩ | ⟨hunfinished, hqueue, hgone, -, rfl⟩
      · exact .finished halive hfinished
      · exact .read halive hunfinished hqueue
      · exact .gone halive hunfinished hqueue hgone
    · cases h
  | dropStream =>
    simp only [step] at h
    split at h <;> cases h
    exact .dropped ‹_›

end State
end MehoyRuntime.Stream
