import MehoyRuntime.Lib.Locks

/-!
# The locks of the runtime

What each function does to the locks it takes, on every path through it: the ledger of
runtime.rs, the lifecycle of each instance, the state of each request, the value of its
cancellation channel (a read of it is taken for exclusive), the capabilities of each
instance and the log of each worker. A function is the language of what it does to them;
a choice that its data make is a sum, a loop a star. A future is dropped only where it
waits, and its guards and sinks are cleared up there.
-/

namespace MehoyRuntime.Locking
open Locks Computability TransitionSystem

inductive Lock
  | ledger
  | lifecycle (model : ℕ)
  | state (request : ℕ)
  | signal (request : ℕ)
  | capabilities (model : ℕ)
  | log (worker : ℕ)
  deriving DecidableEq

abbrev Calls := Language (Event Lock)

/-- The order in which locks are taken inside each other. -/
def rank : Lock → ℕ
  | .ledger => 0
  | .lifecycle _ => 1
  | .state _ => 2
  | .signal _ => 3
  | .capabilities _ => 4
  | .log _ => 5

/-! ### Requests -/

namespace CancellationToken

def cancel (q : ℕ) : Calls := guarded (.signal q) 1

def cause (q : ℕ) : Calls := guarded (.signal q) 1

/-- Each turn looks at the value, and where there is no cause yet waits for a change. -/
def cancelled (q : ℕ) : Calls := cause q * (pause * cause q)∗

end CancellationToken

namespace RequestHandle
open CancellationToken

def state (q : ℕ) : Calls := guarded (.state q) 1

def isTerminal (q : ℕ) : Calls := state q

def markRunning (q : ℕ) : Calls := guarded (.state q) 1

def requestCancellation (q : ℕ) : Calls := guarded (.state q) (1 + cancel q)

def finish (q : ℕ) : Calls := guarded (.state q) 1

def cancellationCause (q : ℕ) : Calls := cause q

/-- `retain`, `filter` and `all` over the handles of an instance. -/
def eachTerminal : Calls := (⨆ q, isTerminal q)∗

/-- What whoever holds a clone of a handle can do with it. -/
def holder (q : ℕ) : Calls :=
  state q + markRunning q + requestCancellation q + finish q + cancellationCause q + cancel q +
    abandonable (cancelled q) 1

end RequestHandle

namespace Generation
open CancellationToken RequestHandle

/-- A send waits where the channel is full, and a receipt where it is empty. -/
def wait : Calls := 1 + pause

def complete (q : ℕ) : Calls := finish q * wait

def cancelSink (q : ℕ) : Calls := requestCancellation q * finish q * wait

def fail (q : ℕ) : Calls := finish q * wait

def dropSink (q : ℕ) : Calls := 1 + finish q

/-- The token is polled before the work at each turn; running out of time cancels. -/
def within (q : ℕ) : Calls := cancelled q * (1 + cancel q * cause q)

def read (q : ℕ) : Calls :=
  (within q * wait∗)∗ * (cancelSink q + fail q + complete q)

def execute (q : ℕ) : Calls :=
  let ended := cancelSink q + fail q
  let refused := within q * ended
  let answered := markRunning q * (refused + read q)
  fail q + within q * (ended + within q * (ended + (fail q + within q * (ended + answered))))

def next (q : ℕ) : Calls := wait * (1 + finish q)

end Generation

/-! ### Workers -/

def record (w : ℕ) : Calls := guarded (.log w) 1

def drainOutput (w : ℕ) : Calls := (pause * record w)∗ * pause

def render (w : ℕ) : Calls := guarded (.log w) 1

/-- `start` of the backend: it waits for the process, and a failure renders its output. -/
def start (w : ℕ) : Calls := pause∗ * (1 + render w)

def stop (w : ℕ) : Calls := pause∗ * (1 + render w)

/-! ### Instances -/

namespace LoadedModel
open CancellationToken RequestHandle

def capabilities (m : ℕ) : Calls := guarded (.capabilities m) 1

def verify (m : ℕ) : Calls := guarded (.capabilities m) 1

def phase (m : ℕ) : Calls := guarded (.lifecycle m) 1

def admitRequest (m : ℕ) : Calls := guarded (.lifecycle m) (1 + eachTerminal)

/-- `embed` and `generate_text`, which differ in nothing that they lock. -/
def respond (m : ℕ) : Calls :=
  1 + admitRequest m * (1 + ⨆ q, markRunning q * cancelled q * finish q)

def verifyResponse (m : ℕ) : Calls := respond m * (1 + verify m)

def generateStreamWithin (m : ℕ) : Calls := 1 + admitRequest m

def recordGenerationStream (m : ℕ) : Calls := 1 + verify m

def cancel (m : ℕ) : Calls :=
  guarded (.lifecycle m) eachTerminal *
    (1 + ⨆ q, isTerminal q *
      (state q + requestCancellation q *
        (1 + isTerminal q * (state q + cancellationCause q))))

def activeRequests (m : ℕ) : Calls := guarded (.lifecycle m) eachTerminal

def requestState (m : ℕ) : Calls := guarded (.lifecycle m) (1 + ⨆ q, state q)

/-- `drain` looks at all outstanding requests until they have settled or time is up. -/
def drain : Calls := (eachTerminal * pause)∗ * eachTerminal

def finish (m : ℕ) : Calls := guarded (.lifecycle m) 1

def unloadWithin (m w : ℕ) : Calls :=
  guarded (.lifecycle m) (1 + eachTerminal) *
    (1 + finish m + (⨆ q, requestCancellation q)∗ * drain * stop w * finish m)

end LoadedModel

/-! ### The runtime -/

namespace Runtime

def usage : Calls := guarded .ledger 1

def footprint : Calls := guarded .ledger 1

def residentInstances : Calls := guarded .ledger 1

def resolve : Calls := guarded .ledger 1

def reserve : Calls := guarded .ledger 1

def dropReserved : Calls := guarded .ledger 1

def fulfil : Calls := guarded .ledger 1

/-- An operation on one instance, once the ledger has said which it is. -/
def onModel (operation : ℕ → Calls) : Calls := resolve * (1 + ⨆ m, operation m)

def load : Calls :=
  1 + reserve * (1 + ⨆ w, start w *
    (dropReserved + stop w * dropReserved + fulfil * (1 + ⨆ m, LoadedModel.unloadWithin m w)))

def unloadWithin : Calls :=
  resolve * (1 + ⨆ m, (⨆ w, LoadedModel.unloadWithin m w) *
    (1 + LoadedModel.phase m * (1 + guarded .ledger 1)))

end Runtime

/-- Whatever a thread of the runtime can be about: a caller's operation, dropped before its
end or not, the task of a stream, the tasks of a worker's output, or the use of a handle. -/
def operation : Calls :=
  Runtime.usage + Runtime.footprint + Runtime.residentInstances +
  Runtime.onModel LoadedModel.capabilities + Runtime.onModel LoadedModel.phase +
  Runtime.onModel LoadedModel.activeRequests + Runtime.onModel LoadedModel.requestState +
  Runtime.onModel LoadedModel.cancel + Runtime.onModel LoadedModel.generateStreamWithin +
  Runtime.onModel LoadedModel.recordGenerationStream +
  abandonable (Runtime.onModel LoadedModel.verifyResponse) 1 +
  abandonable Runtime.load (1 + Runtime.dropReserved) + abandonable Runtime.unloadWithin 1 +
  (⨆ q, abandonable (Generation.execute q) (Generation.dropSink q)) +
  (⨆ q, abandonable (Generation.next q) 1) + (⨆ w, abandonable (drainOutput w) 1) +
  (⨆ q, RequestHandle.holder q)

/-- Threads go from one operation to the next. -/
def program : Calls := operation∗

/-! ### Every operation keeps to the order -/

section Keeps
variable {held : List Lock} {lock : Lock}

theorem keeps_leaf (h : ∀ l ∈ held, rank l < rank lock) : Keeps rank held (guarded lock 1) :=
  keeps_guarded h keeps_one

theorem state_keeps (h : ∀ l ∈ held, rank l < 2) (q : ℕ) :
    Keeps rank held (RequestHandle.state q) :=
  keeps_leaf h

theorem eachTerminal_keeps (h : ∀ l ∈ held, rank l < 2) :
    Keeps rank held RequestHandle.eachTerminal :=
  (keeps_iSup (state_keeps h)).kstar

theorem requestCancellation_keeps (q : ℕ) : Keeps rank [] (RequestHandle.requestCancellation q) := by
  apply keeps_guarded (by simp)
  apply keeps_one.add
  apply keeps_leaf
  simp [rank]

theorem cause_keeps (q : ℕ) : Keeps rank [] (CancellationToken.cause q) :=
  keeps_leaf (by simp)

theorem cancelled_keeps (q : ℕ) : Keeps rank [] (CancellationToken.cancelled q) :=
  (cause_keeps q).mul (keeps_pause.mul (cause_keeps q)).kstar

theorem finish_keeps (q : ℕ) : Keeps rank [] (RequestHandle.finish q) :=
  keeps_leaf (by simp)

theorem holder_keeps (q : ℕ) : Keeps rank [] (RequestHandle.holder q) := by
  have hstate : Keeps rank [] (guarded (.state q) 1) := keeps_leaf (by simp)
  have hrecords := ((hstate.add hstate).add (requestCancellation_keeps q)).add hstate
  have hsignals := (hrecords.add (cause_keeps q)).add (cause_keeps q)
  exact hsignals.add ((cancelled_keeps q).abandonable keeps_one)

end Keeps

namespace Generation

theorem wait_keeps : Keeps rank [] wait := keeps_one.add keeps_pause

theorem cancelSink_keeps (q : ℕ) : Keeps rank [] (cancelSink q) :=
  ((requestCancellation_keeps q).mul (finish_keeps q)).mul wait_keeps

theorem fail_keeps (q : ℕ) : Keeps rank [] (fail q) := (finish_keeps q).mul wait_keeps

theorem within_keeps (q : ℕ) : Keeps rank [] (within q) := by
  have hcancel : Keeps rank [] (CancellationToken.cancel q) := keeps_leaf (by simp)
  exact (cancelled_keeps q).mul (keeps_one.add (hcancel.mul (cause_keeps q)))

theorem read_keeps (q : ℕ) : Keeps rank [] (read q) := by
  have hturns := ((within_keeps q).mul wait_keeps.kstar).kstar
  have hcomplete : Keeps rank [] (complete q) := (finish_keeps q).mul wait_keeps
  exact hturns.mul (((cancelSink_keeps q).add (fail_keeps q)).add hcomplete)

theorem execute_keeps (q : ℕ) : Keeps rank [] (execute q) := by
  have hended := (cancelSink_keeps q).add (fail_keeps q)
  have hrunning : Keeps rank [] (RequestHandle.markRunning q) := keeps_leaf (by simp)
  have hanswered := hrunning.mul (((within_keeps q).mul hended).add (read_keeps q))
  have hsent := (fail_keeps q).add ((within_keeps q).mul (hended.add hanswered))
  have hshaken := (within_keeps q).mul (hended.add hsent)
  exact (fail_keeps q).add ((within_keeps q).mul (hended.add hshaken))

end Generation

theorem stop_keeps (w : ℕ) : Keeps rank [] (stop w) := by
  have hrender : Keeps rank [] (render w) := keeps_leaf (by simp)
  exact keeps_pause.kstar.mul (keeps_one.add hrender)

theorem drainOutput_keeps (w : ℕ) : Keeps rank [] (drainOutput w) := by
  have hrecord : Keeps rank [] (record w) := keeps_leaf (by simp)
  exact (keeps_pause.mul hrecord).kstar.mul keeps_pause

namespace LoadedModel

theorem verify_keeps (m : ℕ) : Keeps rank [] (verify m) := keeps_leaf (by simp)

theorem admitRequest_keeps (m : ℕ) : Keeps rank [] (admitRequest m) := by
  apply keeps_guarded (by simp)
  apply keeps_one.add
  apply eachTerminal_keeps
  simp [rank]

theorem verifyResponse_keeps (m : ℕ) : Keeps rank [] (verifyResponse m) := by
  have hanswer : Keeps rank [] (⨆ q, RequestHandle.markRunning q * CancellationToken.cancelled q *
      RequestHandle.finish q) := by
    apply keeps_iSup
    intro q
    have hrunning : Keeps rank [] (RequestHandle.markRunning q) := keeps_leaf (by simp)
    exact (hrunning.mul (cancelled_keeps q)).mul (finish_keeps q)
  have hrespond : Keeps rank [] (respond m) :=
    keeps_one.add ((admitRequest_keeps m).mul (keeps_one.add hanswer))
  exact hrespond.mul (keeps_one.add (verify_keeps m))

theorem activeRequests_keeps (m : ℕ) : Keeps rank [] (activeRequests m) := by
  apply keeps_guarded (by simp)
  apply eachTerminal_keeps
  simp [rank]

theorem requestState_keeps (m : ℕ) : Keeps rank [] (requestState m) := by
  apply keeps_guarded (by simp)
  apply keeps_one.add
  apply keeps_iSup
  apply state_keeps
  simp [rank]

theorem cancel_keeps (m : ℕ) : Keeps rank [] (cancel m) := by
  have hstate (q : ℕ) : Keeps rank [] (RequestHandle.state q) := state_keeps (by simp) q
  have hafter (q : ℕ) := (hstate q).mul ((hstate q).add (cause_keeps q))
  have hasked (q : ℕ) := (requestCancellation_keeps q).mul (keeps_one.add (hafter q))
  have hfound (q : ℕ) := (hstate q).mul ((hstate q).add (hasked q))
  exact (activeRequests_keeps m).mul (keeps_one.add (keeps_iSup hfound))

theorem unloadWithin_keeps (m w : ℕ) : Keeps rank [] (unloadWithin m w) := by
  have hall : Keeps rank [] RequestHandle.eachTerminal := eachTerminal_keeps (by simp)
  have hdrain : Keeps rank [] drain := (hall.mul keeps_pause).kstar.mul hall
  have hfinish : Keeps rank [] (finish m) := keeps_leaf (by simp)
  have hcancel := (keeps_iSup requestCancellation_keeps).kstar
  have hteardown := ((hcancel.mul hdrain).mul (stop_keeps w)).mul hfinish
  exact (admitRequest_keeps m).mul ((keeps_one.add hfinish).add hteardown)

end LoadedModel

namespace Runtime

theorem ledger_keeps : Keeps rank [] (guarded .ledger 1) := keeps_leaf (by simp)

theorem onModel_keeps {operation : ℕ → Calls} (h : ∀ m, Keeps rank [] (operation m)) :
    Keeps rank [] (onModel operation) :=
  ledger_keeps.mul (keeps_one.add (keeps_iSup h))

theorem load_keeps : Keeps rank [] load := by
  have hkept (w : ℕ) : Keeps rank [] (fulfil * (1 + ⨆ m, LoadedModel.unloadWithin m w)) :=
    ledger_keeps.mul (keeps_one.add (keeps_iSup fun m => LoadedModel.unloadWithin_keeps m w))
  have hended (w : ℕ) := (ledger_keeps.add ((stop_keeps w).mul ledger_keeps)).add (hkept w)
  have hstarted (w : ℕ) := (stop_keeps w).mul (hended w)
  exact keeps_one.add (ledger_keeps.mul (keeps_one.add (keeps_iSup hstarted)))

theorem unloadWithin_keeps : Keeps rank [] unloadWithin := by
  have hphase (m : ℕ) : Keeps rank [] (LoadedModel.phase m) := keeps_leaf (by simp)
  have hforgotten (m : ℕ) := keeps_one.add ((hphase m).mul (keeps_one.add ledger_keeps))
  have hmodel (m : ℕ) := (keeps_iSup (LoadedModel.unloadWithin_keeps m)).mul (hforgotten m)
  exact ledger_keeps.mul (keeps_one.add (keeps_iSup hmodel))

end Runtime

theorem operation_keeps : Keeps rank [] operation := by
  have hcapabilities := Runtime.onModel_keeps LoadedModel.verify_keeps
  have hphase : Keeps rank [] (Runtime.onModel LoadedModel.phase) :=
    Runtime.onModel_keeps fun m => keeps_leaf (by simp)
  have hactive := Runtime.onModel_keeps LoadedModel.activeRequests_keeps
  have hstate := Runtime.onModel_keeps LoadedModel.requestState_keeps
  have hcancel := Runtime.onModel_keeps LoadedModel.cancel_keeps
  have hstream := Runtime.onModel_keeps fun m => keeps_one.add (LoadedModel.admitRequest_keeps m)
  have hrecord := Runtime.onModel_keeps fun m => keeps_one.add (LoadedModel.verify_keeps m)
  have hrespond := (Runtime.onModel_keeps LoadedModel.verifyResponse_keeps).abandonable keeps_one
  have hload := Runtime.load_keeps.abandonable (keeps_one.add Runtime.ledger_keeps)
  have hunload := Runtime.unloadWithin_keeps.abandonable keeps_one
  have hexecute (q : ℕ) :=
    (Generation.execute_keeps q).abandonable (keeps_one.add (finish_keeps q))
  have hnext (q : ℕ) : Keeps rank [] (Generation.next q) :=
    Generation.wait_keeps.mul (keeps_one.add (finish_keeps q))
  have hdrain (w : ℕ) := (drainOutput_keeps w).abandonable keeps_one
  have hreads := (Runtime.ledger_keeps.add Runtime.ledger_keeps).add Runtime.ledger_keeps
  have hlooks := (((hreads.add hcapabilities).add hphase).add hactive).add hstate
  have hcalls := ((hlooks.add hcancel).add hstream).add hrecord
  have hwaits := ((hcalls.add hrespond).add hload).add hunload
  have hstreams := (hwaits.add (keeps_iSup hexecute)).add
    (keeps_iSup fun q => (hnext q).abandonable keeps_one)
  exact (hstreams.add (keeps_iSup hdrain)).add (keeps_iSup holder_keeps)

/-- No two threads hold one lock, none holds a lock while it waits for something else, and
they never wait for each other in a circle: without anything from outside, each comes to
its end or to such a wait. -/
theorem locks_never_deadlock {threads : List (Thread Lock)}
    (h : Reachable (system program) threads) :
    (∀ (i j : ℕ) (t u : Thread Lock) (lock : Lock), threads[i]? = some t →
      threads[j]? = some u → lock ∈ t.held → lock ∈ u.held → i = j) ∧
    (∀ t ∈ threads, t.Settled → t.held = []) ∧
    ∃ rest, Steps (moving program) threads rest ∧ ∀ t ∈ rest, t.Settled := by
  have hprogram : Keeps rank [] program := operation_keeps.kstar
  have hdisciplined := disciplined_reachable hprogram h
  refine ⟨hdisciplined.alone, ?_, all_settle hprogram h⟩
  intro t ht hsettled
  exact settled_held (hdisciplined.ordered t ht) hsettled

def asking : List (Event Lock) :=
  [.acquire .ledger, .release .ledger, .acquire (.lifecycle 0), .acquire (.state 0),
    .release (.state 0), .release (.lifecycle 0)]

def failing : List (Event Lock) := [.acquire (.state 0), .release (.state 0)]

theorem asking_mem : asking ∈ program := by
  have hnil : [] ∈ (1 : Calls) := rfl
  have hresolve : [.acquire .ledger, .release .ledger] ∈ Runtime.resolve := mem_guarded hnil
  have hstate : [.acquire (.state 0), .release (.state 0)] ∈ RequestHandle.state 0 :=
    mem_guarded hnil
  have hfound : [.acquire (.state 0), .release (.state 0)] ∈ 1 + ⨆ q, RequestHandle.state q :=
    .inr (Language.mem_iSup.mpr ⟨0, hstate⟩)
  have hmodel : [.acquire (.lifecycle 0), .acquire (.state 0), .release (.state 0),
      .release (.lifecycle 0)] ∈ LoadedModel.requestState 0 := mem_guarded hfound
  have hasked : asking ∈ Runtime.onModel LoadedModel.requestState :=
    Language.append_mem_mul hresolve (.inr (Language.mem_iSup.mpr ⟨0, hmodel⟩))
  have hoperation : asking ∈ operation := by
    simp only [operation, Language.mem_add, hasked, true_or, or_true]
  exact Language.join_mem_kstar (L := [asking]) (by simpa using hoperation)

theorem failing_mem : failing ∈ program := by
  have hnil : [] ∈ (1 : Calls) := rfl
  have hfinish : failing ∈ RequestHandle.finish 0 := mem_guarded hnil
  have hfail : failing ++ [] ∈ Generation.fail 0 := Language.append_mem_mul hfinish (.inl hnil)
  have hexecute : failing ∈ abandonable (Generation.execute 0) (Generation.dropSink 0) :=
    .inl (.inl hfail)
  have hall : failing ∈ ⨆ q, abandonable (Generation.execute q) (Generation.dropSink q) :=
    Language.mem_iSup.mpr ⟨0, hexecute⟩
  have hoperation : failing ∈ operation := .inl (.inl (.inl (.inr hall)))
  exact Language.join_mem_kstar (L := [failing]) (by simpa using hoperation)

/-- One thread asks for the state of a request and another is recording its end. -/
theorem locks_never_deadlock_asking :
    ∃ threads rest : List (Thread Lock), step threads 0 = none ∧
      (∃ t, threads[0]? = some t ∧ .lifecycle 0 ∈ t.held) ∧
      Steps (moving program) threads rest ∧ ∀ t ∈ rest, t.Settled := by
  let threads : List (Thread Lock) :=
    [⟨[.lifecycle 0], asking.drop 3⟩, ⟨[.state 0], failing.drop 1⟩]
  have hstart : Reachable (system program) [⟨[], asking⟩, ⟨[], failing⟩] := by
    apply ReachableWhile.init
    simp [system, asking_mem, failing_mem]
  have hrun : (system program).run [⟨[], asking⟩, ⟨[], failing⟩] [0, 0, 0, 1] = some threads := rfl
  obtain ⟨-, -, rest, hsteps, hsettled⟩ := locks_never_deadlock (reachable_of_run hstart hrun)
  exact ⟨threads, rest, rfl, ⟨_, rfl, by simp⟩, hsteps, hsettled⟩

end MehoyRuntime.Locking
