import MehoyRuntime.Backend.Start

/-!
# Credential files

`SecretFile::create` call by call, within any number of starts at a time, and what is on
disk. A file is removed when the value made of it is dropped, and that value is there only
once `create` is through.
-/

namespace MehoyRuntime.Backend
open TransitionSystem Worker

/-- Where a start is with its credential: before `create`, between the calls of `create`, or
holding the value it returned. -/
inductive Credential
  | absent
  | naming
  | opening (path : String)
  | writing (path : String)
  | flushing (path : String)
  | held (path : String)
  deriving DecidableEq, Repr

namespace Credential

def file : Credential → Option String
  | .writing path | .flushing path | .held path => some path
  | .absent | .naming | .opening _ => none

def creating : Credential → Bool
  | .absent | .held _ => false
  | .naming | .opening _ | .writing _ | .flushing _ => true

end Credential

/-- The calls that `create` makes, with what each is answered. -/
inductive CreateStep
  | ensured (outcome : Except IoError Unit)
  | drawn (outcome : Except IoError (List UInt8))
  | opened (outcome : Except IoError Unit)
  | written (outcome : Except IoError Unit)
  | flushed (outcome : Except IoError Unit)

structure Execution where
  id : UInt64
  deadlines : Deadlines
  start : Start
  credential : Credential

/-- The credential files on disk, and the starts that are executing. -/
structure Machine where
  disk : List String
  starts : ℕ → Option Execution

/-- `abandon` drops the future of a start. -/
inductive MachineAction
  | begin (i : ℕ) (id : UInt64) (deadlines : Deadlines) (listeners : ℕ → Option Party)
  | call (i : ℕ) (answer : Answer)
  | create (i : ℕ) (step : CreateStep)
  | around (i : ℕ) (event : Event)
  | abandon (i : ℕ)

namespace Machine
variable (directory : String) (pid : ℕ) (backend : LlamaCppBackend) (seconds : ℕ → String)

/-- Named per file, by eight random bytes. -/
def credentialPath (unique : List UInt8) : String :=
  s!"{directory}/backend-{pid}-{Text.hexOf unique}.key"

/-- The next call of `create`: where it leaves the credential, or the error it returns. -/
def creation : Credential → CreateStep → Option (Except IoError Credential)
  | .absent, .ensured outcome => some (outcome.map fun _ => .naming)
  | .naming, .drawn (.error err) => some (.error s!"system randomness unavailable: {err}")
  | .naming, .drawn (.ok unique) =>
    if unique.length = 8 then some (.ok (.opening (credentialPath directory pid unique))) else none
  | .opening path, .opened outcome => some (outcome.map fun _ => .writing path)
  | .writing path, .written outcome => some (outcome.map fun _ => .flushing path)
  | .flushing path, .flushed outcome => some (outcome.map fun _ => .held path)
  | _, _ => none

/-- The end of a start, by its return or because its future is dropped: the value it holds,
if it holds one, removes its file. -/
def drop (m : Machine) (i : ℕ) (credential : Credential) : Machine where
  disk :=
    match credential with
    | .held path => m.disk.filter fun other => other ≠ path
    | _ => m.disk
  starts := Function.update m.starts i none

def put (m : Machine) (i : ℕ) (e : Execution) : Machine :=
  match e.start.point with
  | .returned _ => m.drop i e.credential
  | _ => { m with starts := Function.update m.starts i (some e) }

def callStep (e : Execution) (answer : Answer) : Option Start :=
  LlamaCppBackend.call backend e.id e.deadlines seconds e.start answer

def createStep (m : Machine) (i : ℕ) (e : Execution) (step : CreateStep) : Option Machine :=
  match e.start.point, creation directory pid e.credential step with
  | .writing _, some (.error err) =>
    (callStep backend seconds e (.written (.error err))).map fun start =>
      m.put i { e with start, credential := .absent }
  | .writing _, some (.ok (.held path)) =>
    (callStep backend seconds e (.written (.ok ()))).map fun start =>
      m.put i { e with start, credential := .held path }
  -- `create_new`: the file was not there before.
  | .writing _, some (.ok (.writing path)) =>
    if path ∈ m.disk then none
    else some ({ m with disk := path :: m.disk }.put i { e with credential := .writing path })
  | .writing _, some (.ok credential) => some (m.put i { e with credential })
  | _, _ => none

def step (m : Machine) : MachineAction → Option Machine
  | .begin i id deadlines listeners =>
    if (m.starts i).isSome then none
    else some (m.put i ⟨id, deadlines, ⟨none, listeners, none, "", .identifying⟩, .absent⟩)
  | .call i answer =>
    (m.starts i).bind fun e =>
      match answer with
      | .written _ => none
      | answer =>
        if e.credential.creating then none
        else (callStep backend seconds e answer).map fun start => m.put i { e with start }
  | .create i step => (m.starts i).bind fun e => m.createStep directory pid backend seconds i e step
  | .around i event =>
    (m.starts i).bind fun e => (LlamaCppBackend.around e.start event).map fun start =>
      { m with starts := Function.update m.starts i (some { e with start }) }
  -- There is no point to be dropped at between the calls of `create`.
  | .abandon i =>
    (m.starts i).bind fun e => if e.credential.creating then none else some (m.drop i e.credential)

def system : System Machine MachineAction where
  init m := m.disk = [] ∧ ∀ i, m.starts i = none
  step := step directory pid backend seconds

def file (m : Machine) (i : ℕ) : Option String := (m.starts i).bind fun e => e.credential.file

/-- Neither the write nor the flush of a credential file fails. -/
def writes : MachineAction → Bool
  | .create _ (.written (.error _)) | .create _ (.flushed (.error _)) => false
  | _ => true

def Writes (_ : Machine) (action : MachineAction) : Prop := writes action = true

/-! ### What a step does to the files -/

/-- What a step does to the disk and to whose the files are; only the last leaves a file that
is nobody's. -/
inductive Effect (m m' : Machine) : Bool → Prop
  | stays : m'.disk = m.disk → m'.file = m.file → Effect m m' true
  | creates (i : ℕ) (path : String) : m.file i = none → path ∉ m.disk → m'.disk = path :: m.disk →
      m'.file = Function.update m.file i (some path) → Effect m m' true
  | removes (i : ℕ) (path : String) : m.file i = some path →
      m'.disk = m.disk.filter (fun other => other ≠ path) →
      m'.file = Function.update m.file i none → Effect m m' true
  | leaves (i : ℕ) (path : String) : m.file i = some path → m'.disk = m.disk →
      m'.file = Function.update m.file i none → Effect m m' false

variable {directory pid backend seconds} {m m' : Machine} {i : ℕ} {e : Execution}

theorem file_update (m : Machine) (disk : List String) (i : ℕ) (e : Option Execution) :
    (⟨disk, Function.update m.starts i e⟩ : Machine).file =
      Function.update m.file i (e.bind fun e => e.credential.file) := by
  funext j
  rcases eq_or_ne j i with rfl | hne
  · simp [file]
  · simp [file, hne]

theorem file_of (h : m.starts i = some e) : m.file i = e.credential.file := by
  simp [file, h]

theorem update_same {path : Option String} (h : m.file i = path) :
    Function.update m.file i path = m.file := by
  rw [← h]
  exact Function.update_eq_self i m.file

theorem put_open (h : ∀ result, e.start.point ≠ .returned result) :
    m.put i e = { m with starts := Function.update m.starts i (some e) } := by
  unfold put
  split
  · exact absurd ‹_› (h _)
  · rfl

theorem drop_effect {credential : Credential} (hfile : m.file i = credential.file)
    (hidle : credential.creating = false) : Effect m (m.drop i credential) true := by
  cases credential with
  | absent =>
    refine .stays rfl ?_
    unfold drop
    rw [file_update]
    exact update_same hfile
  | held path =>
    refine .removes i path hfile rfl ?_
    unfold drop
    rw [file_update]
    rfl
  | naming | opening path | writing path | flushing path => cases hidle

/-- A start whose credential is not being created goes on, or ends and drops it. -/
theorem put_effect {start : Start} (h : m.starts i = some e) (hidle : e.credential.creating = false) :
    Effect m (m.put i { e with start }) true := by
  have hfile := file_of h
  unfold put
  split
  · exact drop_effect hfile hidle
  · refine .stays rfl ?_
    rw [file_update]
    exact update_same hfile

theorem creation_error {credential : Credential} {step : CreateStep} {err : IoError}
    (h : creation directory pid credential step = some (.error err)) (i : ℕ) :
    (credential.file = none ∧ writes (.create i step) = true) ∨
      ∃ path, credential.file = some path ∧ writes (.create i step) = false := by
  unfold creation at h
  split at h
  case h_1 outcome | h_4 path outcome =>
    cases outcome <;> cases h
    exact .inl ⟨rfl, rfl⟩
  case h_2 => exact .inl ⟨rfl, rfl⟩
  case h_3 => split at h <;> cases h
  case h_5 path outcome | h_6 path outcome =>
    cases outcome <;> cases h
    exact .inr ⟨path, rfl, rfl⟩
  case h_7 => cases h

/-- Only the file that is opened is new. -/
theorem creation_ok {credential credential' : Credential} {step : CreateStep}
    (h : creation directory pid credential step = some (.ok credential')) (i : ℕ) :
    writes (.create i step) = true ∧
      ((credential'.file = credential.file ∧ ∀ path, credential' ≠ .writing path) ∨
        ∃ path, credential' = .writing path ∧ credential.file = none) := by
  unfold creation at h
  split at h
  case h_1 outcome | h_5 path outcome | h_6 path outcome =>
    cases outcome <;> cases h
    exact ⟨rfl, .inl ⟨rfl, by simp⟩⟩
  case h_2 | h_7 => cases h
  case h_3 =>
    split at h <;> cases h
    exact ⟨rfl, .inl ⟨rfl, by simp⟩⟩
  case h_4 path outcome =>
    cases outcome <;> cases h
    exact ⟨rfl, .inr ⟨path, rfl, rfl⟩⟩

theorem failed_effect {step : CreateStep} {err : IoError} {start : Start} (h : m.starts i = some e)
    (hcreation : creation directory pid e.credential step = some (.error err)) :
    Effect m (m.put i { e with start, credential := .absent }) (writes (.create i step)) := by
  have hfile := file_of h
  have hput : (m.put i { e with start, credential := .absent }).disk = m.disk ∧
      (m.put i { e with start, credential := .absent }).file = Function.update m.file i none := by
    unfold put
    split
    · exact ⟨rfl, file_update m _ i none⟩
    · exact ⟨rfl, file_update m _ i _⟩
  rcases creation_error hcreation i with ⟨hnone, hwrites⟩ | ⟨path, hpath, hwrites⟩
  · rw [hwrites]
    refine .stays hput.1 ?_
    rw [hput.2]
    exact update_same (hfile.trans hnone)
  · rw [hwrites]
    exact .leaves i path (hfile.trans hpath) hput.1 hput.2

theorem kept_effect {step : CreateStep} {credential : Credential} {start : Start}
    (h : m.starts i = some e) (hcreation : creation directory pid e.credential step = some (.ok credential))
    (hold : ∀ path, credential ≠ .writing path) (hopen : ∀ result, start.point ≠ .returned result) :
    Effect m (m.put i { e with start, credential }) (writes (.create i step)) := by
  obtain ⟨hwrites, ⟨hsame, -⟩ | ⟨path, hpath, -⟩⟩ := creation_ok hcreation i
  · rw [hwrites, put_open hopen]
    refine .stays rfl ?_
    rw [file_update]
    exact update_same ((file_of h).trans hsame.symm)
  · exact absurd hpath (hold path)

theorem opened_effect {step : CreateStep} {path : String} {start : Start} (h : m.starts i = some e)
    (hcreation : creation directory pid e.credential step = some (.ok (.writing path)))
    (hnew : path ∉ m.disk) (hopen : ∀ result, start.point ≠ .returned result) :
    Effect m ({ m with disk := path :: m.disk }.put i { e with start, credential := .writing path })
      (writes (.create i step)) := by
  obtain ⟨hwrites, ⟨-, hother⟩ | ⟨other, -, hnone⟩⟩ := creation_ok hcreation i
  · exact absurd rfl (hother path)
  · rw [hwrites, put_open hopen]
    refine .creates i path ((file_of h).trans hnone) hnew rfl ?_
    rw [file_update]
    rfl

theorem createStep_effect {step : CreateStep} (h : m.starts i = some e)
    (hst : m.createStep directory pid backend seconds i e step = some m') :
    Effect m m' (writes (.create i step)) := by
  unfold createStep at hst
  split at hst
  case h_1 channel err hpoint hcreation =>
    obtain ⟨start, -, rfl⟩ := Option.map_eq_some_iff.mp hst
    exact failed_effect h hcreation
  case h_2 channel path hpoint hcreation =>
    obtain ⟨start, hcall, rfl⟩ := Option.map_eq_some_iff.mp hst
    simp only [callStep, LlamaCppBackend.call, hpoint, Option.some.injEq] at hcall
    subst hcall
    exact kept_effect h hcreation (by simp) (by simp [LlamaCppBackend.moveTo])
  case h_3 channel path hpoint hcreation =>
    split at hst <;> cases hst
    exact opened_effect h hcreation ‹_› (by simp [hpoint])
  case h_4 channel credential hheld hwriting hpoint hcreation =>
    cases hst
    exact kept_effect h hcreation hwriting (by simp [hpoint])
  case h_5 => cases hst

theorem step_effect {action : MachineAction}
    (hst : step directory pid backend seconds m action = some m') : Effect m m' (writes action) := by
  cases action with
  | begin i id deadlines listeners =>
    simp only [step] at hst
    split at hst <;> cases hst
    have hfree : m.starts i = none := Option.not_isSome_iff_eq_none.mp ‹_›
    rw [put_open (by simp)]
    refine .stays rfl ?_
    rw [file_update]
    refine update_same ?_
    rw [file, hfree]
    rfl
  | call i answer =>
    obtain ⟨e, he, hst⟩ := Option.bind_eq_some_iff.mp hst
    split at hst
    · cases hst
    · split at hst
      · cases hst
      · rename_i hidle
        obtain ⟨start, -, rfl⟩ := Option.map_eq_some_iff.mp hst
        exact put_effect he (Bool.eq_false_iff.mpr hidle)
  | create i step =>
    obtain ⟨e, he, hst⟩ := Option.bind_eq_some_iff.mp hst
    exact createStep_effect he hst
  | around i event =>
    obtain ⟨e, he, hst⟩ := Option.bind_eq_some_iff.mp hst
    obtain ⟨start, -, rfl⟩ := Option.map_eq_some_iff.mp hst
    have hfile := file_of he
    refine .stays rfl ?_
    rw [file_update]
    exact update_same hfile
  | abandon i =>
    obtain ⟨e, he, hst⟩ := Option.bind_eq_some_iff.mp hst
    split at hst <;> cases hst
    exact drop_effect (file_of he) (Bool.eq_false_iff.mpr ‹_›)

/-! ### Every file is a start's -/

/-- The files on disk are those of the executing starts, a file of its own each. -/
structure Owned (m : Machine) : Prop where
  owner : ∀ path ∈ m.disk, ∃ i, m.file i = some path
  there : ∀ i path, m.file i = some path → path ∈ m.disk
  distinct : ∀ i j path, m.file i = some path → m.file j = some path → i = j

theorem owned_creates {path : String} (h : Owned m) (hnone : m.file i = none) (hnew : path ∉ m.disk)
    (hdisk : m'.disk = path :: m.disk) (hfile : m'.file = Function.update m.file i (some path)) :
    Owned m' where
  owner := by
    intro other hother
    rw [hdisk] at hother
    rw [hfile]
    rcases List.mem_cons.mp hother with rfl | hbefore
    · exact ⟨i, Function.update_self ..⟩
    · obtain ⟨j, hj⟩ := h.owner other hbefore
      have hne : j ≠ i := by
        rintro rfl
        rw [hnone] at hj
        cases hj
      exact ⟨j, (Function.update_of_ne hne ..).trans hj⟩
  there := by
    intro j other hj
    rw [hfile] at hj
    rw [hdisk]
    rcases Slots.update_cases hj with ⟨-, hpath⟩ | ⟨-, hj⟩
    · cases hpath
      exact List.mem_cons_self
    · exact List.mem_cons_of_mem _ (h.there j other hj)
  distinct := by
    intro j k other hj hk
    rw [hfile] at hj hk
    rcases Slots.update_cases hj with ⟨hji, hpath⟩ | ⟨-, hj'⟩
    · cases hpath
      rcases Slots.update_cases hk with ⟨hki, -⟩ | ⟨-, hk'⟩
      · exact hji.trans hki.symm
      · exact absurd (h.there k path hk') hnew
    · rcases Slots.update_cases hk with ⟨-, hpath⟩ | ⟨-, hk'⟩
      · cases hpath
        exact absurd (h.there j path hj') hnew
      · exact h.distinct j k other hj' hk'

theorem owned_removes {path : String} (h : Owned m) (hpath : m.file i = some path)
    (hdisk : m'.disk = m.disk.filter (fun other => other ≠ path))
    (hfile : m'.file = Function.update m.file i none) : Owned m' where
  owner := by
    intro other hother
    simp only [hdisk, List.mem_filter, decide_eq_true_eq] at hother
    obtain ⟨j, hj⟩ := h.owner other hother.1
    have hne : j ≠ i := by
      rintro rfl
      rw [hpath] at hj
      exact hother.2 (Option.some.inj hj).symm
    exact ⟨j, by rw [hfile, Function.update_of_ne hne, hj]⟩
  there := by
    intro j other hj
    rw [hfile] at hj
    rcases Slots.update_cases hj with ⟨-, hnone⟩ | ⟨hne, hj⟩
    · cases hnone
    · simp only [hdisk, List.mem_filter, decide_eq_true_eq]
      refine ⟨h.there j other hj, ?_⟩
      rintro rfl
      exact hne (h.distinct j i _ hj hpath)
  distinct := by
    intro j k other hj hk
    rw [hfile] at hj hk
    rcases Slots.update_cases hj with ⟨-, hnone⟩ | ⟨-, hj⟩
    · cases hnone
    · rcases Slots.update_cases hk with ⟨-, hnone⟩ | ⟨-, hk⟩
      · cases hnone
      · exact h.distinct j k other hj hk

theorem owned_effect (h : Owned m) (heffect : Effect m m' true) : Owned m' := by
  cases heffect with
  | stays hdisk hfile =>
    refine ⟨?_, ?_, ?_⟩
    · rw [hdisk, hfile]
      exact h.owner
    · rw [hdisk, hfile]
      exact h.there
    · rw [hfile]
      exact h.distinct
  | creates i path hnone hnew hdisk hfile => exact owned_creates h hnone hnew hdisk hfile
  | removes i path hpath hdisk hfile => exact owned_removes h hpath hdisk hfile

/-- A failed write or flush leaves a file that is nobody's. -/
theorem orphan_effect (h : Owned m) (heffect : Effect m m' false) :
    ∃ path ∈ m'.disk, ∀ i, m'.file i ≠ some path := by
  cases heffect with
  | leaves i path hpath hdisk hfile =>
    refine ⟨path, hdisk ▸ h.there i path hpath, fun j hj => ?_⟩
    rw [hfile] at hj
    rcases Slots.update_cases hj with ⟨-, hnone⟩ | ⟨hne, hj⟩
    · cases hnone
    · exact hne (h.distinct j i path hj hpath)

/-- Where no write and no flush of a credential file has failed, every file on disk is that of
an executing start; a write or a flush that fails leaves one that is not. -/
theorem credential_removed (hm : ReachableWhile (system directory pid backend seconds) Writes m) :
    ((∀ i, m.starts i = none) → m.disk = []) ∧
      ∀ action m', step directory pid backend seconds m action = some m' →
        ((∀ path ∈ m'.disk, ∃ i, m'.file i = some path) ↔ writes action = true) := by
  have howned : Owned m := by
    refine hm.invariant (I := Owned) ?_ fun m m' action _ h hok hst => ?_
    · rintro m ⟨hdisk, hstarts⟩
      have hfile (i : ℕ) : m.file i = none := by rw [file, hstarts]; rfl
      refine ⟨?_, ?_, ?_⟩
      · simp [hdisk]
      · simp [hfile]
      · simp [hfile]
    · have heffect := step_effect hst
      rw [show writes action = true from hok] at heffect
      exact owned_effect h heffect
  refine ⟨fun hidle => ?_, fun action m' hst => ?_⟩
  · by_contra hdisk
    obtain ⟨path, hpath⟩ := List.exists_mem_of_ne_nil _ hdisk
    obtain ⟨i, hi⟩ := howned.owner path hpath
    rw [file, hidle i] at hi
    cases hi
  · have heffect := step_effect hst
    cases hwrites : writes action with
    | true =>
      rw [hwrites] at heffect
      exact iff_of_true (owned_effect howned heffect).owner rfl
    | false =>
      rw [hwrites] at heffect
      obtain ⟨path, hpath, hnobody⟩ := orphan_effect howned heffect
      refine iff_of_false (fun howner => ?_) (by simp)
      obtain ⟨i, hi⟩ := howner path hpath
      exact hnobody i hi

/-! ### One start -/

def openingCredential : List MachineAction :=
  [.begin 0 1 .default (fun _ => none), .call 0 (.identified none), .call 0 (.reserved (.ok 40000)),
    .call 0 .released, .call 0 (.drawn (.ok ())), .create 0 (.ensured (.ok ())),
    .create 0 (.drawn (.ok (List.replicate 8 0))), .create 0 (.opened (.ok ()))]

def emptyMachine : Machine := ⟨[], fun _ => none⟩

theorem emptyMachine_init : (system directory pid backend seconds).init emptyMachine :=
  ⟨rfl, fun _ => rfl⟩

/-- The worker cannot be spawned: the credential goes with the start. -/
theorem credential_removed_unspawned :
    ∃ m, ReachableWhile (system "/tmp/mehoy-backend-1000" 4242 LlamaCppBackend.sampleBackend toString)
        Writes m ∧ (∀ i, m.starts i = none) ∧ m.disk = [] := by
  obtain ⟨m, hrun, hidle⟩ : ∃ m,
      (system "/tmp/mehoy-backend-1000" 4242 LlamaCppBackend.sampleBackend toString).runWhile
        (fun _ => writes) emptyMachine (openingCredential ++
          [.create 0 (.written (.ok ())), .create 0 (.flushed (.ok ())),
            .call 0 (.spawned (.error "No such file or directory (os error 2)"))]) = some m ∧
        ∀ i, m.starts i = none := by
    refine ⟨_, rfl, fun i => ?_⟩
    cases i <;> rfl
  have hm : ReachableWhile _ Writes m :=
    reachableWhile_of_run (fun _ _ h => h) (.init emptyMachine_init) hrun
  exact ⟨m, hm, hidle, (credential_removed hm).1 hidle⟩

/-- The disk is full: `create` fails, and its file is there when no start is executing. -/
theorem credential_left :
    ¬ ∀ m, Reachable (system "/tmp/mehoy-backend-1000" 4242 LlamaCppBackend.sampleBackend toString) m →
      (∀ i, m.starts i = none) → m.disk = [] := by
  intro hclaim
  obtain ⟨m, hrun, hidle, hleft⟩ : ∃ m,
      (system "/tmp/mehoy-backend-1000" 4242 LlamaCppBackend.sampleBackend toString).run
        emptyMachine (openingCredential ++
          [.create 0 (.written (.error "No space left on device (os error 28)"))]) = some m ∧
        (∀ i, m.starts i = none) ∧ m.disk ≠ [] := by
    refine ⟨_, rfl, fun i => ?_, List.cons_ne_nil _ _⟩
    cases i <;> rfl
  exact hleft (hclaim m (reachable_of_run (.init emptyMachine_init) hrun) hidle)

end Machine
end MehoyRuntime.Backend
