import MehoyRuntime.Lib.Filesystem
import MehoyRuntime.Lib.System
import Mathlib.Tactic.SplitIfs

/-!
# The private directories

`ensure_private_directory` of the endpoint and of the credentials, one system call at a
time, with another account's changes to the files in between. The recursive creation is
that of `DirBuilder`: it makes missing parents, and takes a failed `mkdir` for success
where a directory is at the path.
-/

namespace MehoyRuntime.Transport
open TransitionSystem Filesystem

inductive EndpointError
  | alreadyRunning (address : String)
  | notRunning (address : String)
  | insecureDirectory (path reason : String)
  | unexpectedOccupant (path reason : String)
  | noDefaultLocation (reason : String)
  | io (err : Fault)
  deriving DecidableEq

def DIR_MODE : UInt32 := 0o700

def FORBIDDEN_DIR_BITS : UInt32 := 0o077

/-- A directory of the account that nobody else is let into. -/
def IsPrivate (euid : UInt32) (node : Node) : Prop :=
  node.kind = .directory ∧ node.uid = euid ∧ node.mode &&& FORBIDDEN_DIR_BITS = 0

/-- What tells the two versions apart: what they make of a directory that is there, and of
a failed system call. -/
structure Version (ε : Type) where
  euid : UInt32
  inspect : Node → Except ε Unit
  io : Fault → ε
  inspect_ok : ∀ node, inspect node = .ok () → IsPrivate euid node

def isSymlink (node : Node) : Bool :=
  match node.kind with
  | .symlink _ => true
  | _ => false

/-- At least four octal digits. -/
def octal (mode : UInt32) : String :=
  let digits := Nat.toDigits 8 mode.toNat
  String.ofList (List.replicate (4 - digits.length) '0' ++ digits)

namespace Endpoint

def inspect (path : String) (euid : UInt32) (found : Node) : Except EndpointError Unit :=
  if isSymlink found then .error (.insecureDirectory path "path is a symbolic link")
  else if found.kind ≠ .directory then .error (.insecureDirectory path "path is not a directory")
  else if found.uid ≠ euid then
    .error (.insecureDirectory path s!"owned by uid {found.uid}, expected uid {euid}")
  else
    let mode := found.mode &&& 0o777
    if mode &&& FORBIDDEN_DIR_BITS ≠ 0 then
      .error (.insecureDirectory path s!"mode {octal mode} grants access beyond the owner")
    else .ok ()

theorem inspect_ok {path : String} {euid : UInt32} {found : Node}
    (h : inspect path euid found = .ok ()) : IsPrivate euid found := by
  dsimp only [inspect] at h
  split_ifs at h with hlink hkind huid hmode
  have hbits : (0o777 : UInt32) &&& FORBIDDEN_DIR_BITS = FORBIDDEN_DIR_BITS := by decide
  rw [UInt32.and_assoc, hbits] at hmode
  exact ⟨not_not.mp hkind, not_not.mp huid, not_not.mp hmode⟩

def ensurePrivateDirectory (path : String) (euid : UInt32) : Version EndpointError where
  euid := euid
  inspect := inspect path euid
  io := .io
  inspect_ok _ := inspect_ok

end Endpoint

namespace Credential

def refuse (path reason : String) : Except Fault Unit :=
  .error (.permissionDenied s!"{path} is not usable for credentials: {reason}")

def inspect (path : String) (euid : UInt32) (found : Node) : Except Fault Unit :=
  if isSymlink found then refuse path "it is a symbolic link"
  else if found.kind ≠ .directory then refuse path "it is not a directory"
  else if found.uid ≠ euid then refuse path "it belongs to another user"
  else if found.mode &&& 0o077 ≠ 0 then refuse path "it is accessible to other users"
  else .ok ()

theorem inspect_ok {path : String} {euid : UInt32} {found : Node}
    (h : inspect path euid found = .ok ()) : IsPrivate euid found := by
  unfold inspect refuse at h
  split_ifs at h with hlink hkind huid hmode
  exact ⟨not_not.mp hkind, not_not.mp huid, not_not.mp hmode⟩

def ensurePrivateDirectory (path : String) (euid : UInt32) : Version Fault where
  euid := euid
  inspect := inspect path euid
  io := id
  inspect_ok _ := inspect_ok

end Credential

/-! ### The calls of one `ensure_private_directory` -/

/-- Where a call is: `pending` are the paths below, the next first, that are tried again
once `path` is there. -/
inductive Point (ε : Type)
  | inspecting
  | making (path : Path) (pending : List Path)
  | makingAgain (path : Path) (pending : List Path)
  | fallback (path : Path) (pending : List Path) (fault : Fault)
  | returned (result : Except ε Unit)

structure Call (ε : Type) where
  dir : Path
  umask : UInt32
  files : Files
  point : Point ε

namespace Call
variable {ε : Type} (version : Version ε)

/-- `create_dir_all` of a path has come to an end. -/
def created : List Path → Point ε
  | [] => .returned (.ok ())
  | path :: pending => .makingAgain path pending

/-- A call of `mkdir`, the first for its path or the one after its parents were made. -/
def mkdir (call : Call ε) (path : Path) (pending : List Path) (again : Bool)
    (failure : Option String) : Call ε :=
  match attempt (call.files.mkdir path version.euid (DIR_MODE &&& ~~~call.umask)) failure, again,
    path with
  | .ok files, _, _ => { call with files, point := created pending }
  | .error .notFound, false, _ :: above => { call with point := .making above (path :: pending) }
  | .error fault, _, _ => { call with point := .fallback path pending fault }

/-- The next system call. -/
def next (call : Call ε) (failure : Option String) : Option (Call ε) :=
  match call.point with
  | .inspecting =>
    match attempt (call.files.lstat call.dir) failure with
    | .error .notFound => some { call with point := .making call.dir [] }
    | .error fault => some { call with point := .returned (.error (version.io fault)) }
    | .ok found => some { call with point := .returned (version.inspect found) }
  | .making path pending => some (call.mkdir version path pending false failure)
  | .makingAgain path pending => some (call.mkdir version path pending true failure)
  | .fallback path pending fault =>
    if failure = none ∧ call.files.isDir path then some { call with point := created pending }
    else some { call with point := .returned (.error (version.io fault)) }
  | .returned _ => none

inductive Action
  | next (failure : Option String)
  | foreign (account : UInt32) (change : Files.Change)

/-- The moment of the return is the last. -/
def step (call : Call ε) : Action → Option (Call ε)
  | .next failure => call.next version failure
  | .foreign account change =>
    match call.point with
    | .returned _ => none
    | _ => if account = version.euid then none
        else (call.files.change account change).map fun files => { call with files }

def system : System (Call ε) Action where
  init call := call.point = .inspecting
  step call action := call.step version action

/-- The creation of the directory itself failed and is about to find one at the path. -/
def claimed (call : Call ε) : Bool :=
  match call.point with
  | .fallback path [] _ => call.files.isDir path
  | _ => false

def Unclaimed (call : Call ε) (action : Action) : Prop :=
  action = .next none → call.claimed = false

/-- In the runs every step of which meets `ok`, a call that returned `Ok` has just left a
private directory at the path. -/
def Guarantees (ok : Call ε → Action → Prop) : Prop :=
  ∀ call, ReachableWhile (system version) ok call → call.point = .returned (.ok ()) →
    ∃ node, call.files.lstat call.dir = .ok node ∧ IsPrivate version.euid node

variable {version} {call call' : Call ε}

theorem private_mode (umask : UInt32) : (DIR_MODE &&& ~~~umask) &&& FORBIDDEN_DIR_BITS = 0 := by
  have hzero : DIR_MODE &&& FORBIDDEN_DIR_BITS = 0 := by decide
  rw [UInt32.and_assoc, UInt32.and_comm (~~~umask), ← UInt32.and_assoc, hzero, UInt32.zero_and]

/-- The paths a creation works on end in the directory asked for. -/
def Aimed (call : Call ε) : Prop :=
  match call.point with
  | .making path pending | .makingAgain path pending | .fallback path pending _ =>
    (path :: pending).getLast? = some call.dir
  | .inspecting | .returned _ => True

/-- `mkdir` makes the directory, goes on to the parents, or leaves the question to `is_dir`. -/
theorem mkdir_cases (version : Version ε) (call : Call ε) (path : Path) (pending : List Path)
    (again : Bool) (failure : Option String) :
    (∃ files, call.files.mkdir path version.euid (DIR_MODE &&& ~~~call.umask) = .ok files ∧
      call.mkdir version path pending again failure = { call with files, point := created pending }) ∨
    (∃ name above, path = name :: above ∧
      call.mkdir version path pending again failure =
        { call with point := .making above (path :: pending) }) ∨
    ∃ fault, call.mkdir version path pending again failure =
      { call with point := .fallback path pending fault } := by
  unfold mkdir
  split
  · rename_i files hmade
    exact .inl ⟨files, (attempt_ok hmade).2, rfl⟩
  · rename_i name above _
    exact .inr (.inl ⟨name, above, rfl, rfl⟩)
  · rename_i fault _ _
    exact .inr (.inr ⟨fault, rfl⟩)

theorem aimed_created {path : Path} {pending : List Path} {files : Files}
    (h : (path :: pending).getLast? = some call.dir) :
    Aimed ({ call with files, point := created pending } : Call ε) := by
  cases pending with
  | nil => trivial
  | cons below rest => exact List.getLast?_cons_cons.symm.trans h

theorem aimed_mkdir {path : Path} {pending : List Path} (again : Bool) (failure : Option String)
    (h : (path :: pending).getLast? = some call.dir) :
    (call.mkdir version path pending again failure).Aimed := by
  rcases mkdir_cases version call path pending again failure with
    ⟨files, -, hcall⟩ | ⟨name, above, -, hcall⟩ | ⟨fault, hcall⟩
  · rw [hcall]
    exact aimed_created h
  · rw [hcall]
    exact List.getLast?_cons_cons.trans h
  · rw [hcall]
    exact h

theorem aimed_next {failure : Option String} (h : call.Aimed)
    (hstep : call.next version failure = some call') : call'.Aimed := by
  obtain ⟨dir, umask, files, point⟩ := call
  cases point with
  | inspecting =>
    simp only [next] at hstep
    split at hstep
    all_goals cases hstep
    · exact List.getLast?_singleton
    · trivial
    · trivial
  | making path pending =>
    cases hstep
    exact aimed_mkdir false failure h
  | makingAgain path pending =>
    cases hstep
    exact aimed_mkdir true failure h
  | fallback path pending fault =>
    simp only [next] at hstep
    split at hstep
    all_goals cases hstep
    · exact aimed_created h
    · trivial
  | returned result => cases hstep

theorem foreign_ok {account : UInt32} {change : Files.Change}
    (hstep : call.step version (.foreign account change) = some call') :
    (∀ result, call.point ≠ .returned result) ∧ ∃ files, call' = { call with files } := by
  obtain ⟨dir, umask, files, point⟩ := call
  cases point with
  | returned result => cases hstep
  | _ =>
    simp only [step] at hstep
    split at hstep
    · cases hstep
    · obtain ⟨files', -, rfl⟩ := Option.map_eq_some_iff.mp hstep
      exact ⟨nofun, files', rfl⟩

theorem aimed_of_reachable {ok : Call ε → Action → Prop}
    (h : ReachableWhile (system version) ok call) : call.Aimed := by
  refine h.invariant ?_ ?_
  · intro first hinit
    have hpoint : first.point = .inspecting := hinit
    simp only [Aimed, hpoint]
  · intro before after action _ haim _ hstep
    cases action with
    | next failure => exact aimed_next haim hstep
    | foreign account change =>
      obtain ⟨-, files, rfl⟩ := foreign_ok hstep
      exact haim

/-- Where the `mkdir` of the directory itself succeeds, what it made is private. -/
theorem mkdir_returned {path : Path} {pending : List Path} {again : Bool} {failure : Option String}
    (haim : (path :: pending).getLast? = some call.dir)
    (hr : (call.mkdir version path pending again failure).point = .returned (.ok ())) :
    ∃ node, (call.mkdir version path pending again failure).files.lstat
        (call.mkdir version path pending again failure).dir = .ok node ∧
      IsPrivate version.euid node := by
  rcases mkdir_cases version call path pending again failure with
    ⟨files, hmade, hcall⟩ | ⟨name, above, -, hcall⟩ | ⟨fault, hcall⟩
  · rw [hcall] at hr ⊢
    cases pending with
    | cons below rest => cases hr
    | nil =>
      obtain rfl : path = call.dir := Option.some.inj haim
      exact ⟨_, Files.lstat_mkdir hmade, rfl, rfl, private_mode call.umask⟩
  · rw [hcall] at hr
    cases hr
  · rw [hcall] at hr
    cases hr

/-- A call returns `Ok` after a check that let the directory pass, or after making it. -/
theorem next_returned {failure : Option String} (haim : call.Aimed)
    (hok : failure = none → call.claimed = false) (hstep : call.next version failure = some call')
    (hr : call'.point = .returned (.ok ())) :
    ∃ node, call'.files.lstat call'.dir = .ok node ∧ IsPrivate version.euid node := by
  obtain ⟨dir, umask, files, point⟩ := call
  cases point with
  | inspecting =>
    simp only [next] at hstep
    split at hstep
    all_goals cases hstep
    · cases hr
    · cases hr
    · rename_i found hfound
      have hpass : version.inspect found = .ok () := Point.returned.inj hr
      exact ⟨found, (attempt_ok hfound).2, version.inspect_ok found hpass⟩
  | making path pending =>
    cases hstep
    exact mkdir_returned haim hr
  | makingAgain path pending =>
    cases hstep
    exact mkdir_returned haim hr
  | fallback path pending fault =>
    simp only [next] at hstep
    split at hstep
    all_goals cases hstep
    · rename_i hfound
      cases pending with
      | cons below rest => cases hr
      | nil =>
        have hnothing : files.isDir path = false := hok hfound.1
        rw [hfound.2] at hnothing
        cases hnothing
    · cases hr
  | returned result => cases hstep

theorem guarantees_unclaimed (version : Version ε) : Guarantees version Unclaimed := by
  intro call h hr
  cases h with
  | init hinit =>
    have hpoint : call.point = .inspecting := hinit
    rw [hpoint] at hr
    cases hr
  | step hbefore hok hstep =>
    rename_i before action
    cases action with
    | next failure =>
      exact next_returned (aimed_of_reachable hbefore) (fun hnone => hok (by rw [hnone])) hstep hr
    | foreign account change =>
      obtain ⟨hrunning, files, rfl⟩ := foreign_ok hstep
      exact absurd hr (hrunning _)

end Call
open Call

/-- Both versions keep what they promise in the runs in which no creation of the directory
comes upon one that was put there after the check. -/
theorem ensurePrivateDirectory_unclaimed (path : String) (euid : UInt32) :
    Guarantees (Endpoint.ensurePrivateDirectory path euid) Unclaimed ∧
      Guarantees (Credential.ensurePrivateDirectory path euid) Unclaimed :=
  ⟨guarantees_unclaimed _, guarantees_unclaimed _⟩

/-- A root with a sticky directory that everyone may write to. -/
def sharedTmp : Files where
  nodes := [⟨.directory, 0, 0o755⟩, ⟨.directory, 0, 0o1777⟩]
  entries := fun dir name => if dir = 0 ∧ name = "tmp" then some 1 else none

def startup (ε : Type) : Call ε := ⟨["mehoy-1000", "tmp"], 0o022, sharedTmp, .inspecting⟩

theorem startup_init {ε : Type} (version : Version ε) : (system version).init (startup ε) := rfl

/-- A directory below one that is missing too: both are made. -/
theorem ensurePrivateDirectory_made :
    ∃ call, ReachableWhile (system (Endpoint.ensurePrivateDirectory "/tmp/mehoy-1000/run" 1000))
        Unclaimed call ∧ call.point = .returned (.ok ()) ∧
      ∃ node, call.files.lstat call.dir = .ok node ∧ IsPrivate 1000 node := by
  have hrun : ∃ call, (system (Endpoint.ensurePrivateDirectory "/tmp/mehoy-1000/run" 1000)).runWhile
      (fun call _ => !call.claimed) { startup EndpointError with dir := ["run", "mehoy-1000", "tmp"] }
      (List.replicate 4 (.next none)) = some call ∧ call.point = .returned (.ok ()) :=
    ⟨_, rfl, rfl⟩
  obtain ⟨call, hrun, hreturned⟩ := hrun
  have hinit : (system (Endpoint.ensurePrivateDirectory "/tmp/mehoy-1000/run" 1000)).init
      { startup EndpointError with dir := ["run", "mehoy-1000", "tmp"] } := rfl
  have hreach : ReachableWhile _ Unclaimed call :=
    reachableWhile_of_run (fun call _ hfree _ => by simpa using hfree) (.init hinit) hrun
  exact ⟨call, hreach, hreturned, (ensurePrivateDirectory_unclaimed _ 1000).1 call hreach hreturned⟩

/-- Another account makes the directory after the check that found none. -/
def planting : List Action :=
  [.next none, .foreign 1001 (.make 1 "mehoy-1000" ⟨.directory, 1001, 0o777⟩), .next none, .next none]

theorem planted {ε : Type} {version : Version ε} (heuid : version.euid = 1000) :
    ¬ Guarantees version fun _ _ => True := by
  intro hclaim
  have hrun : ∃ call, (system version).run (startup ε) planting = some call ∧
      call.point = .returned (.ok ()) ∧
      call.files.lstat call.dir = .ok ⟨.directory, 1001, 0o777⟩ := by
    obtain ⟨euid, inspect, io, sound⟩ := version
    cases heuid
    exact ⟨_, rfl, rfl, rfl⟩
  obtain ⟨call, hrun, hreturned, hfound⟩ := hrun
  obtain ⟨node, hnode, hprivate⟩ := hclaim call (reachable_of_run (.init (startup_init version)) hrun) hreturned
  obtain rfl : ⟨.directory, 1001, 0o777⟩ = node := Except.ok.inj (hfound.symm.trans hnode)
  have huid : (1001 : UInt32) = version.euid := hprivate.2.1
  rw [heuid] at huid
  cases huid

theorem ensurePrivateDirectory_planted :
    ¬ Guarantees (Endpoint.ensurePrivateDirectory "/tmp/mehoy-1000" 1000) (fun _ _ => True) ∧
      ¬ Guarantees (Credential.ensurePrivateDirectory "/tmp/mehoy-1000" 1000) (fun _ _ => True) :=
  ⟨planted rfl, planted rfl⟩

end MehoyRuntime.Transport
