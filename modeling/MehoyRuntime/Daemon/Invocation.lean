import MehoyRuntime.Daemon.CommandLine
import MehoyRuntime.Daemon.Service
import MehoyRuntime.Transport.Address

/-!
# The two programs

`main` of `mehoyd` and of `mehoy`: the arguments, the address that is used, and the exit
code. What the process meets once it runs is given to it. What is printed is left out.
-/

namespace MehoyRuntime.Daemon
open MehoyRuntime.Transport (Environment)
open MehoyRuntime.Transport.EndpointAddress (chosen origin chosen_ok_iff)
open Utf8 (bytesOf)

namespace Mehoyd

inductive Invocation
  | serve (endpoint : Option String)
  | help
  | version
  deriving DecidableEq, Repr

def program : Program Empty where
  command _ := none
  unrecognised arg := s!"unrecognised argument: {arg}"
  command_flag _ _ := rfl

def invocation : Asked Empty → Invocation
  | .given _ endpoint => .serve endpoint
  | .help => .help
  | .version => .version

def parseArgs (args : List String) : Except String Invocation :=
  (program.scan none none args).map invocation

/-- The async runtime, `Endpoint::bind` and `serve`. -/
structure Outside where
  runtime : Except String Unit
  bind : String → Except Transport.EndpointError Unit
  serve : Except String Unit

def run (out : Outside) (env : Environment) (endpoint : Option String) : UInt8 :=
  match chosen endpoint env with
  | .error _ => 1
  | .ok address =>
    match out.runtime with
    | .error _ => 1
    | .ok () =>
      match out.bind address with
      | .error (.alreadyRunning _) => 3
      | .error _ => 1
      | .ok () =>
        match out.serve with
        | .ok () => 0
        | .error _ => 1

def main (out : Outside) (env : Environment) (args : List String) : UInt8 :=
  match parseArgs args with
  | .ok .help => 0
  | .ok .version => 0
  | .ok (.serve endpoint) => run out env endpoint
  | .error _ => 2

end Mehoyd

namespace Mehoy

inductive Command
  | health
  | runtime
  deriving DecidableEq, Repr

inductive Invocation
  | run (command : Command) (endpoint : Option String)
  | help
  | version
  deriving DecidableEq, Repr

def program : Program Command where
  command arg := if arg = "health" then some .health
    else if arg = "runtime" then some .runtime
    else none
  unrecognised arg :=
    if arg.toList.head? = some '-' then s!"unrecognised option: {arg}"
    else s!"unrecognised command: {arg}"
  command_flag := by decide

def invocation : Asked Command → Except String Invocation
  | .given (some command) endpoint => .ok (.run command endpoint)
  | .given none _ => .error "no command given"
  | .help => .ok .help
  | .version => .ok .version

def parseArgs (args : List String) : Except String Invocation :=
  (program.scan none none args).bind invocation

def Command.call : Command → Call
  | .health => .health
  | .runtime => .runtime

/-- The async runtime, and what the daemon at an address makes of a call. -/
structure Outside where
  runtime : Except String Unit
  call : String → Call → Except ClientError Answer

def run (out : Outside) (env : Environment) (command : Command) (endpoint : Option String) :
    UInt8 :=
  match chosen endpoint env with
  | .error _ => 1
  | .ok address =>
    match out.runtime with
    | .error _ => 1
    | .ok () => exitCode (out.call address command.call)

def main (out : Outside) (env : Environment) (args : List String) : UInt8 :=
  match parseArgs args with
  | .ok .help => 0
  | .ok .version => 0
  | .ok (.run command endpoint) => run out env command endpoint
  | .error _ => 2

end Mehoy

/-! ### Exit codes -/

variable {env : Environment}

theorem exitCode_ne (result : Except ClientError Answer) : exitCode result ≠ 2 := by
  unfold exitCode
  split <;> decide

theorem exitCode_notRunning {result : Except ClientError Answer} :
    exitCode result = 3 ↔ ∃ address, result = .error (.transport (.notRunning address)) := by
  constructor
  · intro h
    unfold exitCode at h
    split at h
    · cases h
    · exact ⟨_, rfl⟩
    · cases h
  · rintro ⟨address, rfl⟩
    rfl

namespace Mehoyd
variable {out : Outside}

theorem run_ne (endpoint : Option String) : run out env endpoint ≠ 2 := by
  unfold run
  repeat' split
  all_goals decide

theorem run_already {endpoint : Option String} : run out env endpoint = 3 ↔
    ∃ address other, chosen endpoint env = .ok address ∧ out.runtime = .ok () ∧
      out.bind address = .error (.alreadyRunning other) := by
  constructor
  · intro h
    unfold run at h
    split at h
    · cases h
    · rename_i address haddress
      split at h
      · cases h
      · rename_i hruntime
        split at h
        · rename_i other hbind
          exact ⟨address, other, haddress, hruntime, hbind⟩
        · cases h
        · split at h <;> cases h
  · rintro ⟨address, other, haddress, hruntime, hbind⟩
    simp only [run, haddress, hruntime, hbind]

theorem parseArgs_iff {line : List String} {result : Except String Invocation} :
    parseArgs line = result ↔ ∃ asked, program.Means line asked ∧ result = asked.map invocation := by
  constructor
  · rintro rfl
    exact ⟨_, (Program.scan_iff_means line _).mp rfl, rfl⟩
  · rintro ⟨asked, hmeans, rfl⟩
    rw [parseArgs, (Program.scan_iff_means line asked).mpr hmeans]

theorem main_refused {line : List String} :
    main out env line = 2 ↔ ∃ message, program.Means line (.error message) := by
  simp only [← Program.scan_iff_means]
  unfold main parseArgs
  cases program.scan none none line with
  | error message => exact ⟨fun _ => ⟨message, rfl⟩, fun _ => rfl⟩
  | ok asked =>
    cases asked with
    | given command endpoint => simpa [Except.map, invocation] using run_ne endpoint
    | _ => simp [Except.map, invocation]

theorem main_already {line : List String} : main out env line = 3 ↔
    ∃ endpoint address other, program.Means line (.ok (.given none endpoint)) ∧
      bytesOf address = (origin endpoint env).path ∧ out.runtime = .ok () ∧
      out.bind address = .error (.alreadyRunning other) := by
  simp only [← Program.scan_iff_means, ← chosen_ok_iff]
  unfold main parseArgs
  cases program.scan none none line with
  | error message => simp [Except.map]
  | ok asked =>
    cases asked with
    | given command endpoint =>
      obtain rfl : command = none := Option.eq_none_iff_forall_ne_some.mpr fun c => c.elim
      simp [Except.map, invocation, run_already]
    | _ => simp [Except.map, invocation]

end Mehoyd

namespace Mehoy
variable {out : Outside}

theorem run_ne (command : Command) (endpoint : Option String) :
    run out env command endpoint ≠ 2 := by
  unfold run
  split
  · decide
  · split
    · decide
    · exact exitCode_ne _

theorem run_notRunning {command : Command} {endpoint : Option String} :
    run out env command endpoint = 3 ↔
      ∃ address other, chosen endpoint env = .ok address ∧ out.runtime = .ok () ∧
        out.call address command.call = .error (.transport (.notRunning other)) := by
  constructor
  · intro h
    unfold run at h
    split at h
    · cases h
    · rename_i address haddress
      split at h
      · cases h
      · rename_i hruntime
        obtain ⟨other, hcall⟩ := exitCode_notRunning.mp h
        exact ⟨address, other, haddress, hruntime, hcall⟩
  · rintro ⟨address, other, haddress, hruntime, hcall⟩
    simp only [run, haddress, hruntime]
    exact exitCode_notRunning.mpr ⟨other, hcall⟩

theorem parseArgs_iff {line : List String} {result : Except String Invocation} :
    parseArgs line = result ↔
      ∃ asked, program.Means line asked ∧ result = asked.bind invocation := by
  constructor
  · rintro rfl
    exact ⟨_, (Program.scan_iff_means line _).mp rfl, rfl⟩
  · rintro ⟨asked, hmeans, rfl⟩
    rw [parseArgs, (Program.scan_iff_means line asked).mpr hmeans]

theorem main_refused {line : List String} : main out env line = 2 ↔
    (∃ message, program.Means line (.error message)) ∨
      ∃ endpoint, program.Means line (.ok (.given none endpoint)) := by
  simp only [← Program.scan_iff_means]
  unfold main parseArgs
  cases program.scan none none line with
  | error message => simp [Except.bind]
  | ok asked =>
    cases asked with
    | given command endpoint =>
      cases command with
      | none => simp [Except.bind, invocation]
      | some command => simpa [Except.bind, invocation] using run_ne command endpoint
    | _ => simp [Except.bind, invocation]

theorem main_notRunning {line : List String} : main out env line = 3 ↔
    ∃ command endpoint address other, program.Means line (.ok (.given (some command) endpoint)) ∧
      bytesOf address = (origin endpoint env).path ∧ out.runtime = .ok () ∧
      out.call address command.call = .error (.transport (.notRunning other)) := by
  simp only [← Program.scan_iff_means, ← chosen_ok_iff]
  unfold main parseArgs
  cases program.scan none none line with
  | error message => simp [Except.bind]
  | ok asked =>
    cases asked with
    | given command endpoint =>
      cases command with
      | none => simp [Except.bind, invocation]
      | some command => simp [Except.bind, invocation, run_notRunning]
    | _ => simp [Except.bind, invocation]

end Mehoy

/-- Each line is read as the one thing it says, and the exit codes tell the outcomes apart. -/
theorem command_lines_read (line : List String) (env : Environment) :
    (∀ result, Mehoyd.parseArgs line = result ↔
      ∃ asked, Mehoyd.program.Means line asked ∧ result = asked.map Mehoyd.invocation) ∧
    (∀ result, Mehoy.parseArgs line = result ↔
      ∃ asked, Mehoy.program.Means line asked ∧ result = asked.bind Mehoy.invocation) ∧
    (∀ out : Mehoyd.Outside,
      (Mehoyd.main out env line = 2 ↔ ∃ message, Mehoyd.program.Means line (.error message)) ∧
      (Mehoyd.main out env line = 3 ↔ ∃ endpoint address other,
        Mehoyd.program.Means line (.ok (.given none endpoint)) ∧
        bytesOf address = (origin endpoint env).path ∧ out.runtime = .ok () ∧
        out.bind address = .error (.alreadyRunning other))) ∧
    ∀ out : Mehoy.Outside,
      (Mehoy.main out env line = 2 ↔ (∃ message, Mehoy.program.Means line (.error message)) ∨
        ∃ endpoint, Mehoy.program.Means line (.ok (.given none endpoint))) ∧
      (Mehoy.main out env line = 3 ↔ ∃ command endpoint address other,
        Mehoy.program.Means line (.ok (.given (some command) endpoint)) ∧
        bytesOf address = (origin endpoint env).path ∧ out.runtime = .ok () ∧
        out.call address command.call = .error (.transport (.notRunning other))) :=
  ⟨fun _ => Mehoyd.parseArgs_iff, fun _ => Mehoy.parseArgs_iff,
    fun _ => ⟨Mehoyd.main_refused, Mehoyd.main_already⟩,
    fun _ => ⟨Mehoy.main_refused, Mehoy.main_notRunning⟩⟩

end MehoyRuntime.Daemon
