import MehoyRuntime.Lib.Text
import MehoyRuntime.Lib.Utf8
import MehoyRuntime.Stream.Wire
import MehoyRuntime.Transport.Directory
import Std.Data.String.ToNat

/-!
# Where the endpoint is

`EndpointAddress::resolve` and the defaults of the two platforms. `Place` is what the
default of Unix depends on; two processes have one default address where they have one
place, and so an account without a runtime directory shares it with no other.
-/

namespace MehoyRuntime.Transport
open Utf8 (bytesOf textOf)

/-- What is read of the process: three variables as bytes, and the effective user. -/
structure Environment where
  MEHOY_ENDPOINT : Option (List UInt8)
  XDG_RUNTIME_DIR : Option (List UInt8)
  TMPDIR : Option (List UInt8)
  uid : UInt32
  deriving DecidableEq, Repr

def slash : UInt8 := 0x2f

/-- `PathBuf::join` with a relative path. -/
def join (base : List UInt8) (path : String) : List UInt8 :=
  if base = [] ∨ base.getLast? = some slash then base ++ bytesOf path
  else base ++ slash :: bytesOf path

def nonEmpty (value : Option (List UInt8)) : Option (List UInt8) := value.filter (· ≠ [])

/-- A name that is qualified by user. -/
def qualified (name : String) (uid : UInt32) : String := s!"{name}-{uid}"

namespace EndpointAddress

def base (env : Environment) : List UInt8 :=
  match nonEmpty env.XDG_RUNTIME_DIR with
  | some dir => join dir "mehoy"
  | none => join ((nonEmpty env.TMPDIR).getD (bytesOf "/tmp")) (qualified "mehoy" env.uid)

def defaultAddress (env : Environment) : Except EndpointError String :=
  let path := join (base env) "mehoyd.sock"
  match textOf path with
  | some address => .ok address
  | none => .error (.noDefaultLocation
      s!"path {Stream.fromUtf8Lossy (path.length + 1) path} is not valid UTF-8")

/-- `MEHOY_ENDPOINT`, where it is text that is not blank. -/
def override (env : Environment) : Option String :=
  (env.MEHOY_ENDPOINT.bind textOf).filter fun value => !(Stream.trim value).isEmpty

def resolve (platform : Except EndpointError String) (env : Environment) :
    Except EndpointError String :=
  match override env with
  | some value => .ok value
  | none => platform

end EndpointAddress

/-- Where credential files are written: below `temp_dir`, which takes `TMPDIR` as it is. -/
def Credential.secretDirectory (env : Environment) : List UInt8 :=
  join (env.TMPDIR.getD (bytesOf "/tmp")) (qualified "mehoy-backend" env.uid)

/-! ### Places -/

/-- A directory without the slash at its end. -/
def stem (dir : List UInt8) : List UInt8 :=
  if dir.getLast? = some slash then dir.dropLast else dir

/-- The directory that the default lies in: in one's own, or under one's own name. -/
inductive Place
  | runtime (dir : List UInt8)
  | temporary (dir : List UInt8) (uid : UInt32)
  deriving DecidableEq, Repr

namespace Place

def parent : Place → List UInt8
  | .runtime dir | .temporary dir _ => dir

def name : Place → String
  | .runtime _ => "mehoy"
  | .temporary _ uid => qualified "mehoy" uid

def path (place : Place) : List UInt8 := place.parent ++ slash :: bytesOf place.name

/-- The path of the default endpoint, which may not be text. -/
def socket (place : Place) : List UInt8 := place.path ++ slash :: bytesOf "mehoyd.sock"

end Place

def Environment.place (env : Environment) : Place :=
  match nonEmpty env.XDG_RUNTIME_DIR with
  | some dir => .runtime (stem dir)
  | none => .temporary (stem ((nonEmpty env.TMPDIR).getD (bytesOf "/tmp"))) env.uid

theorem nonEmpty_ne {value : Option (List UInt8)} {dir : List UInt8}
    (h : nonEmpty value = some dir) : dir ≠ [] := by
  simpa using (Option.filter_eq_some_iff.mp h).2

theorem join_eq {base : List UInt8} (hbase : base ≠ []) (path : String) :
    join base path = stem base ++ slash :: bytesOf path := by
  unfold join stem
  by_cases hslash : base.getLast? = some slash
  · obtain ⟨front, rfl⟩ := List.getLast?_eq_some_iff.mp hslash
    simp
  · simp [hslash, hbase]

theorem stem_component {front last : List UInt8} (hlast : last ≠ []) (h : slash ∉ last) :
    stem (front ++ slash :: last) = front ++ slash :: last := by
  unfold stem
  rw [if_neg]
  intro hslash
  have hmem : slash ∈ last := by
    apply List.mem_of_getLast?
    simpa [List.getLast?_append, List.getLast?_cons, List.getLast?_eq_some_getLast hlast]
      using hslash
  exact h hmem

/-- The last component of a path is what follows its last slash. -/
theorem last_component {front front' last last' : List UInt8} (h : slash ∉ last)
    (h' : slash ∉ last') (heq : front ++ slash :: last = front' ++ slash :: last') :
    front = front' ∧ last = last' := by
  rcases List.append_eq_append_iff.mp heq with ⟨more, hfront, hlast⟩ | ⟨more, hfront, hlast⟩
  · cases more with
    | nil => simpa [hfront] using hlast
    | cons b more =>
      have hmem : slash ∈ last := by
        rw [(List.cons.inj hlast).2]
        simp
      exact absurd hmem h
  · cases more with
    | nil => simpa [hfront, eq_comm] using hlast
    | cons b more =>
      have hmem : slash ∈ last' := by
        rw [(List.cons.inj hlast).2]
        simp
      exact absurd hmem h'

theorem qualified_toList (name : String) (uid : UInt32) :
    (qualified name uid).toList = name.toList ++ '-' :: Nat.toDigits 10 uid.toNat := by
  have hshown : toString uid = Nat.repr uid.toNat := rfl
  rw [qualified, hshown]
  simp [toString, Nat.toList_repr]

theorem qualified_injective (name : String) : Function.Injective (qualified name) := by
  intro uid uid' h
  have hlist := congrArg String.toList h
  rw [qualified_toList, qualified_toList] at hlist
  have hdigits := (List.cons.inj (List.append_cancel_left hlist)).2
  have hrepr : Nat.repr uid.toNat = Nat.repr uid'.toNat := by
    rw [Nat.repr_eq_ofList_toDigits, Nat.repr_eq_ofList_toDigits, hdigits]
  exact UInt32.toNat_inj.mp (Nat.repr_injective hrepr)

/-- A character of one byte that is no slash. -/
def Plain (c : Char) : Prop := c.utf8Size = 1 ∧ c.val.toUInt8 ≠ slash

instance (c : Char) : Decidable (Plain c) := inferInstanceAs (Decidable (_ ∧ _))

theorem plain_digit {c : Char} (h : c.isDigit = true) : Plain c := by
  have hrange : 48 ≤ c.val.toNat ∧ c.val.toNat ≤ 57 := by
    simpa [Char.isDigit, UInt32.le_iff_toNat_le] using h
  constructor
  · rw [Char.utf8Size_eq_one_iff, UInt32.le_iff_toNat_le]
    exact Nat.le_trans hrange.2 (by decide)
  · intro hslash
    have hnat := congrArg UInt8.toNat hslash
    rw [UInt32.toNat_toUInt8, show slash.toNat = 47 from rfl] at hnat
    omega

theorem slash_plain {text : String} (h : ∀ c ∈ text.toList, Plain c) : slash ∉ bytesOf text := by
  rw [Utf8.bytesOf_ascii fun c hc => (h c hc).1, List.mem_map]
  rintro ⟨c, hc, hslash⟩
  exact (h c hc).2 hslash

theorem plain_of_all {text : String} (h : text.toList.all (fun c => decide (Plain c)) = true) :
    ∀ c ∈ text.toList, Plain c := by
  simpa using h

theorem slash_qualified {name : String} (hname : ∀ c ∈ name.toList, Plain c) (uid : UInt32) :
    slash ∉ bytesOf (qualified name uid) := by
  apply slash_plain
  intro c hc
  rw [qualified_toList, List.mem_append, List.mem_cons] at hc
  rcases hc with hmem | rfl | hdigit
  · exact hname c hmem
  · decide
  · exact plain_digit (Text.digits_isDigit _ hdigit)

namespace Place

theorem slash_name (place : Place) : slash ∉ bytesOf place.name := by
  cases place with
  | runtime dir =>
    simp only [name]
    decide
  | temporary dir uid => exact slash_qualified (plain_of_all (by decide)) uid

theorem name_length (place : Place) : 5 ≤ place.name.toList.length := by
  cases place with
  | runtime dir =>
    simp only [name]
    decide
  | temporary dir uid => simp [name, qualified_toList]

theorem path_injective : Function.Injective path := by
  intro place place' h
  obtain ⟨hparent, hbytes⟩ := last_component place.slash_name place'.slash_name h
  have hname : place.name = place'.name := Utf8.bytesOf_injective hbytes
  have hchars := congrArg String.toList hname
  cases place with
  | runtime dir =>
    cases place' with
    | runtime dir' => exact congrArg Place.runtime hparent
    | temporary dir' uid' => simp [name, qualified_toList] at hchars
  | temporary dir uid =>
    cases place' with
    | runtime dir' => simp [name, qualified_toList] at hchars
    | temporary dir' uid' =>
      obtain rfl : dir = dir' := hparent
      rw [qualified_injective "mehoy" hname]

theorem socket_injective : Function.Injective socket := by
  intro place place' h
  have hlast : slash ∉ bytesOf "mehoyd.sock" := by decide
  exact path_injective (last_component hlast hlast h).1

end Place

/-! ### The directory for credentials -/

namespace Credential

theorem slash_secret (uid : UInt32) : slash ∉ bytesOf (qualified "mehoy-backend" uid) :=
  slash_qualified (plain_of_all (by decide)) uid

/-- Below some directory, or in the working directory where `TMPDIR` is empty. -/
theorem secretDirectory_cases (env : Environment) :
    secretDirectory env = bytesOf (qualified "mehoy-backend" env.uid) ∨
    ∃ dir, secretDirectory env = dir ++ slash :: bytesOf (qualified "mehoy-backend" env.uid) := by
  unfold secretDirectory
  by_cases hempty : env.TMPDIR.getD (bytesOf "/tmp") = []
  · left
    simp [join, hempty]
  · right
    exact ⟨_, join_eq hempty _⟩

theorem secretDirectory_uid {env env' : Environment}
    (h : secretDirectory env = secretDirectory env') : env.uid = env'.uid := by
  apply qualified_injective "mehoy-backend"
  apply Utf8.bytesOf_injective
  rcases secretDirectory_cases env with hown | ⟨dir, hown⟩ <;>
    rcases secretDirectory_cases env' with hother | ⟨dir', hother⟩ <;>
    rw [hown, hother] at h
  · exact h
  · exact absurd (h ▸ slash_secret env.uid) (by simp)
  · exact absurd (h.symm ▸ slash_secret env'.uid) (by simp)
  · exact (last_component (slash_secret _) (slash_secret _) h).2

theorem secret_ne_name (uid : UInt32) (place : Place) :
    qualified "mehoy-backend" uid ≠ place.name := by
  intro h
  have hchars := congrArg String.toList h
  cases place with
  | runtime dir => simp [Place.name, qualified_toList] at hchars
  | temporary dir uid' =>
    simp only [Place.name, qualified_toList] at hchars
    have hdigits : Nat.toDigits 10 uid'.toNat = "backend-".toList ++ Nat.toDigits 10 uid.toNat := by
      simpa [eq_comm] using hchars
    have hmem : 'b' ∈ Nat.toDigits 10 uid'.toNat := by simp [hdigits]
    exact absurd (Text.digits_isDigit _ hmem) (by decide)

theorem secretDirectory_ne_path (env : Environment) (place : Place) :
    secretDirectory env ≠ place.path := by
  intro h
  rcases secretDirectory_cases env with hown | ⟨dir, hown⟩ <;> rw [hown, Place.path] at h
  · exact absurd (h ▸ slash_secret env.uid) (by simp)
  · have hname := (last_component (slash_secret _) place.slash_name h).2
    exact secret_ne_name env.uid place (Utf8.bytesOf_injective hname)

end Credential

/-! ### The default -/

theorem base_eq (env : Environment) : EndpointAddress.base env = env.place.path := by
  unfold EndpointAddress.base Environment.place
  cases hdir : nonEmpty env.XDG_RUNTIME_DIR with
  | some dir => exact join_eq (nonEmpty_ne hdir) _
  | none =>
    apply join_eq
    cases htmp : nonEmpty env.TMPDIR with
    | some dir => exact nonEmpty_ne htmp
    | none => decide

theorem default_path (env : Environment) :
    join (EndpointAddress.base env) "mehoyd.sock" = env.place.socket := by
  have hname : bytesOf env.place.name ≠ [] := by
    intro hempty
    have hlength := env.place.name_length
    rw [show env.place.name = "" from Utf8.bytesOf_injective hempty] at hlength
    simp at hlength
  rw [base_eq, join_eq (by simp [Place.path]), Place.path, stem_component hname env.place.slash_name]
  rfl

/-- The default is the text of the place's socket, where that is text. -/
theorem defaultAddress_ok_iff {env : Environment} {address : String} :
    EndpointAddress.defaultAddress env = .ok address ↔ bytesOf address = env.place.socket := by
  unfold EndpointAddress.defaultAddress
  rw [default_path]
  constructor
  · intro h
    dsimp only at h
    split at h
    · rename_i text htext
      cases h
      exact Utf8.bytesOf_textOf htext
    · cases h
  · intro h
    simp only [← h, Utf8.textOf_bytesOf]

/-! ### What a program uses -/

namespace EndpointAddress

/-- The address that a program uses: of its flag, else of its environment, else the default. -/
def chosen (flag : Option String) (env : Environment) : Except EndpointError String :=
  match flag with
  | some value => .ok value
  | none => resolve (defaultAddress env) env

/-- Where an address comes from. -/
inductive Origin
  | named (value : String)
  | perUser (place : Place)
  deriving DecidableEq, Repr

def Origin.path : Origin → List UInt8
  | .named value => bytesOf value
  | .perUser place => place.socket

def origin (flag : Option String) (env : Environment) : Origin :=
  match flag.or (override env) with
  | some value => .named value
  | none => .perUser env.place

theorem chosen_ok_iff {flag : Option String} {env : Environment} {address : String} :
    chosen flag env = .ok address ↔ bytesOf address = (origin flag env).path := by
  unfold chosen origin resolve
  cases flag with
  | some value => simp [Origin.path, Utf8.bytesOf_injective.eq_iff, eq_comm]
  | none =>
    cases override env with
    | some value => simp [Origin.path, Utf8.bytesOf_injective.eq_iff, eq_comm]
    | none => simpa [Origin.path] using defaultAddress_ok_iff

theorem chosen_error_iff {flag : Option String} {env : Environment} :
    (∃ err, chosen flag env = .error err) ↔
      flag.or (override env) = none ∧ textOf env.place.socket = none := by
  unfold chosen resolve
  cases flag with
  | some value => simp
  | none =>
    cases override env with
    | some value => simp
    | none =>
      simp only [defaultAddress, default_path, Option.or_none, true_and]
      cases textOf env.place.socket <;> simp

/-- One runtime directory, or none and one directory for temporary files with one user. -/
def SamePlace (env env' : Environment) : Prop :=
  match nonEmpty env.XDG_RUNTIME_DIR, nonEmpty env'.XDG_RUNTIME_DIR with
  | some dir, some dir' => stem dir = stem dir'
  | none, none => env.uid = env'.uid ∧
      stem ((nonEmpty env.TMPDIR).getD (bytesOf "/tmp")) =
        stem ((nonEmpty env'.TMPDIR).getD (bytesOf "/tmp"))
  | _, _ => False

/-- What it takes for two programs to use one address. -/
def Meet (flag flag' : Option String) (env env' : Environment) : Prop :=
  match flag.or (override env), flag'.or (override env') with
  | some value, some value' => value = value'
  | some value, none => bytesOf value = env'.place.socket
  | none, some value' => bytesOf value' = env.place.socket
  | none, none => SamePlace env env'

theorem place_eq_iff {env env' : Environment} :
    env.place = env'.place ↔ SamePlace env env' := by
  unfold Environment.place SamePlace
  cases nonEmpty env.XDG_RUNTIME_DIR <;> cases nonEmpty env'.XDG_RUNTIME_DIR <;>
    simp [and_comm]

theorem addresses_meet (flag flag' : Option String) (env env' : Environment) :
    (∀ address address', chosen flag env = .ok address → chosen flag' env' = .ok address' →
      (address = address' ↔ Meet flag flag' env env')) ∧
    ((∃ err, chosen flag env = .error err) ↔
      flag.or (override env) = none ∧ textOf env.place.socket = none) ∧
    (Credential.secretDirectory env = Credential.secretDirectory env' → env.uid = env'.uid) ∧
    Credential.secretDirectory env ≠ base env' := by
  have hsecret : Credential.secretDirectory env ≠ base env' := by
    rw [base_eq]
    exact Credential.secretDirectory_ne_path env env'.place
  refine ⟨?_, chosen_error_iff, Credential.secretDirectory_uid, hsecret⟩
  intro address address' h h'
  have hpath := chosen_ok_iff.mp h
  have hpath' := chosen_ok_iff.mp h'
  rw [← Utf8.bytesOf_injective.eq_iff, hpath, hpath']
  unfold Meet origin
  cases flag.or (override env) with
  | some value =>
    cases flag'.or (override env') with
    | some value' => exact Utf8.bytesOf_injective.eq_iff
    | none => exact Iff.rfl
  | none =>
    cases flag'.or (override env') with
    | some value' => exact eq_comm
    | none => exact Place.socket_injective.eq_iff.trans place_eq_iff

/-! Two accounts with nothing set. -/

def plainUser : Environment := ⟨none, none, none, 1000⟩

def otherUser : Environment := ⟨some [0x20], some [], some [], 1001⟩

theorem addresses_meet_accounts : (∃ address address', chosen none plainUser = .ok address ∧
    chosen none otherUser = .ok address' ∧ address ≠ address') ∧
    Credential.secretDirectory plainUser ≠ Credential.secretDirectory otherUser := by
  have h : chosen none plainUser = .ok "/tmp/mehoy-1000/mehoyd.sock" := rfl
  have h' : chosen none otherUser = .ok "/tmp/mehoy-1001/mehoyd.sock" := rfl
  obtain ⟨haddress, -, hsecret, -⟩ := addresses_meet none none plainUser otherUser
  have huid : plainUser.uid ≠ otherUser.uid := by decide
  refine ⟨⟨_, _, h, h', ?_⟩, fun hsame => huid (hsecret hsame)⟩
  intro hsame
  have hmeet : plainUser.uid = otherUser.uid ∧ _ := (haddress _ _ h h').mp hsame
  exact huid hmeet.1

end EndpointAddress

end MehoyRuntime.Transport
