import Mathlib.Data.List.Basic

/-!
# Directories, links and accounts

Files by inode number and the entries of directories by name. A path is its components,
the last one first, from the root. A symbolic link is the inode it leads to, if any. What
an account may change is decided by the directory the entry is in.
-/

namespace Filesystem

inductive Kind
  | directory
  | symlink (target : Option ℕ)
  | file
  deriving DecidableEq, Repr

structure Node where
  kind : Kind
  uid : UInt32
  mode : UInt32
  deriving DecidableEq, Repr

inductive Fault
  | notFound
  | alreadyExists
  | notADirectory
  | permissionDenied (text : String)
  | other (text : String)
  deriving DecidableEq, Repr

/-- A system call may fail for a reason outside the files. -/
def attempt {α : Type} (answer : Except Fault α) : Option String → Except Fault α
  | some text => .error (.other text)
  | none => answer

theorem attempt_ok {α : Type} {answer : Except Fault α} {failure : Option String} {a : α}
    (h : attempt answer failure = .ok a) : failure = none ∧ answer = .ok a := by
  cases failure with
  | none => exact ⟨rfl, h⟩
  | some text => cases h

abbrev Path := List String

/-- The root is inode 0. -/
structure Files where
  nodes : List Node
  entries : ℕ → String → Option ℕ

namespace Files

def entry (fs : Files) (dir : ℕ) (name : String) : Except Fault ℕ :=
  match fs.nodes[dir]? with
  | some ⟨.directory, _, _⟩ =>
    match fs.entries dir name with
    | some inode => .ok inode
    | none => .error .notFound
  | _ => .error .notADirectory

def follow (fs : Files) (inode : ℕ) : Except Fault ℕ :=
  match fs.nodes[inode]? with
  | some ⟨.symlink (some target), _, _⟩ => .ok target
  | some ⟨.symlink none, _, _⟩ => .error .notFound
  | _ => .ok inode

/-- The inode a path leads to, through every link on the way. -/
def resolve (fs : Files) : Path → Except Fault ℕ
  | [] => .ok 0
  | name :: above => do
    let dir ← fs.resolve above
    let inode ← fs.entry dir name
    fs.follow inode

/-- The inode at a path, a link as itself. -/
def lookup (fs : Files) : Path → Except Fault ℕ
  | [] => .ok 0
  | name :: above => do
    let dir ← fs.resolve above
    fs.entry dir name

def node (fs : Files) (inode : ℕ) : Except Fault Node :=
  match fs.nodes[inode]? with
  | some node => .ok node
  | none => .error .notFound

/-- `symlink_metadata`. -/
def lstat (fs : Files) (path : Path) : Except Fault Node := do
  fs.node (← fs.lookup path)

/-- `is_dir`, which follows links. -/
def isDir (fs : Files) (path : Path) : Bool :=
  match fs.resolve path >>= fs.node with
  | .ok node => node.kind = .directory
  | .error _ => false

def put (fs : Files) (dir : ℕ) (name : String) (inode : Option ℕ) : Files where
  nodes := fs.nodes
  entries := fun d n => if d = dir ∧ n = name then inode else fs.entries d n

def add (fs : Files) (dir : ℕ) (name : String) (node : Node) : Files where
  nodes := fs.nodes ++ [node]
  entries := (fs.put dir name (some fs.nodes.length)).entries

def mkdir (fs : Files) (path : Path) (uid mode : UInt32) : Except Fault Files :=
  match path with
  | [] => .error .alreadyExists
  | name :: above => do
    let dir ← fs.resolve above
    match fs.entry dir name with
    | .ok _ => .error .alreadyExists
    | .error .notFound => .ok (fs.add dir name ⟨.directory, uid, mode⟩)
    | .error fault => .error fault

/-! ### Other accounts -/

def stickyBit : UInt32 := 0o1000

/-- Its owner, and whoever its group and other bits let in. -/
def mayWrite (account : UInt32) (dir : Node) : Bool :=
  dir.kind = .directory && (dir.uid = account || dir.mode &&& 0o022 ≠ 0)

/-- An entry may be taken out of a directory, from a sticky one by an owner only. -/
def mayTake (account : UInt32) (dir entry : Node) : Bool :=
  mayWrite account dir && (dir.mode &&& stickyBit = 0 || entry.uid = account || dir.uid = account)

inductive Change
  | make (dir : ℕ) (name : String) (node : Node)
  | remove (dir : ℕ) (name : String)
  | rename (dir : ℕ) (name : String) (dir' : ℕ) (name' : String)
  deriving DecidableEq

/-- The account may take away the entry, or there is none. -/
def mayClear (fs : Files) (account : UInt32) (dir : ℕ) (name : String) : Bool :=
  match fs.nodes[dir]?, fs.entries dir name with
  | some dirNode, some inode =>
    match fs.nodes[inode]? with
    | some node => mayTake account dirNode node
    | none => false
  | some dirNode, none => mayWrite account dirNode
  | none, _ => false

/-- What another account does to the files, where it may. -/
def change (fs : Files) (account : UInt32) : Change → Option Files
  | .make dir name node =>
    if node.uid = account ∧ fs.mayClear account dir name ∧ fs.entries dir name = none then
      some (fs.add dir name node)
    else none
  | .remove dir name =>
    if fs.mayClear account dir name then some (fs.put dir name none) else none
  | .rename dir name dir' name' =>
    match fs.entries dir name with
    | none => none
    | some inode =>
      if fs.mayClear account dir name ∧ fs.mayClear account dir' name' then
        some ((fs.put dir name none).put dir' name' (some inode))
      else none

/-! ### Making a directory -/

variable {fs fs' : Files} {path : Path} {inode dir : ℕ} {name : String} {uid mode : UInt32}
  {node : Node}

theorem node_add_old (h : inode < fs.nodes.length) :
    (fs.add dir name node).nodes[inode]? = fs.nodes[inode]? :=
  List.getElem?_append_left h

theorem node_add_new : (fs.add dir name node).nodes[fs.nodes.length]? = some node := by
  simp [add]

/-- A new entry hides none that there was. -/
theorem entry_add (hfresh : fs.entry dir name = .error .notFound) {d : ℕ} {n : String}
    (h : fs.entry d n = .ok inode) : (fs.add dir name node).entry d n = .ok inode := by
  have hne : ¬ (d = dir ∧ n = name) := by
    rintro ⟨rfl, rfl⟩
    rw [hfresh] at h
    cases h
  have hd : d < fs.nodes.length := by
    by_contra hlt
    rw [entry, List.getElem?_eq_none (Nat.le_of_not_lt hlt)] at h
    cases h
  unfold entry at h ⊢
  rw [node_add_old hd]
  simpa only [add, put, if_neg hne] using h

theorem follow_add (hkind : node.kind = .directory) {target : ℕ}
    (h : fs.follow inode = .ok target) : (fs.add dir name node).follow inode = .ok target := by
  rcases Nat.lt_trichotomy inode fs.nodes.length with hlt | rfl | hgt
  · unfold follow at h ⊢
    rwa [node_add_old hlt]
  · obtain ⟨kind, uid, mode⟩ := node
    obtain rfl : kind = .directory := hkind
    unfold follow at h ⊢
    rw [List.getElem?_eq_none (Nat.le_refl _)] at h
    rw [node_add_new]
    exact h
  · unfold follow at h ⊢
    rw [List.getElem?_eq_none (Nat.le_of_lt hgt)] at h
    rw [List.getElem?_eq_none]
    · exact h
    · rw [add, List.length_append, List.length_singleton]
      exact hgt

theorem bind_ok {ε α β : Type} {x : Except ε α} {f : α → Except ε β} {b : β}
    (h : (x >>= f) = .ok b) : ∃ a, x = .ok a ∧ f a = .ok b := by
  cases x with
  | error e => cases h
  | ok a => exact ⟨a, rfl, h⟩

theorem resolve_add (hfresh : fs.entry dir name = .error .notFound) (hkind : node.kind = .directory)
    (h : fs.resolve path = .ok inode) : (fs.add dir name node).resolve path = .ok inode := by
  induction path generalizing inode with
  | nil => exact h
  | cons n above ih =>
    obtain ⟨d, habove, h⟩ := bind_ok h
    obtain ⟨i, hentry, hfollow⟩ := bind_ok h
    rw [resolve, ih habove]
    change ((fs.add dir name node).entry d n >>= _) = _
    rw [entry_add hfresh hentry]
    exact follow_add hkind hfollow

/-- What `mkdir` has done where it succeeds. -/
theorem mkdir_ok (h : fs.mkdir path uid mode = .ok fs') :
    ∃ name above dir, path = name :: above ∧ fs.resolve above = .ok dir ∧
      fs.entry dir name = .error .notFound ∧ fs' = fs.add dir name ⟨.directory, uid, mode⟩ := by
  cases path with
  | nil => cases h
  | cons name above =>
    obtain ⟨dir, habove, h⟩ := bind_ok h
    refine ⟨name, above, dir, rfl, habove, ?_⟩
    cases hentry : fs.entry dir name with
    | ok inode =>
      rw [hentry] at h
      cases h
    | error fault =>
      rw [hentry] at h
      cases fault with
      | notFound => exact ⟨rfl, (Except.ok.inj h).symm⟩
      | _ => cases h

/-- The directory just made is what is at the path. -/
theorem lstat_mkdir (h : fs.mkdir path uid mode = .ok fs') :
    fs'.lstat path = .ok ⟨.directory, uid, mode⟩ := by
  obtain ⟨name, above, dir, rfl, habove, hfresh, rfl⟩ := mkdir_ok h
  have hdir : dir < fs.nodes.length := by
    by_contra hlt
    rw [entry, List.getElem?_eq_none (Nat.le_of_not_lt hlt)] at hfresh
    cases hfresh
  have hentry : (fs.add dir name ⟨.directory, uid, mode⟩).entry dir name = .ok fs.nodes.length := by
    unfold entry at hfresh ⊢
    rw [node_add_old hdir]
    split at hfresh
    · simp [add, put]
    · cases hfresh
  rw [lstat, lookup, resolve_add hfresh rfl habove]
  change ((fs.add dir name ⟨.directory, uid, mode⟩).entry dir name >>= _) = _
  rw [hentry]
  change (fs.add dir name ⟨.directory, uid, mode⟩).node fs.nodes.length = _
  rw [Files.node, node_add_new]

end Files
end Filesystem
