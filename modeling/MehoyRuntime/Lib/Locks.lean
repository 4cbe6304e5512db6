import MehoyRuntime.Lib.Slots
import MehoyRuntime.Lib.System
import Mathlib

/-!
# Locks taken in an order

Any number of threads, each with what it still does to the locks. A program is the
language of the scripts it can run; `pause` is where it waits for something outside. If
every script takes its locks upwards in one ranking and holds none where it pauses, the
threads exclude each other and never wait for each other in a circle: of the threads that
wait for a lock, the one waiting for the highest waits for a thread that can go on.
-/

namespace Locks
open TransitionSystem Computability
universe u
variable {L : Type u}

inductive Event (L : Type u)
  | acquire (lock : L)
  | release (lock : L)
  | pause
  deriving DecidableEq

structure Thread (L : Type u) where
  held : List L
  todo : List (Event L)

/-- Finished, or waiting for something that is not a lock. -/
def Thread.Settled (t : Thread L) : Prop := t.todo = [] ∨ t.todo.head? = some .pause

section Steps
variable [DecidableEq L]

def Thread.advance (free : L → Bool) (t : Thread L) : Option (Thread L) :=
  match t.todo with
  | [] => none
  | .acquire lock :: rest => if free lock then some ⟨lock :: t.held, rest⟩ else none
  | .release lock :: rest => if lock ∈ t.held then some ⟨t.held.erase lock, rest⟩ else none
  | .pause :: rest => some ⟨t.held, rest⟩

def free (threads : List (Thread L)) (lock : L) : Bool := threads.all fun t => lock ∉ t.held

def step (threads : List (Thread L)) (i : ℕ) : Option (List (Thread L)) := do
  let t ← threads[i]?
  let t' ← t.advance (free threads)
  return threads.set i t'

/-- Each thread runs a script of the program. -/
def system (program : Language (Event L)) : System (List (Thread L)) ℕ where
  init threads := ∀ t ∈ threads, t.held = [] ∧ t.todo ∈ program
  step := step

/-- The steps that wait for nothing outside. -/
def moving (program : Language (Event L)) : System (List (Thread L)) ℕ where
  init := (system program).init
  step threads i :=
    if (threads[i]?.bind (·.todo.head?)) = some .pause then none else step threads i

end Steps

/-! ### Scripts that keep to the order -/

variable (rank : L → ℕ)

def Ordered : List L → List (Event L) → Prop
  | held, [] => held = []
  | held, .acquire lock :: rest => (∀ h ∈ held, rank h < rank lock) ∧ Ordered (lock :: held) rest
  | held, .release lock :: rest => ∃ below, held = lock :: below ∧ Ordered below rest
  | held, .pause :: rest => held = [] ∧ Ordered [] rest

/-- Whatever follows, these scripts keep to the order before it and give all back. -/
def Keeps (held : List L) (program : Language (Event L)) : Prop :=
  ∀ script ∈ program, ∀ rest, Ordered rank held rest → Ordered rank held (script ++ rest)

/-- What is done under one lock. -/
def guarded (lock : L) (body : Language (Event L)) : Language (Event L) :=
  {[.acquire lock]} * body * {[.release lock]}

def pause : Language (Event L) := {[.pause]}

/-- The program, or a part of it up to a pause, and then the clearing up. -/
def abandonable (program cleanup : Language (Event L)) : Language (Event L) :=
  {script | script ∈ program ∨ ∃ before after later, script = before ++ .pause :: later ∧
    before ++ .pause :: after ∈ program ∧ later ∈ cleanup}

variable {rank} {held : List L} {program other : Language (Event L)}

theorem keeps_one : Keeps rank held 1 := by
  intro script hscript rest hrest
  obtain rfl := (Language.mem_one script).mp hscript
  exact hrest

theorem Keeps.mul (h : Keeps rank held program) (h' : Keeps rank held other) :
    Keeps rank held (program * other) := by
  intro script hscript rest hrest
  obtain ⟨a, ha, b, hb, rfl⟩ := Language.mem_mul.mp hscript
  rw [List.append_assoc]
  exact h a ha _ (h' b hb rest hrest)

theorem Keeps.add (h : Keeps rank held program) (h' : Keeps rank held other) :
    Keeps rank held (program + other) := by
  intro script hscript rest hrest
  rcases (Language.mem_add program other script).mp hscript with hscript | hscript
  · exact h script hscript rest hrest
  · exact h' script hscript rest hrest

theorem Keeps.kstar (h : Keeps rank held program) : Keeps rank held program∗ := by
  intro script hscript rest hrest
  obtain ⟨scripts, rfl, hall⟩ := Language.mem_kstar.mp hscript
  clear hscript
  induction scripts with
  | nil => exact hrest
  | cons first scripts ih =>
    have htail := ih fun y hy => hall y (List.mem_cons_of_mem first hy)
    rw [List.flatten_cons, List.append_assoc]
    exact h first (hall first List.mem_cons_self) _ htail

theorem keeps_iSup {ι : Type*} {programs : ι → Language (Event L)}
    (h : ∀ i, Keeps rank held (programs i)) : Keeps rank held (⨆ i, programs i) := by
  intro script hscript rest hrest
  obtain ⟨i, hi⟩ := Language.mem_iSup.mp hscript
  exact h i script hi rest hrest

theorem keeps_guarded {lock : L} (hrank : ∀ h ∈ held, rank h < rank lock)
    (h : Keeps rank (lock :: held) program) : Keeps rank held (guarded lock program) := by
  intro script hscript rest hrest
  obtain ⟨opening, hopening, closing, rfl, rfl⟩ := Language.mem_mul.mp hscript
  obtain ⟨start, rfl, body, hbody, rfl⟩ := Language.mem_mul.mp hopening
  simp only [List.append_assoc, List.cons_append, List.nil_append]
  exact ⟨hrank, h body hbody _ ⟨held, rfl, hrest⟩⟩

theorem mem_guarded {lock : L} {body : List (Event L)} (h : body ∈ program) :
    .acquire lock :: (body ++ [.release lock]) ∈ guarded lock program := by
  have hstart : [.acquire lock] ∈ ({[.acquire lock]} : Language (Event L)) := Set.mem_singleton _
  have hend : [.release lock] ∈ ({[.release lock]} : Language (Event L)) := Set.mem_singleton _
  exact Language.append_mem_mul (Language.append_mem_mul hstart h) hend

theorem keeps_pause : Keeps rank [] pause := by
  rintro script rfl rest hrest
  exact ⟨rfl, hrest⟩

/-- Nothing is held at a pause, so a script can be cut there. -/
theorem Ordered.cut {before after later : List (Event L)}
    (h : Ordered rank held (before ++ .pause :: after)) (hlater : Ordered rank [] later) :
    Ordered rank held (before ++ .pause :: later) := by
  induction before generalizing held with
  | nil => exact ⟨h.1, hlater⟩
  | cons event before ih =>
    cases event with
    | acquire lock => exact ⟨h.1, ih h.2⟩
    | release lock =>
      obtain ⟨below, hheld, hrest⟩ := h
      exact ⟨below, hheld, ih hrest⟩
    | pause => exact ⟨h.1, ih h.2⟩

theorem Keeps.abandonable (h : Keeps rank [] program) (hcleanup : Keeps rank [] other) :
    Keeps rank [] (abandonable program other) := by
  intro script hscript rest hrest
  rcases hscript with hscript | ⟨before, after, later, rfl, hbefore, hlater⟩
  · exact h script hscript rest hrest
  · have hwhole := h _ hbefore [] rfl
    rw [List.append_nil] at hwhole
    rw [List.append_assoc]
    exact hwhole.cut (hcleanup later hlater rest hrest)

theorem Keeps.ordered (h : Keeps rank [] program) {script : List (Event L)}
    (hscript : script ∈ program) : Ordered rank [] script := by
  have hwhole := h script hscript [] rfl
  rwa [List.append_nil] at hwhole

/-! ### Threads that keep to the order -/

variable [DecidableEq L] {threads threads' : List (Thread L)}

structure Disciplined (rank : L → ℕ) (threads : List (Thread L)) : Prop where
  ordered : ∀ t ∈ threads, Ordered rank t.held t.todo
  alone : ∀ (i j : ℕ) (t u : Thread L) (lock : L), threads[i]? = some t → threads[j]? = some u →
    lock ∈ t.held → lock ∈ u.held → i = j

theorem step_cases {i : ℕ} (h : step threads i = some threads') :
    ∃ t t', threads[i]? = some t ∧ t.advance (free threads) = some t' ∧
      threads' = threads.set i t' := by
  simp only [step, Option.bind_eq_bind, Option.bind_eq_some_iff, Option.pure_def,
    Option.some.injEq] at h
  obtain ⟨t, ht, t', hadvance, rfl⟩ := h
  exact ⟨t, t', ht, hadvance, rfl⟩

theorem advance_cases {open' : L → Bool} {t t' : Thread L} (h : t.advance open' = some t') :
    (∃ lock, t.todo = .acquire lock :: t'.todo ∧ open' lock = true ∧ t'.held = lock :: t.held) ∨
    (∃ lock, t.todo = .release lock :: t'.todo ∧ t'.held = t.held.erase lock) ∨
    (t.todo = .pause :: t'.todo ∧ t'.held = t.held) := by
  obtain ⟨held, todo⟩ := t
  cases todo with
  | nil => cases h
  | cons event rest =>
    cases event with
    | acquire lock =>
      simp only [Thread.advance, Option.ite_none_right_eq_some, Option.some.injEq] at h
      obtain ⟨hfree, rfl⟩ := h
      exact .inl ⟨lock, rfl, hfree, rfl⟩
    | release lock =>
      simp only [Thread.advance, Option.ite_none_right_eq_some, Option.some.injEq] at h
      obtain ⟨-, rfl⟩ := h
      exact .inr (.inl ⟨lock, rfl, rfl⟩)
    | pause =>
      obtain rfl := Option.some.inj h
      exact .inr (.inr ⟨rfl, rfl⟩)

theorem advance_ordered {open' : L → Bool} {t t' : Thread L} (h : t.advance open' = some t')
    (ht : Ordered rank t.held t.todo) : Ordered rank t'.held t'.todo := by
  rcases advance_cases h with ⟨lock, htodo, -, hheld⟩ | ⟨lock, htodo, hheld⟩ | ⟨htodo, hheld⟩
  · rw [htodo] at ht
    rw [hheld]
    exact ht.2
  · rw [htodo] at ht
    obtain ⟨below, hbelow, hrest⟩ := ht
    rw [hheld, hbelow, List.erase_cons_head]
    exact hrest
  · rw [htodo] at ht
    rw [hheld, ht.1]
    exact ht.2

theorem disciplined_step {i : ℕ} (hd : Disciplined rank threads)
    (h : step threads i = some threads') : Disciplined rank threads' := by
  obtain ⟨t, t', ht, hadvance, rfl⟩ := step_cases h
  have hordered := advance_ordered hadvance (hd.ordered t (List.mem_of_getElem? ht))
  -- A lock that the thread has now and had not before was free.
  have hnew : ∀ lock ∈ t'.held, lock ∈ t.held ∨ ∀ u ∈ threads, lock ∉ u.held := by
    intro lock hlock
    rcases advance_cases hadvance with ⟨taken, -, hfree, hheld⟩ | ⟨given, -, hheld⟩ | ⟨-, hheld⟩
    · rw [hheld] at hlock
      rcases List.mem_cons.mp hlock with rfl | hlock
      · exact .inr (by simpa [free] using hfree)
      · exact .inl hlock
    · rw [hheld] at hlock
      exact .inl (List.mem_of_mem_erase hlock)
    · rw [hheld] at hlock
      exact .inl hlock
  constructor
  · intro u hu
    rcases List.mem_or_eq_of_mem_set hu with hu | rfl
    · exact hd.ordered u hu
    · exact hordered
  · intro j k u v lock hu hv hlu hlv
    rcases Slots.get_set_cases hu with ⟨rfl, rfl⟩ | ⟨-, hu'⟩
    · rcases Slots.get_set_cases hv with ⟨rfl, rfl⟩ | ⟨-, hv'⟩
      · rfl
      · rcases hnew lock hlu with hold | hfree
        · exact hd.alone j k t v lock ht hv' hold hlv
        · exact absurd hlv (hfree v (List.mem_of_getElem? hv'))
    · rcases Slots.get_set_cases hv with ⟨rfl, rfl⟩ | ⟨-, hv'⟩
      · rcases hnew lock hlv with hold | hfree
        · exact hd.alone j k u t lock hu' ht hlu hold
        · exact absurd hlu (hfree u (List.mem_of_getElem? hu'))
      · exact hd.alone j k u v lock hu' hv' hlu hlv

theorem disciplined_reachable (hprogram : Keeps rank [] program)
    (h : Reachable (system program) threads) : Disciplined rank threads := by
  induction h with
  | init hi =>
    constructor
    · intro t ht
      obtain ⟨hheld, htodo⟩ := hi t ht
      rw [hheld]
      exact hprogram.ordered htodo
    · intro i j t u lock ht _ hlt
      rw [(hi t (List.mem_of_getElem? ht)).1] at hlt
      cases hlt
  | step _ _ hst ih => exact disciplined_step ih hst

/-! ### Somebody can go on -/

omit [DecidableEq L] in
theorem settled_held {t : Thread L} (h : Ordered rank t.held t.todo) (hs : t.Settled) :
    t.held = [] := by
  obtain ⟨held, todo⟩ := t
  cases todo with
  | nil => exact h
  | cons event rest =>
    rcases hs with hs | hs
    · cases hs
    · obtain rfl : event = .pause := by simpa using hs
      exact h.1

/-- A thread that cannot go on waits for a lock of another that has not come to rest. -/
theorem blocked {i : ℕ} {t : Thread L} (hd : Disciplined rank threads) (ht : threads[i]? = some t)
    (hs : ¬ t.Settled) (hstuck : step threads i = none) :
    ∃ lock rest, t.todo = .acquire lock :: rest ∧ ∃ u ∈ threads, ¬ u.Settled ∧ lock ∈ u.held := by
  have hordered := hd.ordered t (List.mem_of_getElem? ht)
  have hadvance : t.advance (free threads) = none := by
    cases hnext : t.advance (free threads) with
    | none => rfl
    | some t' => simp [step, ht, hnext] at hstuck
  obtain ⟨held, todo⟩ := t
  cases todo with
  | nil => exact absurd (.inl rfl) hs
  | cons event rest =>
    cases event with
    | acquire lock =>
      simp only [Thread.advance, ite_eq_right_iff, reduceCtorEq, imp_false] at hadvance
      obtain ⟨u, hu, hlock⟩ : ∃ u ∈ threads, lock ∈ u.held := by
        simpa [free] using hadvance
      refine ⟨lock, rest, rfl, u, hu, ?_, hlock⟩
      intro hsettled
      rw [settled_held (hd.ordered u hu) hsettled] at hlock
      cases hlock
    | release lock =>
      obtain ⟨below, rfl, -⟩ := hordered
      simp [Thread.advance] at hadvance
    | pause => exact absurd (.inr rfl) hs

/-- How high the lock is that a thread waits for. -/
def wanted (rank : L → ℕ) (t : Thread L) : ℕ :=
  match t.todo with
  | .acquire lock :: _ => rank lock
  | _ => 0

theorem somebody_moves (hd : Disciplined rank threads) (hs : ∃ t ∈ threads, ¬ t.Settled) :
    ∃ i t, threads[i]? = some t ∧ ¬ t.Settled ∧ (step threads i).isSome = true := by
  by_contra hnone
  have hblocked : ∀ t ∈ threads, ¬ t.Settled → ∃ lock rest, t.todo = .acquire lock :: rest ∧
      ∃ u ∈ threads, ¬ u.Settled ∧ lock ∈ u.held := by
    intro t ht hsettled
    obtain ⟨i, hi⟩ := List.getElem?_of_mem ht
    have hno : ¬ (step threads i).isSome = true := fun h => hnone ⟨i, t, hi, hsettled, h⟩
    exact blocked hd hi hsettled (by simpa using hno)
  -- Each thread that waits leads to one that waits for a higher lock.
  have hclimb : ∀ n, ∃ t ∈ threads, ¬ t.Settled ∧ n ≤ wanted rank t := by
    intro n
    induction n with
    | zero =>
      obtain ⟨t, ht, hsettled⟩ := hs
      exact ⟨t, ht, hsettled, Nat.zero_le _⟩
    | succ n ih =>
      obtain ⟨t, ht, hsettled, hn⟩ := ih
      obtain ⟨lock, rest, htodo, u, hu, husettled, hlock⟩ := hblocked t ht hsettled
      obtain ⟨higher, later, hutodo, -⟩ := hblocked u hu husettled
      have hordered := hd.ordered u hu
      rw [hutodo] at hordered
      have hup : rank lock < rank higher := hordered.1 lock hlock
      simp only [wanted, htodo] at hn
      refine ⟨u, hu, husettled, ?_⟩
      simp only [wanted, hutodo]
      omega
  obtain ⟨bound, hbound⟩ := ((List.finite_toSet threads).image (wanted rank)).bddAbove
  obtain ⟨t, ht, -, hmore⟩ := hclimb (bound + 1)
  have hle : wanted rank t ≤ bound := hbound ⟨t, ht, rfl⟩
  omega

/-! ### All come to rest -/

theorem moving_step {i : ℕ} (h : (moving program).step threads i = some threads') :
    step threads i = some threads' := by
  simp only [moving] at h
  split at h
  · cases h
  · exact h

def effort (threads : List (Thread L)) : ℕ := (threads.map (·.todo.length)).sum

theorem effort_step {i : ℕ} (h : step threads i = some threads') :
    effort threads' < effort threads := by
  obtain ⟨t, t', ht, hadvance, rfl⟩ := step_cases h
  have hshorter : t'.todo.length + 1 = t.todo.length := by
    rcases advance_cases hadvance with ⟨lock, htodo, -, -⟩ | ⟨lock, htodo, -⟩ | ⟨htodo, -⟩
    · simp [htodo]
    · simp [htodo]
    · simp [htodo]
  have hset := ((Slots.perm_set ht t').map (·.todo.length)).sum_eq
  have hget := ((Slots.perm_getElem ht).map (·.todo.length)).sum_eq
  simp only [List.map_cons, List.sum_cons] at hset hget
  simp only [effort, hset, hget]
  omega

/-- Without anything from outside, all threads finish or come to a pause. -/
theorem all_settle (hprogram : Keeps rank [] program) (h : Reachable (system program) threads) :
    ∃ rest, Steps (moving program) threads rest ∧ ∀ t ∈ rest, t.Settled := by
  have hdown : ∀ s s' a, (moving program).step s a = some s' → effort s' < effort s :=
    fun _ _ _ hst => effort_step (moving_step hst)
  obtain ⟨rest, hsteps, hstuck⟩ := exists_stuck hdown threads
  have hd : Disciplined rank rest := by
    clear hstuck
    induction hsteps with
    | refl => exact disciplined_reachable hprogram h
    | tail _ hst ih => exact disciplined_step ih (moving_step hst)
  refine ⟨rest, hsteps, ?_⟩
  by_contra hnot
  obtain ⟨t, ht, hsettled⟩ : ∃ t ∈ rest, ¬ t.Settled := by
    simpa using hnot
  obtain ⟨i, u, hu, husettled, hmoves⟩ := somebody_moves hd ⟨t, ht, hsettled⟩
  have hpause : ¬ (rest[i]?.bind (·.todo.head?)) = some .pause := by
    rw [hu]
    exact fun hhead => husettled (.inr hhead)
  have hnone := hstuck i
  simp only [moving, if_neg hpause] at hnone
  simp [hnone] at hmoves

end Locks
