import MehoyRuntime.Stream.Outcome

/-!
# What a stream demonstrates

A stream counts what its consumer has read. The invariant says what the counts stand for:
deltas with text in them, and a completion that is the request's own.
-/

namespace MehoyRuntime.Stream
open MehoyRuntime.Core TransitionSystem
variable {ext : Externals}

structure CountsRead (s : State) : Prop where
  deltas : 0 < s.chan.stream.deltas → ∃ id text, .ok (.textDelta id text) ∈ s.chan.delivered
  completed : s.chan.stream.completed = true →
    ∃ id summary, .ok (.completed id summary) ∈ s.chan.delivered
  texts : ∀ id text, .ok (.textDelta id text) ∈ s.chan.items → text ≠ ""
  emitting : ∀ text rest, s.pc = .emitting text rest → text ≠ ""
  ended : ∀ id summary, .ok (.completed id summary) ∈ s.chan.items →
    s.chan.handle.state = .completed

variable {s s' : State}

theorem completed_later {h h' : RequestHandle} (hl : h.Later h') (hs : h.state = .completed) :
    h'.state = .completed := by
  have hterminal : h.isTerminal = true := by
    rw [RequestHandle.isTerminal, hs]
    rfl
  exact (hl.terminal hterminal).trans hs

theorem countsRead_start (handle : RequestHandle) (body : Except String (List UInt8)) :
    CountsRead (startGeneration handle body) where
  deltas h := by cases h
  completed h := by cases h
  texts id text h := by simp [startGeneration, generationStream, Channel.items] at h
  emitting text rest h := by cases h
  ended id summary h := by simp [startGeneration, generationStream, Channel.items] at h

/-- A completion in the channel is the handle's own, as long as the task was not aborted. -/
theorem ended_of_sound (hs : s.Sound) (hp : s.pc ≠ .aborted) :
    ∀ id summary, .ok (.completed id summary) ∈ s.chan.items →
      s.chan.handle.state = .completed :=
  fun _ _ hmem => hs.matched hp _ hmem

theorem Silent.items (h : Silent s s') : s'.chan.items = s.chan.items := by
  rw [Channel.items, Channel.items, h.delivered, h.queue]

theorem Spoken.items {item x : StreamItem} (h : Spoken s s' item) (hx : x ∈ s'.chan.items) :
    x ∈ s.chan.items ∨ x = item := by
  rw [Channel.items, h.delivered] at hx
  rcases h.queue with hq | hq
  · rw [hq] at hx
    exact .inl hx
  · rw [hq, ← List.append_assoc, List.mem_append, List.mem_singleton] at hx
    exact hx

/-- Nothing has been read. -/
theorem CountsRead.unread (hs : CountsRead s) (hstream : s'.chan.stream = s.chan.stream)
    (hdelivered : s'.chan.delivered = s.chan.delivered)
    (htexts : ∀ id text, .ok (.textDelta id text) ∈ s'.chan.items → text ≠ "")
    (hemitting : ∀ text rest, s'.pc = .emitting text rest → text ≠ "")
    (hended : ∀ id summary, .ok (.completed id summary) ∈ s'.chan.items →
      s'.chan.handle.state = .completed) : CountsRead s' where
  deltas hd := by
    rw [hstream] at hd
    rw [hdelivered]
    exact hs.deltas hd
  completed hc := by
    rw [hstream] at hc
    rw [hdelivered]
    exact hs.completed hc
  texts := htexts
  emitting := hemitting
  ended := hended

theorem Spoken.countsRead {item : StreamItem} (hs : CountsRead s) (h : Spoken s s' item)
    (htext : ∀ id text, item = .ok (.textDelta id text) → text ≠ "")
    (hended : ∀ id summary, .ok (.completed id summary) ∈ s'.chan.items →
      s'.chan.handle.state = .completed) : CountsRead s' := by
  refine hs.unread h.stream h.delivered (fun id text hmem => ?_)
    (fun text rest hp => absurd hp (h.emitting text rest)) hended
  rcases h.items hmem with hbefore | hitem
  · exact hs.texts id text hbefore
  · exact htext id text hitem.symm

theorem taskStep_countsRead {a : TaskAction} (hsound : s.Sound) (hs : CountsRead s)
    (h : s.taskStep ext s.pc a = some s') : CountsRead s' := by
  have hended := ended_of_sound (State.taskStep_sound hsound h) (State.follows_taskStep h).kept
  rcases State.taskStep_speaks h with hsilent | ⟨text, rest, hpc, hspoken⟩ | ⟨item, hpc, hspoken⟩
  · refine hs.unread hsilent.stream hsilent.delivered (fun id text hmem => ?_)
      hsilent.emitting hended
    rw [hsilent.items] at hmem
    exact hs.texts id text hmem
  · refine hspoken.countsRead hs (fun id text' he => ?_) hended
    cases he
    exact hs.emitting text rest hpc
  · refine hspoken.countsRead hs (fun id text he => ?_) hended
    -- What is announced ends the stream; it is no delta.
    obtain ⟨hterminal, -⟩ := hsound.ready item hpc
    rw [he] at hterminal
    cases hterminal

theorem CountsRead.abandoned (hs : CountsRead s) (hlater : s.chan.handle.Later s'.chan.handle)
    (hstream : s'.chan.stream = s.chan.stream) (hdelivered : s'.chan.delivered = s.chan.delivered)
    (hitems : ∀ x ∈ s'.chan.items, x ∈ s.chan.items)
    (hpc : ∀ text rest, s'.pc = .emitting text rest → s.pc = .emitting text rest) : CountsRead s' :=
  hs.unread hstream hdelivered (fun id text hmem => hs.texts id text (hitems _ hmem))
    (fun text rest hp => hs.emitting text rest (hpc text rest hp))
    fun id summary hmem => completed_later hlater (hs.ended id summary (hitems _ hmem))

theorem read_countsRead {item : StreamItem} {rest : List StreamItem} (hs : CountsRead s)
    (hq : s.chan.queue = item :: rest) :
    CountsRead { s with
      chan := { s.chan with
        queue := rest
        stream := s.chan.stream.observe item
        delivered := s.chan.delivered ++ [item] } } := by
  have hitems : s.chan.delivered ++ [item] ++ rest = s.chan.items := by
    rw [Channel.items, hq, List.append_assoc, List.singleton_append]
  have hlast : item ∈ s.chan.delivered ++ [item] := List.mem_append_right _ List.mem_cons_self
  constructor
  case deltas =>
    intro hd
    rcases item with error | event
    · obtain ⟨id, text, hmem⟩ := hs.deltas hd
      exact ⟨id, text, List.mem_append_left _ hmem⟩
    · cases event with
      | textDelta id text => exact ⟨id, text, hlast⟩
      | _ =>
        obtain ⟨id, text, hmem⟩ := hs.deltas hd
        exact ⟨id, text, List.mem_append_left _ hmem⟩
  case completed =>
    intro hc
    rcases item with error | event
    · obtain ⟨id, summary, hmem⟩ := hs.completed hc
      exact ⟨id, summary, List.mem_append_left _ hmem⟩
    · cases event with
      | completed id summary => exact ⟨id, summary, hlast⟩
      | _ =>
        obtain ⟨id, summary, hmem⟩ := hs.completed hc
        exact ⟨id, summary, List.mem_append_left _ hmem⟩
  case texts =>
    intro id text hmem
    exact hs.texts id text (hitems ▸ hmem)
  case emitting => exact hs.emitting
  case ended =>
    intro id summary hmem
    exact hs.ended id summary (hitems ▸ hmem)

theorem gone_countsRead (hs : CountsRead s) (hq : s.chan.queue = []) :
    CountsRead { s with
      chan := { s.chan with
        handle := (s.chan.handle.finish .failed).2
        stream := { s.chan.stream with finished := true }
        delivered := s.chan.delivered ++ [Channel.producerGone] } } := by
  have hitems : ∀ x, x ∈ s.chan.delivered ++ [Channel.producerGone] ++ s.chan.queue →
      x ∈ s.chan.items ∨ x = Channel.producerGone := by
    intro x hx
    rw [hq, List.append_nil, List.mem_append, List.mem_singleton] at hx
    exact hx.imp_left fun hx => List.mem_append_left _ hx
  constructor
  case deltas =>
    intro hd
    obtain ⟨id, text, hmem⟩ := hs.deltas hd
    exact ⟨id, text, List.mem_append_left _ hmem⟩
  case completed =>
    intro hc
    obtain ⟨id, summary, hmem⟩ := hs.completed hc
    exact ⟨id, summary, List.mem_append_left _ hmem⟩
  case texts =>
    intro id text hmem
    rcases hitems _ hmem with hbefore | hgone
    · exact hs.texts id text hbefore
    · cases hgone
  case emitting => exact hs.emitting
  case ended =>
    intro id summary hmem
    rcases hitems _ hmem with hbefore | hgone
    · exact completed_later (RequestHandle.later_finish _ _) (hs.ended id summary hbefore)
    · cases hgone

theorem step_countsRead {a : Action} (hsound : s.Sound) (hs : CountsRead s)
    (h : step ext s a = some s') : CountsRead s' := by
  have hlater := step_later h
  cases State.step_cases h with
  | task htask => exact taskStep_countsRead hsound hs htask
  | aborted => exact hs.abandoned hlater rfl rfl (fun _ hx => hx) fun _ _ hp => by cases hp
  | told => exact hs.abandoned hlater rfl rfl (fun _ hx => hx) fun _ _ hp => hp
  | finished => exact hs
  | read _ _ hqueue => exact read_countsRead hs hqueue
  | gone _ _ hqueue => exact gone_countsRead hs hqueue
  | dropped =>
    refine hs.abandoned hlater rfl rfl (fun x hx => ?_) fun _ _ hp => hp
    rw [Channel.items, Channel.dropStream, List.append_nil] at hx
    exact List.mem_append_left _ hx

theorem reachable_countsRead (h : Reachable (system ext) s) : CountsRead s := by
  induction h with
  | init hi =>
    obtain ⟨handle, body, -, rfl⟩ := hi
    exact countsRead_start handle body
  | step hreach _ hst ih => exact step_countsRead (reachable_sound hreach) ih hst

/-- What a stream demonstrates, its request has done: it completed, after text that was
delivered. -/
structure Demonstrated (s : State) : Prop where
  completed : s.chan.handle.state = .completed
  text : ∃ id text, .ok (.textDelta id text) ∈ s.chan.delivered ∧ text ≠ ""

theorem demonstrated_of_stream (h : Reachable (system ext) s)
    (hd : s.chan.stream.demonstratedGeneration = true) : Demonstrated s := by
  have hs := reachable_countsRead h
  simp only [GenerationStream.demonstratedGeneration, Bool.and_eq_true, decide_eq_true_eq] at hd
  obtain ⟨hcompleted, hdeltas⟩ := hd
  obtain ⟨id, summary, hend⟩ := hs.completed hcompleted
  obtain ⟨id', text, hdelta⟩ := hs.deltas hdeltas
  have hitems : ∀ x ∈ s.chan.delivered, x ∈ s.chan.items := fun _ hx => List.mem_append_left _ hx
  exact ⟨hs.ended id summary (hitems _ hend), id', text, hdelta, hs.texts id' text (hitems _ hdelta)⟩

theorem step_delivered {a : Action} (h : step ext s a = some s') {x : StreamItem}
    (hx : x ∈ s.chan.delivered) : x ∈ s'.chan.delivered := by
  cases State.step_cases h with
  | task htask =>
    rcases State.taskStep_speaks htask with hsilent | ⟨_, _, -, hspoken⟩ | ⟨_, -, hspoken⟩
    · rwa [hsilent.delivered]
    · rwa [hspoken.delivered]
    · rwa [hspoken.delivered]
  | aborted => exact hx
  | told => exact hx
  | finished => exact hx
  | read => exact List.mem_append_left _ hx
  | gone => exact List.mem_append_left _ hx
  | dropped => exact hx

theorem Demonstrated.step {a : Action} (hs : Demonstrated s) (h : step ext s a = some s') :
    Demonstrated s' where
  completed := completed_later (step_later h) hs.completed
  text := by
    obtain ⟨id, text, hmem, hne⟩ := hs.text
    exact ⟨id, text, step_delivered h hmem, hne⟩

end MehoyRuntime.Stream
