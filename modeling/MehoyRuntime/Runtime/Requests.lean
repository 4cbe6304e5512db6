import MehoyRuntime.Runtime.Admission

/-!
# The requests of an instance

What holds of every admitted request by itself, how requests are numbered, and which of
them the `active` table holds. Identifiers repeat after `2 ^ 64` admissions, so the table
is complete as long as there were no more.
-/

namespace MehoyRuntime.Runtime
open MehoyRuntime.Core MehoyRuntime.Stream TransitionSystem KeyedTable

/-! ### One request -/

/-- What the handle and the answer are where the caller's future stands. -/
def Whole.Stands (w : Whole) : WholePc → Prop
  | .admitted | .selecting _ | .dropped => w.handle.isTerminal = false
  | .stopped cause => w.handle.isTerminal = false ∧ w.handle.cancellationCause = some cause
  | .sent x => w.handle.isTerminal = false ∧ ∃ late, w.transport = some ⟨late, x⟩
  | .verifying result => w.handle.isTerminal = true ∧
      ∃ late x, w.transport = some ⟨late, x⟩ ∧ (conclude w.request x).2 = .ok result
  | .returned result => w.handle.isTerminal = true ∧
      ((∃ cause, result = .error (.stopped cause) ∧ w.handle.cancellationCause = some cause) ∨
        ∃ late x, w.transport = some ⟨late, x⟩ ∧ (conclude w.request x).2 = result)

theorem conclude_isTerminal (request : WholeRequest) (x : Sent) :
    (conclude request x).1.isTerminal = true := by
  unfold conclude
  split
  · rfl
  · split <;> rfl
  · rfl
  · split <;> rfl
  · rfl
  · rfl

theorem Whole.Stands.later {w : Whole} {h : RequestHandle} (hs : w.Stands w.pc)
    (hl : w.handle.Later h) (ht : h.isTerminal = w.handle.isTerminal) :
    ({ w with handle := h } : Whole).Stands w.pc := by
  cases hpc : w.pc with
  | admitted | selecting | dropped =>
    rw [hpc] at hs
    exact ht.trans hs
  | stopped cause =>
    rw [hpc] at hs
    exact ⟨ht.trans hs.1, hl.cause cause hs.2⟩
  | sent x =>
    rw [hpc] at hs
    exact ⟨ht.trans hs.1, hs.2⟩
  | verifying result =>
    rw [hpc] at hs
    exact ⟨ht.trans hs.1, hs.2⟩
  | returned result =>
    rw [hpc] at hs
    refine ⟨ht.trans hs.1, ?_⟩
    rcases hs.2 with ⟨cause, hr, hc⟩ | hanswer
    · exact .inl ⟨cause, hr, hl.cause cause hc⟩
    · exact .inr hanswer

theorem Whole.step_stands {late : Bool} {w w' : Whole} {a : WholeAction} (hs : w.Stands w.pc)
    (h : w.step late w.pc a = some w') : w'.Stands w'.pc := by
  cases Whole.step_cases h with
  | running hpc =>
    rw [hpc] at hs
    exact (RequestHandle.markRunning_isTerminal w.handle).trans hs
  | arrived hpc hnone =>
    rw [hpc] at hs
    simp only [hpc]
    exact hs
  | told hpc hcause =>
    rw [hpc] at hs
    exact ⟨hs, hcause⟩
  | @answered polled arrival hpc hcause harrival =>
    rw [hpc] at hs
    exact ⟨hs, arrival.late, harrival⟩
  | waiting hpc hcause hnone =>
    rw [hpc] at hs
    exact hs
  | dropped hpc =>
    rw [hpc] at hs
    exact hs
  | @stopped cause hpc =>
    rw [hpc] at hs
    refine ⟨RequestHandle.finish_isTerminal rfl w.handle, .inl ⟨cause, rfl, ?_⟩⟩
    exact (RequestHandle.finish_cause w.handle .cancelled).trans hs.2
  | @settled x hpc =>
    rw [hpc] at hs
    obtain ⟨-, late', harrived⟩ := hs
    have hended := RequestHandle.finish_isTerminal (conclude_isTerminal w.request x) w.handle
    cases hresult : (conclude w.request x).2 with
    | error err => exact ⟨hended, .inr ⟨late', x, harrived, hresult⟩⟩
    | ok result =>
      cases hverify : w.verify with
      | false =>
        simp only [Whole.resultPc, hverify, Whole.finish]
        exact ⟨hended, .inr ⟨late', x, harrived, hresult⟩⟩
      | true =>
        simp only [Whole.resultPc, hverify, Whole.finish]
        exact ⟨hended, late', x, harrived, hresult⟩

theorem accepted_told {h : RequestHandle} (ha : Accepted h) (cause : CancellationCause) :
    Accepted (h.requestCancellation cause).2 := by
  obtain ⟨id, rfl | ⟨first, rfl⟩⟩ := ha
  · exact ⟨id, .inr ⟨cause, rfl⟩⟩
  · exact ⟨id, .inr ⟨first, rfl⟩⟩

/-- A request is what its own parties and the cancellations of its handle make of it. -/
def Request.Valid (ext : Externals) : Request → Prop
  | .whole w => w.Stands w.pc
  | .accepted handle _ => Accepted handle
  | .stream t => Reachable (Stream.system ext) t

namespace LoadedModel
variable {ext : Externals} {a : Action} {s s' : State}

theorem Fresh.valid {id : RequestId} {r : Request} (h : Fresh (.new id) r) : r.Valid ext := by
  rcases h with ⟨request, verify, rfl⟩ | ⟨body, rfl⟩
  · exact RequestHandle.isTerminal_new id
  · exact ⟨id, .inl rfl⟩

theorem Move.valid {late : Bool} {r r' : Request} (hr : r.Valid ext) (h : Move ext late r r') :
    r'.Valid ext := by
  cases h with
  | step a ha =>
    cases r with
    | whole w =>
      cases a with
      | whole action =>
        obtain ⟨w', hw, rfl⟩ := Option.map_eq_some_iff.mp ha
        exact Whole.step_stands hr hw
      | _ => cases ha
    | accepted handle body =>
      cases a with
      | startGeneration =>
        cases ha
        exact .init ⟨handle, body, hr, rfl⟩
      | _ => cases ha
    | stream t =>
      cases a with
      | stream action =>
        obtain ⟨t', ht, rfl⟩ := Option.map_eq_some_iff.mp ha
        exact Reachable.next action hr ht
      | _ => cases ha
  | told cause =>
    cases r with
    | whole w =>
      have hs : w.Stands w.pc := hr
      exact hs.later (RequestHandle.later_requestCancellation _ cause)
        (RequestHandle.requestCancellation_isTerminal _ cause)
    | accepted handle body => exact accepted_told hr cause
    | stream t => exact Reachable.next (.requestCancellation cause) hr rfl
  | verified hpc =>
    rename_i w result
    have hs : w.Stands w.pc := hr
    rw [hpc] at hs
    exact ⟨hs.1, .inr hs.2⟩

/-- What every new request has and every move keeps, every admitted request has. -/
theorem reachable_requests {P : Request → Prop}
    (hfresh : ∀ {id : RequestId} {r : Request}, Fresh (.new id) r → P r)
    (hmove : ∀ {s : State} {i : ℕ} {r r' : Request}, Reachable (system ext) s →
      s.admitted[i]? = some r → P r → Move ext (0 < s.stopCalls) r r' → P r')
    (h : Reachable (system ext) s) : ∀ (i : ℕ) (r : Request), s.admitted[i]? = some r → P r := by
  induction h with
  | init hi =>
    obtain ⟨id, identity, capabilities, rfl⟩ := hi
    intro i r hr
    simp [new] at hr
  | step hreach _ hst ih =>
    intro i r' hr'
    rcases (step_effect hst).earlier hr' with ⟨r, hr, rfl | hmoved⟩ | ⟨-, -, hnew⟩
    · exact ih i r hr
    · exact hmove hreach hr (ih i r hr) hmoved
    · exact hfresh hnew

theorem reachable_valid (h : Reachable (system ext) s) :
    ∀ (i : ℕ) (r : Request), s.admitted[i]? = some r → r.Valid ext :=
  reachable_requests Fresh.valid (fun _ _ hr hmove => hmove.valid hr) h

/-- A request that has not ended has somebody at work on it, unless its caller dropped
the future at the select. -/
theorem executing_of_valid {r : Request} (hr : r.Valid ext) (hopen : r.isTerminal = false) :
    r.executing = true ∨ ∃ w, r = .whole w ∧ w.pc = .dropped := by
  cases r with
  | whole w =>
    have hs : w.Stands w.pc := hr
    cases hpc : w.pc with
    | returned result =>
      rw [hpc] at hs
      have hended : w.handle.isTerminal = true := hs.1
      rw [show w.handle.isTerminal = false from hopen] at hended
      cases hended
    | dropped => exact .inr ⟨w, rfl, hpc⟩
    | _ =>
      refine .inl ?_
      simp only [Request.executing, hpc]
  | accepted handle body => exact .inl rfl
  | stream t =>
    have hstatus := (reachable_sound hr).status
    rw [show t.chan.handle.isTerminal = false from hopen] at hstatus
    refine .inl ?_
    simp only [Request.executing]
    split
    · rename_i hpc
      rw [hpc] at hstatus
      cases hstatus
    · rename_i hpc
      rw [hpc] at hstatus
      cases hstatus
    · rfl

/-! ### Numbering -/

/-- The request admitted at `i` carries the number `i + 1`, as a word. -/
structure Numbered (s : State) : Prop where
  next : s.requests.next = UInt64.ofNat (s.admitted.length + 1)
  ids : ∀ (i : ℕ) (r : Request), s.admitted[i]? = some r →
    r.handle.id = ⟨UInt64.ofNat (i + 1)⟩

theorem Fresh.id {handle : RequestHandle} {r : Request} (h : Fresh handle r) :
    r.handle = handle := by
  rcases h with ⟨request, verify, rfl⟩ | ⟨body, rfl⟩ <;> rfl

theorem Numbered.request {s : State} (hn : Numbered s) :
    s.requests.request.1 = ⟨UInt64.ofNat (s.admitted.length + 1)⟩ :=
  congrArg RequestId.mk hn.next

theorem Effect.numbered (hn : Numbered s) (h : Effect ext a s s') : Numbered s' := by
  constructor
  · cases h with
    | idle hadm hids => rw [hids, hadm, hn.next]
    | pruned hadm hids => rw [hids, hadm, hn.next]
    | cleared hadm hids => rw [hids, hadm, hn.next]
    | moved _ _ hadm _ hids => rw [hids, hadm, List.length_set, hn.next]
    | admitted _ _ _ hadm hids =>
      rw [hids, hadm, List.length_append, List.length_singleton, ← Word.ofNat_succ, ← hn.next]
      rfl
  · intro i r' hr'
    rcases h.earlier hr' with ⟨r, hr, rfl | hmove⟩ | ⟨rfl, -, hfresh⟩
    · exact hn.ids i r hr
    · exact hmove.later.id.trans (hn.ids i r hr)
    · rw [hfresh.id, RequestHandle.new_id, hn.request]

theorem reachable_numbered (h : Reachable (system ext) s) : Numbered s := by
  induction h with
  | init hi =>
    obtain ⟨id, identity, capabilities, rfl⟩ := hi
    exact ⟨rfl, fun i r hr => by simp [new] at hr⟩
  | step _ _ hst ih => exact (step_effect hst).numbered ih

theorem Numbered.request_ne (hn : Numbered s) (hfew : s.admitted.length < 2 ^ 64) {i : ℕ}
    {r : Request} (hr : s.admitted[i]? = some r) : r.handle.id ≠ s.requests.request.1 := by
  obtain ⟨hi, -⟩ := List.getElem?_eq_some_iff.mp hr
  rw [hn.ids i r hr, hn.request]
  intro he
  have hlt : i + 1 < s.admitted.length + 1 := by omega
  have hd : s.admitted.length + 1 - (i + 1) < 2 ^ 64 := by omega
  exact Word.ofNat_ne hlt hd (congrArg RequestId.raw he)

/-! ### The table -/

/-- Every request that has not ended is in the table, under its own identifier. -/
def Complete (s : State) : Prop :=
  ∀ (i : ℕ) (r : Request), s.admitted[i]? = some r → r.isTerminal = false →
    s.active.lookup r.handle.id = some i

theorem State.terminalAt_eq {i : ℕ} {r : Request} (hr : s.admitted[i]? = some r) :
    s.terminalAt i = r.isTerminal := by
  rw [State.terminalAt, hr, Option.elim_some]

theorem State.lookup_retained {id : RequestId} {i : ℕ} (h : s.active.lookup id = some i)
    (hopen : s.terminalAt i = false) : s.retained.lookup id = some i := by
  rw [State.retained, lookup_retain, h, Option.filter_some, hopen]
  rfl

theorem State.lookup_of_retained {id : RequestId} {i : ℕ} (h : s.retained.lookup id = some i) :
    s.active.lookup id = some i ∧ s.terminalAt i = false := by
  rw [State.retained, lookup_retain, Option.filter_eq_some_iff] at h
  exact ⟨h.1, by simpa using h.2⟩

theorem Effect.complete (hc : Complete s) (h : Effect ext a s s')
    (hfree : a.begins = true → s.phase = .serving → s.admitted.length < s'.admitted.length →
      ∀ (i : ℕ) (r : Request), s.admitted[i]? = some r → r.isTerminal = false →
        r.handle.id ≠ s.requests.request.1) :
    Complete s' ∨ (s'.admitted = s.admitted ∧
      (s'.phase = .unloaded ∨ (s'.phase = .unloadFailed ∧ RecordsFailure s a))) := by
  cases h with
  | idle hadm hids hact hphase =>
    refine .inl fun i r hr hopen => ?_
    rw [hadm] at hr
    rw [hact]
    exact hc i r hr hopen
  | pruned hadm hids hact hphase =>
    refine .inl fun i r hr hopen => ?_
    rw [hadm] at hr
    rw [hact]
    exact State.lookup_retained (hc i r hr hopen) ((State.terminalAt_eq hr).trans hopen)
  | cleared hadm hids hact hphase => exact .inr ⟨hadm, hphase⟩
  | admitted hbegins hfresh hserving hadm hids hact hphase =>
    refine .inl fun i r hr hopen => ?_
    rw [hadm] at hr
    rw [hact]
    rcases Slots.get_push_cases hr with ⟨rfl, rfl⟩ | hr
    · rw [hfresh.id, RequestHandle.new_id, AList.lookup_insert]
    · have hlonger : s.admitted.length < s'.admitted.length := by
        rw [hadm, List.length_append, List.length_singleton]
        exact Nat.lt_succ_self _
      rw [AList.lookup_insert_ne (hfree hbegins hserving hlonger i r hr hopen)]
      exact State.lookup_retained (hc i r hr hopen) ((State.terminalAt_eq hr).trans hopen)
  | @moved j x x' hj hmove hadm hdrop hids hact hphase =>
    refine .inl fun i r hr hopen => ?_
    rw [hadm] at hr
    rw [hact]
    rcases Slots.get_set_cases hr with ⟨rfl, rfl⟩ | ⟨-, hr⟩
    · have hlater := hmove.later
      have hbefore : x.isTerminal = false := by
        cases hx : x.isTerminal with
        | false => rfl
        | true =>
          have hended : r.isTerminal = true := hlater.isTerminal hx
          rw [hopen] at hended
          cases hended
      rw [hlater.id]
      exact hc i x hj hbefore
    · exact hc i r hr hopen

/-- Until the end of a teardown the table is complete, as long as no identifier was handed
out twice. -/
theorem reachable_complete (h : Reachable (system ext) s) (hfew : s.admitted.length ≤ 2 ^ 64)
    (hphase : s.phase = .serving ∨ s.phase = .unloading) : Complete s := by
  induction h with
  | init hi =>
    obtain ⟨id, identity, capabilities, rfl⟩ := hi
    intro i r hr
    simp [new] at hr
  | @step s s' a hreach _ hst ih =>
    have heffect := step_effect hst
    have hsucc := step_phase (reachable_teardown hreach) hst
    have hbefore := hsucc.notEnded hphase
    have hle : s.admitted.length ≤ s'.admitted.length := by
      rcases heffect.length with he | ⟨-, he⟩ <;> omega
    have hcomplete := ih (Nat.le_trans hle hfew) hbefore
    rcases heffect.complete hcomplete (fun _ _ hlt i r hr _ =>
      (reachable_numbered hreach).request_ne (Nat.lt_of_lt_of_le hlt hfew) hr) with hc | ⟨-, hend⟩
    · exact hc
    · rcases hphase with hp | hp <;> rcases hend with he | ⟨he, -⟩ <;> rw [hp] at he <;> cases he

def Keyed (s : State) : Prop :=
  ∀ (id : RequestId) (i : ℕ), s.active.lookup id = some i →
    ∃ r, s.admitted[i]? = some r ∧ r.handle.id = id

theorem Effect.keyed (hk : Keyed s) (h : Effect ext a s s') : Keyed s' := by
  -- An entry that was there before goes on standing for its request.
  have hkept : ∀ (id : RequestId) (i : ℕ), s.active.lookup id = some i →
      ∃ r', s'.admitted[i]? = some r' ∧ r'.handle.id = id := by
    intro id i hi
    obtain ⟨r, hr, hid⟩ := hk id i hi
    obtain ⟨r', hr', hlater⟩ := h.later hr
    exact ⟨r', hr', hlater.id.trans hid⟩
  intro id i hi
  cases h with
  | idle hadm hids hact hphase =>
    rw [hact] at hi
    exact hkept id i hi
  | pruned hadm hids hact hphase =>
    rw [hact] at hi
    exact hkept id i (State.lookup_of_retained hi).1
  | cleared hadm hids hact hphase =>
    rw [hact, AList.lookup_empty] at hi
    cases hi
  | @admitted r hbegins hfresh hserving hadm hids hact hphase =>
    rw [hact] at hi
    rcases eq_or_ne id s.requests.request.1 with rfl | hne
    · rw [AList.lookup_insert] at hi
      obtain rfl : s.admitted.length = i := Option.some.inj hi
      refine ⟨r, ?_, ?_⟩
      · rw [hadm, List.getElem?_concat_length]
      · rw [hfresh.id, RequestHandle.new_id]
    · rw [AList.lookup_insert_ne hne] at hi
      exact hkept id i (State.lookup_of_retained hi).1
  | moved hj hmove hadm hdrop hids hact hphase =>
    rw [hact] at hi
    exact hkept id i hi

theorem reachable_keyed (h : Reachable (system ext) s) : Keyed s := by
  induction h with
  | init hi =>
    obtain ⟨id, identity, capabilities, rfl⟩ := hi
    intro id i h
    cases h
  | step _ _ hst ih => exact (step_effect hst).keyed ih

end LoadedModel
end MehoyRuntime.Runtime
