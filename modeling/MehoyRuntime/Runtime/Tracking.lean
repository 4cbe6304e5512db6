import Mathlib.Data.List.FinRange
import MehoyRuntime.Runtime.Cleanup

/-!
# Who is behind the entries of the table

Both directions between the `active` table and the requests it is to stand for: an entry
that has not ended has somebody at work on its request, and a request that has not ended
has an entry. Each holds over the runs that keep clear of the steps that break it.
-/

namespace MehoyRuntime.Runtime.LoadedModel
open MehoyRuntime.Core MehoyRuntime.Stream TransitionSystem KeyedTable
variable {ext : Externals} {a : Action} {s s' : State}

/-! ### From entries to requests -/

/-- No caller drops its future while its handle is in the table. -/
def KeepsFutures (s : State) : Action → Prop
  | .request i (.whole .drop) => ∀ id, s.active.lookup id ≠ some i
  | _ => True

def Attached (s : State) : Prop :=
  ∀ (id : RequestId) (i : ℕ) (r : Request), s.active.lookup id = some i →
    s.admitted[i]? = some r → r.dropped = false

theorem Fresh.not_dropped {handle : RequestHandle} {r : Request} (h : Fresh handle r) :
    r.dropped = false := by
  rcases h with ⟨request, verify, rfl⟩ | ⟨body, rfl⟩ <;> rfl

theorem Effect.attached (ha : Attached s) (h : Effect ext a s s')
    (hkeep : KeepsFutures s a) : Attached s' := by
  intro id i r' hi hr'
  cases h with
  | idle hadm hids hact hphase =>
    rw [hact] at hi
    rw [hadm] at hr'
    exact ha id i r' hi hr'
  | pruned hadm hids hact hphase =>
    rw [hact] at hi
    rw [hadm] at hr'
    exact ha id i r' (State.lookup_of_retained hi).1 hr'
  | cleared hadm hids hact hphase =>
    rw [hact, AList.lookup_empty] at hi
    cases hi
  | admitted hbegins hfresh hserving hadm hids hact hphase =>
    rw [hadm] at hr'
    rcases Slots.get_push_cases hr' with ⟨rfl, rfl⟩ | hr
    · exact hfresh.not_dropped
    · rw [hact] at hi
      rcases eq_or_ne id s.requests.request.1 with rfl | hne
      · rw [AList.lookup_insert] at hi
        obtain ⟨hlt, -⟩ := List.getElem?_eq_some_iff.mp hr
        have he : s.admitted.length = i := Option.some.inj hi
        omega
      · rw [AList.lookup_insert_ne hne] at hi
        exact ha id i r' (State.lookup_of_retained hi).1 hr
  | @moved j x x' hj hmove hadm hdrop hids hact hphase =>
    rw [hact] at hi
    rw [hadm] at hr'
    rcases Slots.get_set_cases hr' with ⟨rfl, rfl⟩ | ⟨-, hr⟩
    · cases hd : r'.dropped with
      | false => rfl
      | true =>
        rcases hdrop hd with hbefore | rfl
        · rw [ha id i x hi hj] at hbefore
          cases hbefore
        · exact absurd hi (hkeep id)
    · exact ha id i r' hi hr

theorem reachableWhile_attached (h : ReachableWhile (system ext) KeepsFutures s) :
    Attached s := by
  induction h with
  | init hi =>
    obtain ⟨id, identity, capabilities, rfl⟩ := hi
    intro id i r h
    cases h
  | step _ hok hst ih => exact (step_effect hst).attached ih hok

theorem step_calls (h : step ext s a = some s') {k : ℕ} {call' : UnloadCall}
    (hk : s'.unloads[k]? = some call') (hex : call'.executing = true) :
    (∃ call, s.unloads[k]? = some call ∧ call.executing = true ∧
      call.outstanding = call'.outstanding) ∨
    ∃ drain, a = .beginUnload drain ∧ k = s.unloads.length ∧ call' = s.closingCall drain := by
  cases step_cases h with
  | kept hu hcontrol =>
    rw [show s'.unloads = s.unloads from congrArg Control.unloads hcontrol] at hk
    exact .inl ⟨call', hk, hex, rfl⟩
  | @closed drain hserving =>
    rcases Slots.get_push_cases hk with ⟨hlast, rfl⟩ | hk
    · exact .inr ⟨drain, rfl, hlast, rfl⟩
    · exact .inl ⟨call', hk, hex, rfl⟩
  | answered hp =>
    rcases Slots.get_push_cases hk with ⟨-, rfl⟩ | hk
    · cases hex
    · exact .inl ⟨call', hk, hex, rfl⟩
  | moved hj hnext =>
    rcases Slots.get_set_cases hk with ⟨rfl, rfl⟩ | ⟨-, hk⟩
    · exact .inl ⟨_, hj, hnext.executing, rfl⟩
    · rw [hnext.frame.1] at hk
      exact .inl ⟨call', hk, hex, rfl⟩
  | dropped hj =>
    rcases Slots.get_set_cases hk with ⟨rfl, rfl⟩ | ⟨-, hk⟩
    · cases hex
    · exact .inl ⟨call', hk, hex, rfl⟩

def Drains (s : State) : Prop :=
  ∀ (k : ℕ) (call : UnloadCall), s.unloads[k]? = some call → call.executing = true →
    ∀ i ∈ call.outstanding, ∀ r, s.admitted[i]? = some r → r.isTerminal = false →
      ∃ id, s.active.lookup id = some i

theorem Effect.entry (h : Effect ext a s s') (hp : s'.phase = .unloading) {i : ℕ}
    {r' : Request} (hr' : s'.admitted[i]? = some r') (hopen : r'.isTerminal = false)
    (hentry : ∀ r, s.admitted[i]? = some r → r.isTerminal = false →
      ∃ id, s.active.lookup id = some i) : ∃ id, s'.active.lookup id = some i := by
  cases h with
  | idle hadm hids hact hphase =>
    rw [hadm] at hr'
    rw [hact]
    exact hentry r' hr' hopen
  | pruned hadm hids hact hphase =>
    rw [hadm] at hr'
    obtain ⟨id, hid⟩ := hentry r' hr' hopen
    rw [hact]
    exact ⟨id, State.lookup_retained hid ((State.terminalAt_eq hr').trans hopen)⟩
  | cleared hadm hids hact hphase =>
    rcases hphase with he | ⟨he, -⟩ <;> rw [hp] at he <;> cases he
  | admitted hbegins hfresh hserving hadm hids hact hphase =>
    rw [hserving, hp] at hphase
    cases hphase
  | @moved j x x' hj hmove hadm hdrop hids hact hphase =>
    rw [hadm] at hr'
    rw [hact]
    rcases Slots.get_set_cases hr' with ⟨rfl, rfl⟩ | ⟨-, hr⟩
    · refine hentry x hj ?_
      cases hx : x.isTerminal with
      | false => rfl
      | true =>
        have hended : r'.isTerminal = true := hmove.later.isTerminal hx
        rw [hopen] at hended
        cases hended
    · exact hentry r' hr hopen

theorem reachable_drains (h : Reachable (system ext) s) : Drains s := by
  induction h with
  | init hi =>
    obtain ⟨id, identity, capabilities, rfl⟩ := hi
    intro k call hk
    simp [new] at hk
  | @step s s' a hreach _ hst ih =>
    intro k call' hk hex i hi r' hr' hopen
    have hp : s'.phase = .unloading :=
      ((reachable_teardown (Reachable.next a hreach hst)).stage k call' hk hex).1
    refine (step_effect hst).entry hp hr' hopen fun r hr hbefore => ?_
    -- The call was at work before, or closed admission now and took its list from the table.
    rcases step_calls hst hk hex with ⟨call, hcall, hex', he⟩ | ⟨drain, -, -, rfl⟩
    · exact ih k call hcall hex' i (he ▸ hi) r hr hbefore
    · exact mem_values_iff.mp (List.mem_filter.mp hi).1

/-- Where no caller dropped its future under an entry of the table: every entry whose
request has not ended, every request that is counted as active, and every request an
unload call is waiting for has somebody at work on it. -/
theorem active_executing (hs : ReachableWhile (system ext) KeepsFutures s) :
    (∀ (id : RequestId) (i : ℕ) (r : Request), s.active.lookup id = some i →
      s.admitted[i]? = some r → r.isTerminal = false → r.executing = true) ∧
    (s.activeRequests = (values s.retained).length ∧
      ∀ i ∈ values s.retained, ∃ r, s.admitted[i]? = some r ∧ r.executing = true) ∧
    ∀ (k : ℕ) (call : UnloadCall), s.unloads[k]? = some call → call.executing = true →
      ∀ i ∈ call.outstanding, ∀ r, s.admitted[i]? = some r → r.isTerminal = false →
        r.executing = true := by
  have hentries : ∀ (id : RequestId) (i : ℕ) (r : Request), s.active.lookup id = some i →
      s.admitted[i]? = some r → r.isTerminal = false → r.executing = true := by
    intro id i r hi hr hopen
    rcases executing_of_valid (reachable_valid hs.reachable i r hr) hopen with hex | hdropped
    · exact hex
    -- The future was dropped, and such a request has no entry.
    · obtain ⟨w, rfl, hpc⟩ := hdropped
      have hkept := reachableWhile_attached hs id i _ hi hr
      simp only [Request.dropped, hpc] at hkept
      cases hkept
  refine ⟨hentries, ⟨(values_length _).symm, fun i hi => ?_⟩, fun k call hk hex i hi r hr hopen => ?_⟩
  · obtain ⟨id, hid⟩ := mem_values_iff.mp hi
    obtain ⟨hactive, hopen⟩ := State.lookup_of_retained hid
    obtain ⟨r, hr, -⟩ := reachable_keyed hs.reachable id i hactive
    rw [State.terminalAt_eq hr] at hopen
    exact ⟨r, hr, hentries id i r hactive hr hopen⟩
  · obtain ⟨id, hid⟩ := reachable_drains hs.reachable k call hk hex i hi r hr hopen
    exact hentries id i r hid hr hopen

theorem active_executing_selecting :
    ∃ s, (system sampleExternals).run sampleInstance untilSelecting = some s ∧
      ∃ r, s.active.lookup ⟨1⟩ = some 0 ∧ s.admitted[0]? = some r ∧ r.isTerminal = false ∧
        r.executing = true := by
  have hs : ReachableWhile (system sampleExternals) KeepsFutures _ :=
    .step (a := .request 0 (.whole .poll))
      (.step (a := .request 0 (.whole .markRunning))
        (.step (a := .embed sampleText false) (.init (sampleInstance_init _)) trivial rfl)
        trivial rfl)
      trivial rfl
  exact ⟨_, rfl, _, rfl, rfl, rfl, (active_executing hs).1 ⟨1⟩ 0 _ rfl rfl rfl⟩

/-- The caller of `embed` gives up while the backend works. -/
theorem active_forsaken :
    ¬ ∀ (ext : Externals) (s : State), Reachable (system ext) s →
      ∀ (id : RequestId) (i : ℕ) (r : Request), s.active.lookup id = some i →
        s.admitted[i]? = some r → r.isTerminal = false → r.executing = true := by
  intro hclaim
  obtain ⟨s, hrun, r, hentry, hr, hopen, hidle⟩ :
      ∃ s, (system sampleExternals).run sampleInstance
          (untilSelecting ++ [.request 0 (.whole .drop)]) = some s ∧
        ∃ r, s.active.lookup ⟨1⟩ = some 0 ∧ s.admitted[0]? = some r ∧ r.isTerminal = false ∧
          r.executing = false := ⟨_, rfl, _, rfl, rfl, rfl, rfl⟩
  have hs := reachable_of_run (.init (sampleInstance_init _)) hrun
  rw [hclaim sampleExternals s hs ⟨1⟩ 0 r hentry hr hopen] at hidle
  cases hidle

/-! ### From requests to entries -/

/-- No request is admitted under the identifier of one that has not ended, and no failed
stop is recorded while a request of the table has not ended. -/
structure KeepsRequests (s : State) (a : Action) : Prop where
  identifier : a.begins = true → s.phase = .serving →
    ∀ i, s.active.lookup s.requests.request.1 = some i → s.terminalAt i = true
  failure : RecordsFailure s a →
    ∀ id i, s.active.lookup id = some i → s.terminalAt i = true

/-- Over the runs that keep their requests the table is complete, until the instance has
been unloaded. -/
theorem reachableWhile_complete (h : ReachableWhile (system ext) KeepsRequests s)
    (hp : s.phase ≠ .unloaded) : Complete s := by
  induction h with
  | init hi =>
    obtain ⟨id, identity, capabilities, rfl⟩ := hi
    intro i r hr
    simp [new] at hr
  | @step s s' a hreach hok hst ih =>
    have hbefore : s.phase ≠ .unloaded := by
      intro he
      have hsucc := step_phase (reachable_teardown hreach.reachable) hst
      rw [he] at hsucc
      exact hp hsucc.symm
    have hcomplete := ih hbefore
    have hfree : a.begins = true → s.phase = .serving → s.admitted.length < s'.admitted.length →
        ∀ (i : ℕ) (r : Request), s.admitted[i]? = some r → r.isTerminal = false →
          r.handle.id ≠ s.requests.request.1 := by
      intro hbegins hserving _ i r hr hopen he
      have hentry := hcomplete i r hr hopen
      rw [he] at hentry
      have hended := hok.identifier hbegins hserving i hentry
      rw [State.terminalAt_eq hr, hopen] at hended
      cases hended
    rcases (step_effect hst).complete hcomplete hfree with hc | ⟨hadm, he | ⟨-, hfailure⟩⟩
    · exact hc
    · exact absurd he hp
    · intro i r hr hopen
      rw [hadm] at hr
      have hended := hok.failure hfailure r.handle.id i (hcomplete i r hr hopen)
      rw [State.terminalAt_eq hr, hopen] at hended
      cases hended

theorem Complete.count (hc : Complete s) :
    (s.admitted.countP fun r => !r.isTerminal) ≤ s.activeRequests := by
  have hcount : (s.admitted.countP fun r => !r.isTerminal) =
      ((List.finRange s.admitted.length).filter
        fun i => !(s.admitted.get i).isTerminal).length := by
    conv_lhs => rw [← List.map_get_finRange s.admitted]
    rw [List.countP_map, List.countP_eq_length_filter]
    rfl
  have hsubset : (((List.finRange s.admitted.length).filter
      fun i => !(s.admitted.get i).isTerminal).map fun i => i.val) ⊆ values s.retained := by
    intro n hn
    obtain ⟨i, hi, rfl⟩ := List.mem_map.mp hn
    have hr : s.admitted[i.val]? = some (s.admitted.get i) := List.getElem?_eq_getElem i.isLt
    have hopen : (s.admitted.get i).isTerminal = false := by
      simpa using (List.mem_filter.mp hi).2
    exact mem_values_iff.mpr ⟨_, State.lookup_retained (hc i.val _ hr hopen)
      ((State.terminalAt_eq hr).trans hopen)⟩
  have hnodup : (((List.finRange s.admitted.length).filter
      fun i => !(s.admitted.get i).isTerminal).map fun i => i.val).Nodup :=
    ((List.nodup_finRange _).filter _).map Fin.val_injective
  have hle := (List.subperm_of_subset hnodup hsubset).length_le
  rw [List.length_map, values_length] at hle
  rw [hcount]
  exact hle

theorem Complete.cancel (hc : Complete s) {i : ℕ} {r : Request} (hr : s.admitted[i]? = some r)
    (hopen : r.isTerminal = false) :
    (s.cancel r.handle.id).cancels = s.cancels ++ [.found i] := by
  have hentry := State.lookup_retained (hc i r hr hopen) ((State.terminalAt_eq hr).trans hopen)
  have hlookup : s.prune.active.lookup r.handle.id = some i := hentry
  simp only [State.cancel, hlookup]
  rfl

theorem Complete.requestState (hc : Complete s) {i : ℕ} {r : Request}
    (hr : s.admitted[i]? = some r) (hopen : r.isTerminal = false) :
    s.requestState r.handle.id = some r.handle.state := by
  rw [State.requestState, hc i r hr hopen, Option.bind_some, hr, Option.map_some]

end MehoyRuntime.Runtime.LoadedModel
