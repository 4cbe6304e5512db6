import MehoyRuntime.Runtime.Residents

/-!
# Conservation

The usage a runtime reports is what the loads that hold a guard and the resident entries
come to. Every claim is given back or turned into an entry once; an entry is left by the
load that returned its identifier, and only an unload of that identifier forgets it.
-/

namespace MehoyRuntime.Runtime
open MehoyRuntime.Core MehoyRuntime.Stream TransitionSystem KeyedTable Word RuntimeState
variable {ext : Externals} {s s' t u : RuntimeState} {a : RuntimeAction}

/-! ### Claims -/

def LoadPc.past : LoadPc → Bool
  | .sizing | .reserving _ => false
  | _ => true

theorem LoadCall.Guard.past {call : LoadCall} {claim : Claim} (hg : call.Guard call.pc)
    (hr : call.reserved = some claim) : call.pc.past = true := by
  cases hpc : call.pc with
  | sizing =>
    rw [hpc] at hg
    rw [show call.reserved = none from hg] at hr
    cases hr
  | reserving footprint =>
    rw [hpc] at hg
    rw [hg.1] at hr
    cases hr
  | _ => rfl

/-- What becomes of the claim of a load: it is held on to, or it is gone for good. -/
def LoadCall.Later (call call' : LoadCall) : Prop :=
  call.pc.past = true →
    call'.pc.past = true ∧ (call'.reserved = call.reserved ∨ call'.reserved = none)

theorem LoadCall.Later.refl (call : LoadCall) : call.Later call := fun hp => ⟨hp, .inl rfl⟩

theorem LoadCall.Later.trans {c c' c'' : LoadCall} (h : c.Later c') (h' : c'.Later c'') :
    c.Later c'' := by
  intro hp
  obtain ⟨hp', hr⟩ := h hp
  obtain ⟨hp'', hr'⟩ := h' hp'
  refine ⟨hp'', ?_⟩
  rcases hr' with he | he
  · rw [he]
    exact hr
  · exact .inr he

theorem LoadCall.next_past {call call' : LoadCall} {b : LoadAction}
    (h : call.next call.pc b = some call') (hp : call.pc.past = true) :
    call'.pc.past = true := by
  cases next_cases h with
  | unsized hpc | sized hpc =>
    rw [hpc] at hp
    cases hp
  | _ => rfl

theorem LoadStep.later {j : ℕ} {call : LoadCall} {b : LoadAction}
    (h : LoadStep ext s j call b s') :
    ∃ call', s'.loads = s.loads.set j call' ∧ call.Later call' := by
  cases h with
  | refused hpc hreserve | reserved hpc hreserve =>
    refine ⟨_, rfl, fun hp => ?_⟩
    rw [hpc] at hp
    cases hp
  | fulfilled =>
    rw [publish_frame]
    exact ⟨_, rfl, fun _ => ⟨rfl, .inr rfl⟩⟩
  | rejected => exact ⟨_, rfl, fun _ => ⟨rfl, .inr rfl⟩⟩
  | teardown hpc hact | abandoned hpc hact =>
    rw [act_frame hact]
    exact ⟨_, rfl, fun _ => ⟨rfl, .inl rfl⟩⟩
  | torn hpc hover hend =>
    refine ⟨_, rfl, fun _ => ?_⟩
    rcases hend with ⟨err, rfl⟩ | rfl <;> exact ⟨rfl, .inl rfl⟩
  | @released result hpc =>
    refine ⟨_, rfl, fun _ => ?_⟩
    cases result <;> exact ⟨rfl, .inr rfl⟩
  | built hpc => exact ⟨_, rfl, fun _ => ⟨rfl, .inl rfl⟩⟩
  | inside hnext =>
    exact ⟨_, rfl, fun hp =>
      ⟨LoadCall.next_past hnext hp, .inl (LoadCall.next_reserved hnext).1⟩⟩

theorem step_later (h : (runtimeSystem ext).step s a = some s') {j : ℕ} {call : LoadCall}
    (hj : s.loads[j]? = some call) : ∃ call', s'.loads[j]? = some call' ∧ call.Later call' := by
  cases step_cases h with
  | load artifact => exact ⟨call, Slots.get_push_of_get hj _, .refl call⟩
  | unloadWithin id drain => exact ⟨call, hj, .refl call⟩
  | @ofLoad j' x b s' hj' hstep =>
    obtain ⟨x', hloads, hlater⟩ := hstep.later
    rcases eq_or_ne j j' with rfl | hne
    · obtain rfl : call = x := Option.some.inj (hj.symm.trans hj')
      exact ⟨x', by rw [hloads]; exact Slots.get_set_self hj _, hlater⟩
    · exact ⟨call, by rw [hloads, List.getElem?_set_ne hne.symm, hj], .refl call⟩
  | ofUnload hk hstep => exact ⟨call, by rw [hstep.loads, hj], .refl call⟩
  | ofModel htaken hfree hact => exact ⟨call, by rw [act_frame hact]; exact hj, .refl call⟩

theorem steps_later (h : Steps (runtimeSystem ext) s t) {j : ℕ} {call : LoadCall}
    (hj : s.loads[j]? = some call) : ∃ call', t.loads[j]? = some call' ∧ call.Later call' := by
  induction h with
  | refl => exact ⟨call, hj, .refl call⟩
  | tail _ hst ih =>
    obtain ⟨x, hx, hlater⟩ := ih
    obtain ⟨x', hx', hlater'⟩ := step_later hst hx
    exact ⟨x', hx', hlater.trans hlater'⟩

/-- A claim that a load holds is the only one it ever holds, and once it is given back or
turned into a model the load holds none again. -/
theorem claim_once (hs : Reachable (runtimeSystem ext) s) (h : Steps (runtimeSystem ext) s t)
    (h' : Steps (runtimeSystem ext) t u) {j : ℕ} {call : LoadCall} {claim : Claim}
    (hj : s.loads[j]? = some call) (hr : call.reserved = some claim) :
    ∃ call' call'', t.loads[j]? = some call' ∧ u.loads[j]? = some call'' ∧
      (call'.reserved = some claim ∨ (call'.reserved = none ∧ call''.reserved = none)) := by
  obtain ⟨call', hj', hlater⟩ := steps_later h hj
  obtain ⟨call'', hj'', hlater'⟩ := steps_later h' hj'
  obtain ⟨hp', hr'⟩ := hlater ((reachable_guarded hs j call hj).past hr)
  obtain ⟨-, hr''⟩ := hlater' hp'
  refine ⟨call', call'', hj', hj'', ?_⟩
  rcases hr' with he | he
  · exact .inl (he.trans hr)
  · exact .inr ⟨he, by rcases hr'' with he' | he' <;> simp only [he', he]⟩

/-! ### Entries -/

/-- An unload call for this identifier saw its model unloaded, forgot the entry and
returned. -/
def RuntimeState.Forgot (s : RuntimeState) (id : InstanceId) : Prop :=
  ∃ (k m : ℕ) (u : Unloading) (x : Model) (outcome : UnloadOutcome),
    s.unloads[k]? = some u ∧ u.id = id ∧ u.pc = .returned (.ok outcome) ∧ u.model = some m ∧
    s.models[m]? = some x ∧ x.loaded.phase = .unloaded

theorem RuntimeState.Forgot.step (hreach : Reachable (runtimeSystem ext) s) {id : InstanceId}
    (hf : s.Forgot id) (h : (runtimeSystem ext).step s a = some s') : s'.Forgot id := by
  obtain ⟨k, m, u, x, outcome, hk, hid, hpc, hmodel, hm, hphase⟩ := hf
  obtain ⟨x', hm', hnext⟩ := step_model hreach h hm
  exact ⟨k, m, u, x', outcome, step_unloaded h hk hpc, hid, hpc, hmodel, hm',
    hnext.unloaded hphase⟩

/-- Every resident entry was left by a load that returned its identifier and is accounted
at what that load reserved. -/
def Backed (s : RuntimeState) : Prop :=
  ∀ id entry, s.ledger.resident.lookup id = some entry →
    ∃ (j : ℕ) (call : LoadCall), s.loads[j]? = some call ∧ call.pc = .returned (.ok id) ∧
      call.footprint = some entry.footprint

/-- A load that returned an identifier left an entry of its footprint under it, until an
unload of that identifier went through. -/
def Resides (s : RuntimeState) : Prop :=
  ∀ (j : ℕ) (call : LoadCall) (id : InstanceId), s.loads[j]? = some call →
    call.pc = .returned (.ok id) →
    (∃ entry, s.ledger.resident.lookup id = some entry ∧
      call.footprint = some entry.footprint) ∨ s.Forgot id

theorem step_backed (hs : Accounted s) (hg : Guarded s) (hb : Backed s)
    (h : (runtimeSystem ext).step s a = some s') : Backed s' := by
  have hkept : ∀ {id entry}, s.ledger.resident.lookup id = some entry →
      ∃ (j : ℕ) (call : LoadCall), s'.loads[j]? = some call ∧ call.pc = .returned (.ok id) ∧
        call.footprint = some entry.footprint := by
    intro id entry hl
    obtain ⟨j, call, hj, hpc, hf⟩ := hb id entry hl
    exact ⟨j, call, step_returned h hg hj hpc, hpc, hf⟩
  intro id entry hl
  cases step_resident h with
  | same hresident =>
    rw [hresident] at hl
    exact hkept hl
  | @inserted j call m model claim footprint ha hj hpc hm hclaim hpending hvacant hresident
      hloads hmodels =>
    rw [hresident] at hl
    rcases lookup_of_insert hl with ⟨rfl, rfl⟩ | ⟨-, hl⟩
    · have hfoot : footprint = claim.2 :=
        Option.some.inj (hpending.symm.trans (hs.held hj hclaim))
      refine ⟨j, _, by rw [hloads]; exact Slots.get_set_self hj _, rfl, ?_⟩
      rw [hfoot]
      exact (hg j call hj).footprint hclaim
    · exact hkept hl
  | removed ha hk hmodel hpc hresident hunloads =>
    rw [hresident] at hl
    exact hkept (lookup_of_erase hl).2

theorem ResidentStep.entry (h : ResidentStep s a s') {id : InstanceId} {entry : Resident}
    (hl : s.ledger.resident.lookup id = some entry) :
    s'.ledger.resident.lookup id = some entry ∨
    ∃ (k : ℕ) (u : Unloading) (outcome : UnloadOutcome), a = .stepUnload k .remove ∧
      s.unloads[k]? = some u ∧ u.id = id ∧ u.pc = .removing outcome ∧
      s'.unloads[k]? = some { u with pc := .returned (.ok outcome) } ∧
      s'.ledger.resident.lookup id = none := by
  cases h with
  | same hresident =>
    rw [hresident]
    exact .inl hl
  | inserted ha hj hpc hm hclaim hpending hvacant hresident hloads hmodels =>
    refine .inl ?_
    rw [hresident, AList.lookup_insert_ne, hl]
    rintro rfl
    rw [hvacant] at hl
    cases hl
  | @removed k u m outcome ha hk hmodel hpc hresident hunloads =>
    rcases eq_or_ne id u.id with rfl | hne
    · refine .inr ⟨k, u, outcome, ha, hk, rfl, hpc, ?_, ?_⟩
      · rw [hunloads]
        exact Slots.get_set_self hk _
      · rw [hresident, AList.lookup_erase]
    · rw [hresident, AList.lookup_erase_ne hne]
      exact .inl hl

theorem LoadCall.next_not_ok {call call' : LoadCall} {b : LoadAction}
    (h : call.next call.pc b = some call') (id : InstanceId) : call'.pc ≠ .returned (.ok id) := by
  cases next_cases h <;> nofun

theorem LoadStep.returned_ok {j : ℕ} {call call' : LoadCall} {b : LoadAction}
    (hg : call.Guard call.pc) (hj : s.loads[j]? = some call) (h : LoadStep ext s j call b s')
    (hj' : s'.loads[j]? = some call') {id : InstanceId} (hpc' : call'.pc = .returned (.ok id)) :
    ∃ m claim footprint, call.pc = .fulfilling m ∧
      call' = call.settled.goto (.returned (.ok id)) ∧ call.reserved = some claim ∧
      call'.footprint = some claim.2 ∧ s.ledger.pending.lookup claim.1 = some footprint ∧
      s.ledger.resident.lookup id = none ∧
      s'.ledger.resident = s.ledger.resident.insert id ⟨m, footprint⟩ := by
  cases h with
  | @fulfilled m model claim id' ledger hpc hm hclaim hfulfil =>
    rw [publish_frame] at hj'
    obtain rfl := Slots.eq_of_get_set hj rfl hj'
    cases hpc'
    rcases s.ledger.fulfil_cases claim.1 model.loaded.id m with
      ⟨footprint, hpending, hvacant, he⟩ | ⟨reason, he⟩
    · rw [hfulfil] at he
      cases he
      refine ⟨m, claim, footprint, hpc, rfl, hclaim, hg.footprint hclaim, hpending, hvacant, ?_⟩
      rw [publish_frame]
      rfl
    · rw [hfulfil] at he
      cases he
  | teardown hpc hact | abandoned hpc hact =>
    obtain rfl := Slots.eq_of_get_set hj (act_loads hact) hj'
    cases hpc'
  | torn hpc hover hend =>
    obtain rfl := Slots.eq_of_get_set hj rfl hj'
    rcases hend with ⟨err, rfl⟩ | rfl <;> cases hpc'
  | @released result hpc =>
    obtain rfl := Slots.eq_of_get_set hj rfl hj'
    cases result <;> cases hpc'
  | inside hnext =>
    obtain rfl := Slots.eq_of_get_set hj rfl hj'
    exact absurd hpc' (LoadCall.next_not_ok hnext id)
  | _ =>
    obtain rfl := Slots.eq_of_get_set hj rfl hj'
    cases hpc'

theorem LoadStep.leaves {j : ℕ} {call call' : LoadCall} {b : LoadAction} (hs : Accounted s)
    (hg : call.Guard call.pc) (hj : s.loads[j]? = some call) (h : LoadStep ext s j call b s')
    (hj' : s'.loads[j]? = some call') {id : InstanceId} (hpc' : call'.pc = .returned (.ok id)) :
    s.ledger.resident.lookup id = none ∧
    ∃ entry, s'.ledger.resident.lookup id = some entry ∧
      call'.footprint = some entry.footprint := by
  obtain ⟨m, claim, footprint, -, -, hclaim, hf, hpending, hvacant, hresident⟩ :=
    h.returned_ok hg hj hj' hpc'
  have hfoot : claim.2 = footprint :=
    Option.some.inj ((hs.held hj hclaim).symm.trans hpending)
  refine ⟨hvacant, ⟨m, footprint⟩, ?_, ?_⟩
  · rw [hresident, AList.lookup_insert]
  · rw [hf, hfoot]

theorem step_resides (hreach : Reachable (runtimeSystem ext) s) (hs : Accounted s)
    (hr : Resides s) (h : (runtimeSystem ext).step s a = some s') : Resides s' := by
  have hg := reachable_guarded hreach
  intro j call' id hj' hpc'
  have hbefore : s.loads[j]? = some call' →
      (∃ entry, s'.ledger.resident.lookup id = some entry ∧
        call'.footprint = some entry.footprint) ∨ s'.Forgot id := by
    intro hj
    rcases hr j call' id hj hpc' with ⟨entry, hl, hf⟩ | hforgot
    · rcases (step_resident h).entry hl with hl' | ⟨k, u, outcome, -, hk, hid, hpc, hk', -⟩
      · exact .inl ⟨entry, hl', hf⟩
      -- The entry goes for a call that saw its model unloaded, which is what `Forgot` records.
      · obtain ⟨m, x, hmodel, hx, hphase⟩ :=
          (reachable_placed hreach).removing k u outcome hk hpc
        obtain ⟨x', hx', hnext⟩ := step_model hreach h hx
        exact .inr ⟨k, m, _, x', outcome, hk', hid, rfl, hmodel, hx', hnext.unloaded hphase⟩
    · exact .inr (hforgot.step hreach h)
  cases step_cases h with
  | load artifact =>
    rcases Slots.get_push_cases hj' with ⟨-, rfl⟩ | hj
    · cases hpc'
    · exact hbefore hj
  | unloadWithin id drain => exact hbefore hj'
  | @ofLoad j₁ call b s' hj hstep =>
    obtain ⟨after, hloads, -⟩ := hstep.guard (hg _ _ hj)
    have hset := hj'
    rw [hloads] at hset
    rcases Slots.get_set_cases hset with ⟨rfl, -⟩ | ⟨-, hold⟩
    · exact .inl (hstep.leaves hs (hg _ _ hj) hj hj' hpc').2
    · exact hbefore hold
  | ofUnload hk hstep =>
    rw [hstep.loads] at hj'
    exact hbefore hj'
  | ofModel htaken hfree hact =>
    refine hbefore ?_
    rw [act_frame hact] at hj'
    exact hj'

theorem reachable_backed (h : Reachable (runtimeSystem ext) s) (hfew : s.allocated ≤ 2 ^ 64) :
    Backed s ∧ Resides s := by
  induction h with
  | init hi =>
    obtain ⟨limits, rfl⟩ := hi
    refine ⟨fun id entry hl => ?_, fun j call id hj => ?_⟩
    · cases hl
    · simp [withLimits] at hj
  | step hreach _ hst ih =>
    have hg := reachable_guarded hreach
    have hbefore := (step_ledger hg hst).allocated.trans hfew
    have hs := reachable_accounted hreach hbefore
    obtain ⟨hb, hr⟩ := ih hbefore
    exact ⟨step_backed hs hg hb hst, step_resides hreach hs hr hst⟩

/-! ### What is conserved -/

def LoadCall.ended (call : LoadCall) : Bool :=
  match call.pc with
  | .returned _ | .dropped | .panicked => true
  | _ => false

def totalWeight (footprints : List ResourceFootprint) : ℕ :=
  (footprints.map fun f => f.weightBytes.toNat).sum

theorem usage_conserved (hs : Accounted s) :
    s.usage.loading.toNat = s.claims.length ∧
    s.usage.instances.toNat = s.claims.length + len s.ledger.resident ∧
    s.usage.weightBytes.toNat =
      min (totalWeight (s.claims.map (·.2) ++ (values s.ledger.resident).map Resident.footprint))
        (2 ^ 64 - 1) := by
  have hlen : len s.ledger.pending = s.claims.length := hs.pending.length_eq
  have hcount := hs.within.count_lt
  have hperm : s.ledger.footprints.Perm
      (s.claims.map (·.2) ++ (values s.ledger.resident).map Resident.footprint) :=
    (hs.pending.map fun claim : Claim => claim.2).append_right _
  refine ⟨?_, ?_, ?_⟩
  · rw [usage, Ledger.committed_loading _ hcount, hlen]
  · rw [usage, Ledger.committed_instances _ hcount, Ledger.count, hlen]
  · rw [usage, Ledger.committed_weight, Ledger.weight, totalWeight,
      (hperm.map fun f => f.weightBytes.toNat).sum_eq]

/-- What a step may do to the resident entries. -/
structure EntryChange (s : RuntimeState) (a : RuntimeAction) (s' : RuntimeState) : Prop where
  kept : ∀ id entry, s.ledger.resident.lookup id = some entry →
    s'.ledger.resident.lookup id = some entry ∨
    (s'.ledger.resident.lookup id = none ∧
      ∃ (k : ℕ) (u : Unloading), a = .stepUnload k .remove ∧ s.unloads[k]? = some u ∧ u.id = id)
  added : ∀ id entry, s.ledger.resident.lookup id = none →
    s'.ledger.resident.lookup id = some entry →
    ∃ (j : ℕ) (call call' : LoadCall), a = .stepLoad j .fulfil ∧ s.loads[j]? = some call ∧
      s'.loads[j]? = some call' ∧ call'.pc = .returned (.ok id) ∧
      call.reserved.map (·.2) = some entry.footprint
  returned : ∀ (j : ℕ) (call call' : LoadCall) (id : InstanceId), s.loads[j]? = some call →
    s'.loads[j]? = some call' → call'.pc = .returned (.ok id) → call.pc = .returned (.ok id) ∨
    (s.ledger.resident.lookup id = none ∧ ∃ entry, s'.ledger.resident.lookup id = some entry ∧
      call'.footprint = some entry.footprint)
  unload : ∀ k b, a = .stepUnload k b → s'.ledger.pending = s.ledger.pending

theorem step_entryChange (hs : Accounted s) (hg : Guarded s) (h : (runtimeSystem ext).step s a = some s') :
    EntryChange s a s' := by
  refine ⟨fun id entry hl => ?_, fun id entry hl hl' => ?_,
    fun j call call' id hj hj' hpc' => ?_, fun k b ha => ?_⟩
  · rcases (step_resident h).entry hl with hl' | ⟨k, u, outcome, ha, hk, hid, -, -, hl'⟩
    · exact .inl hl'
    · exact .inr ⟨hl', k, u, ha, hk, hid⟩
  · cases step_resident h with
    | same hresident =>
      rw [hresident, hl] at hl'
      cases hl'
    | @inserted j call m model claim footprint ha hj hpc hm hclaim hpending hvacant hresident
        hloads hmodels =>
      rw [hresident] at hl'
      rcases lookup_of_insert hl' with ⟨rfl, rfl⟩ | ⟨-, hl'⟩
      · have hfoot : claim.2 = footprint :=
          Option.some.inj ((hs.held hj hclaim).symm.trans hpending)
        refine ⟨j, call, _, ha, hj, by rw [hloads]; exact Slots.get_set_self hj _, rfl, ?_⟩
        rw [hclaim, ← hfoot]
        rfl
      · rw [hl] at hl'
        cases hl'
    | removed ha hk hmodel hpc hresident hunloads =>
      rw [hresident] at hl'
      have hbefore := (lookup_of_erase hl').2
      rw [hl] at hbefore
      cases hbefore
  · have hsame : s'.loads = s.loads → call.pc = .returned (.ok id) := by
      intro hloads
      rw [hloads, hj] at hj'
      rw [Option.some.inj hj', hpc']
    cases step_cases h with
    | load artifact =>
      rw [show call = call' from Option.some.inj ((Slots.get_push_of_get hj _).symm.trans hj')]
      exact .inl hpc'
    | unloadWithin id drain => exact .inl (hsame rfl)
    | @ofLoad j₁ call₁ b s' hj₁ hstep =>
      obtain ⟨after, hloads, -⟩ := hstep.later
      rcases eq_or_ne j j₁ with rfl | hne
      · obtain rfl : call = call₁ := Option.some.inj (hj.symm.trans hj₁)
        exact .inr (hstep.leaves hs (hg j call hj) hj hj' hpc')
      · rw [hloads, List.getElem?_set_ne hne.symm, hj] at hj'
        rw [Option.some.inj hj']
        exact .inl hpc'
    | ofUnload hk hstep => exact .inl (hsame hstep.loads)
    | ofModel htaken hfree hact => exact .inl (hsame (by rw [act_frame hact]))
  · cases step_cases h with
    | load artifact => rfl
    | unloadWithin id drain => rfl
    | ofLoad => cases ha
    | ofUnload hk hstep =>
      cases hstep with
      | begun hmodel hpc hact | dropped hmodel hpc hact =>
        rw [act_frame hact]
        rfl
      | _ => rfl
    | ofModel htaken hfree hact =>
      rw [act_frame hact]

/-- Usage is what the loads that hold a claim and the resident entries come to; a load that
is over holds nothing; entries and loads that returned an identifier go together; a step
adds an entry for the load that returns it and takes one away for an unload of it; and a
claim ends once. -/
theorem ledger_conserved (hs : Reachable (runtimeSystem ext) s) (hfew : s.allocated ≤ 2 ^ 64) :
    (s.ledger.pending.entries.Perm s.claims ∧
      s.usage.loading.toNat = s.claims.length ∧
      s.usage.instances.toNat = s.claims.length + len s.ledger.resident ∧
      s.usage.weightBytes.toNat =
        min (totalWeight (s.claims.map (·.2) ++ (values s.ledger.resident).map Resident.footprint))
          (2 ^ 64 - 1)) ∧
    (∀ (j : ℕ) (call : LoadCall), s.loads[j]? = some call → call.ended = true →
      call.reserved = none) ∧
    Backed s ∧ Resides s ∧
    (∀ a s', (runtimeSystem ext).step s a = some s' → EntryChange s a s') ∧
    ∀ t u, Steps (runtimeSystem ext) s t → Steps (runtimeSystem ext) t u →
      ∀ (j : ℕ) (call : LoadCall) (claim : Claim), s.loads[j]? = some call →
        call.reserved = some claim →
        ∃ call' call'', t.loads[j]? = some call' ∧ u.loads[j]? = some call'' ∧
          (call'.reserved = some claim ∨ (call'.reserved = none ∧ call''.reserved = none)) := by
  have haccounted := reachable_accounted hs hfew
  obtain ⟨hbacked, hresides⟩ := reachable_backed hs hfew
  refine ⟨⟨haccounted.pending, usage_conserved haccounted⟩, fun j call hj hended => ?_, hbacked,
    hresides, fun a s' h => step_entryChange haccounted (reachable_guarded hs) h,
    fun t u h h' j call claim hj hr => claim_once hs h h' hj hr⟩
  have hg := reachable_guarded hs j call hj
  unfold LoadCall.ended at hended
  split at hended
  case h_1 hpc | h_2 hpc | h_3 hpc =>
    rw [hpc] at hg
    exact hg
  case h_4 => cases hended

theorem ledger_conserved_filled :
    ∃ s, (runtimeSystem sampleExternals).run (.withLimits ⟨2, none⟩)
        (.load "a" :: .load "b" :: (untilLoaded 0 4 [7] ++ untilCommit 1 6)) = some s ∧
      s.usage = ⟨2, 1, 10⟩ ∧ s.ledger.pending.entries.Perm s.claims ∧ s.claims.length = 1 := by
  obtain ⟨s, hrun, husage, hallocated, hlen⟩ :
      ∃ s, (runtimeSystem sampleExternals).run (.withLimits ⟨2, none⟩)
          (.load "a" :: .load "b" :: (untilLoaded 0 4 [7] ++ untilCommit 1 6)) = some s ∧
        s.usage = ⟨2, 1, 10⟩ ∧ s.allocated = 2 ∧ s.claims.length = 1 :=
    ⟨_, rfl, rfl, rfl, rfl⟩
  have hs := reachable_of_withLimits hrun
  have hfew : s.allocated ≤ 2 ^ 64 := by omega
  exact ⟨s, hrun, husage, (ledger_conserved hs hfew).1.1, hlen⟩

/-! ### Where the numbers end -/

theorem stepLoad_of_next (ext : Externals) {j : ℕ} {call call' : LoadCall} {b : LoadAction}
    (hj : s.loads[j]? = some call) (hnext : call.next call.pc b = some call') :
    s.stepLoad ext j b = some (s.setLoad j call') := by
  unfold stepLoad
  rw [hj, Option.bind_some]
  split
  case h_8 => rw [hnext, Option.map_some]
  all_goals
    rename_i hpc
    rw [hpc] at hnext
    simp [LoadCall.next, LoadCall.suspended, hpc] at hnext

theorem stepLoad_reserve (ext : Externals) {j : ℕ} {call : LoadCall}
    {footprint : ResourceFootprint} {id : ReservationId} {ledger : Ledger}
    (hj : s.loads[j]? = some call) (hpc : call.pc = .reserving footprint)
    (hreserve : s.ledger.reserve s.limits footprint = .ok (id, ledger)) :
    s.stepLoad ext j .reserve =
      some ({ s with ledger := ledger, allocated := s.allocated + 1 }.setLoad j
        ((call.admitted ⟨id, footprint⟩).goto .preparing)) := by
  unfold stepLoad
  simp only [hj, Option.bind_some, hpc, hreserve]

theorem stepLoad_release (ext : Externals) {j : ℕ} {call : LoadCall} {result : Option RuntimeError}
    (hj : s.loads[j]? = some call) (hpc : call.pc = .releasing result) :
    s.stepLoad ext j .release =
      some ({ s with ledger := s.afterRelease call }.setLoad j
        (call.settled.goto (endPc result))) := by
  unfold stepLoad
  simp only [hj, Option.bind_some, hpc]
  cases result <;> rfl

def sizedLoad (size : UInt64) : LoadCall :=
  { LoadCall.new "b" with
    footprint := some (.fromContainerSize size)
    pc := .reserving (.fromContainerSize size) }

def RuntimeState.pushLoad (s : RuntimeState) (call : LoadCall) : RuntimeState :=
  { s with loads := s.loads ++ [call] }

theorem RuntimeState.setLoad_pushLoad (s : RuntimeState) (call call' : LoadCall) :
    (s.pushLoad call).setLoad s.loads.length call' = s.pushLoad call' := by
  rw [setLoad, pushLoad, Slots.set_push]
  rfl

theorem steps_pushLoad (ext : Externals) (s : RuntimeState) {call call' : LoadCall}
    {b : LoadAction} (hnext : call.next call.pc b = some call') :
    Steps (runtimeSystem ext) (s.pushLoad call) (s.pushLoad call') := by
  have hj : (s.pushLoad call).loads[s.loads.length]? = some call := List.getElem?_concat_length
  have hstep := stepLoad_of_next ext hj hnext
  rw [setLoad_pushLoad] at hstep
  exact .single (.stepLoad s.loads.length b) hstep

theorem steps_sized (ext : Externals) (s : RuntimeState) (size : UInt64) :
    Steps (runtimeSystem ext) s (s.pushLoad (sizedLoad size)) := by
  have hload : (runtimeSystem ext).step s (.load "b") = some (s.pushLoad (.new "b")) := rfl
  exact (Steps.single _ hload).trans
    (steps_pushLoad ext s (b := .size (.ok (some (sampleArtifact size)))) rfl)

/-- A load whose worker outlived its deadline and could not be killed. -/
def parkedLoad : LoadCall where
  artifact := "a"
  footprint := some (.fromContainerSize 4)
  reserved := some ⟨⟨1⟩, .fromContainerSize 4⟩
  record := some (sampleArtifact 4)
  identity := none
  stopFailed := true
  built := none
  pc := .flushing "deadline"

structure Parked (s : RuntimeState) : Prop where
  reachable : Reachable (runtimeSystem sampleExternals) s
  limits : s.limits = ⟨2, none⟩
  pending : s.ledger.pending = AList.singleton ⟨1⟩ (.fromContainerSize 4)
  resident : s.ledger.resident = ∅
  models : s.models = []
  first : s.loads[0]? = some parkedLoad
  claims : s.claims = [⟨⟨1⟩, .fromContainerSize 4⟩]

theorem Parked.reserve (hp : Parked s) (footprint : ResourceFootprint) :
    s.ledger.reserve s.limits footprint = .ok (⟨s.ledger.nextReservation + 1⟩,
      ⟨s.ledger.pending.insert ⟨s.ledger.nextReservation + 1⟩ footprint, s.ledger.resident,
        s.ledger.nextReservation + 1⟩) := by
  have hinstances : s.ledger.committed.instances = 1 := by
    rw [Ledger.committed, hp.pending, hp.resident]
    rfl
  have hadmits : s.limits.admits s.ledger.committed footprint = .ok () := by
    rw [ResidentLimits.admits, hp.limits, hinstances]
    rfl
  rw [Ledger.reserve, hadmits]
  rfl

def claimingLoad (size : UInt64) (id : ReservationId) : LoadCall :=
  ((sizedLoad size).admitted ⟨id, .fromContainerSize size⟩).goto .preparing

def RuntimeState.claimed (s : RuntimeState) (size : UInt64) : RuntimeState :=
  { s with
    ledger := ⟨s.ledger.pending.insert ⟨s.ledger.nextReservation + 1⟩ (.fromContainerSize size),
      s.ledger.resident, s.ledger.nextReservation + 1⟩
    allocated := s.allocated + 1 }.pushLoad (claimingLoad size ⟨s.ledger.nextReservation + 1⟩)

theorem Parked.steps_claimed (hp : Parked s) (size : UInt64) :
    Steps (runtimeSystem sampleExternals) s (s.claimed size) := by
  have hj : (s.pushLoad (sizedLoad size)).loads[s.loads.length]? = some (sizedLoad size) :=
    List.getElem?_concat_length
  have hreserve : (s.pushLoad (sizedLoad size)).ledger.reserve
      (s.pushLoad (sizedLoad size)).limits (.fromContainerSize size) = _ := hp.reserve _
  have hstep := stepLoad_reserve sampleExternals hj rfl hreserve
  have hclaimed := setLoad_pushLoad { s with
    ledger := ⟨s.ledger.pending.insert ⟨s.ledger.nextReservation + 1⟩ (.fromContainerSize size),
      s.ledger.resident, s.ledger.nextReservation + 1⟩
    allocated := s.allocated + 1 } (sizedLoad size)
      (claimingLoad size ⟨s.ledger.nextReservation + 1⟩)
  have hnext := hstep.trans (congrArg some hclaimed)
  exact Steps.tail (a := .stepLoad s.loads.length .reserve)
    (steps_sized sampleExternals s size) hnext

theorem claims_pushLoad_none (s : RuntimeState) {call : LoadCall} (h : call.reserved = none) :
    (s.pushLoad call).claims = s.claims := by
  rw [claims, pushLoad, List.filterMap_append, List.filterMap_cons_none h, List.filterMap_nil,
    List.append_nil, claims]

theorem Parked.round (hp : Parked s) (hlt : s.allocated < 2 ^ 64) :
    ∃ t, Parked t ∧ t.allocated = s.allocated + 1 := by
  have hfree := (reachable_accounted hp.reachable hlt.le).free hlt
  let failed := (claimingLoad 6 ⟨s.ledger.nextReservation + 1⟩).fail (.registry "io")
  let base : RuntimeState := { s with
    ledger := ⟨s.ledger.pending.insert ⟨s.ledger.nextReservation + 1⟩ (.fromContainerSize 6),
      s.ledger.resident, s.ledger.nextReservation + 1⟩
    allocated := s.allocated + 1 }
  have hfail : Steps (runtimeSystem sampleExternals) (s.claimed 6) (base.pushLoad failed) :=
    steps_pushLoad sampleExternals base (b := .prepare (.error "io") .unchanged none) rfl
  have hj : (base.pushLoad failed).loads[s.loads.length]? = some failed :=
    List.getElem?_concat_length
  have hrelease : (runtimeSystem sampleExternals).step (base.pushLoad failed)
      (.stepLoad s.loads.length .release) = some _ := stepLoad_release sampleExternals hj rfl
  have hsteps := ((hp.steps_claimed 6).trans hfail).tail hrelease
  have hpending : (s.ledger.pending.insert ⟨s.ledger.nextReservation + 1⟩
      (.fromContainerSize 6)).erase ⟨s.ledger.nextReservation + 1⟩ = s.ledger.pending :=
    erase_insert hfree _
  refine ⟨_, ⟨hsteps.reachable hp.reachable, hp.limits, hpending.trans hp.pending, hp.resident,
    hp.models, ?_, ?_⟩, rfl⟩
  · change ((s.loads ++ [failed]).set s.loads.length _)[0]? = _
    rw [Slots.set_push]
    exact Slots.get_push_of_get hp.first _
  · change ((s.loads ++ [failed]).set s.loads.length _).filterMap LoadCall.reserved = _
    rw [Slots.set_push]
    exact (claims_pushLoad_none s rfl).trans hp.claims

theorem Parked.rounds (hp : Parked s) {n : ℕ}
    (hle : s.allocated ≤ n) (hlt : n ≤ 2 ^ 64) : ∃ t, Parked t ∧ t.allocated = n := by
  induction n, hle using Nat.le_induction with
  | base => exact ⟨s, hp, rfl⟩
  | succ n hn ih =>
    obtain ⟨t, ht, hallocated⟩ := ih (by omega)
    obtain ⟨u, hu, hnext⟩ := ht.round (by omega)
    exact ⟨u, hu, by omega⟩

def untilParked : List RuntimeAction :=
  [.load "a", .stepLoad 0 (.size (.ok (some (sampleArtifact 4)))), .stepLoad 0 .reserve,
    .stepLoad 0 (.prepare (.ok (some (sampleArtifact 4))) .unchanged none),
    .stepLoad 0 (.identified none (.ok ())), .stepLoad 0 (.spawned (.ok ())),
    .stepLoad 0 (.waited (.elapsed "deadline")), .stepLoad 0 (.terminated (.error "not killed"))]

/-- After `2 ^ 64` claims the first number is given out again, and the claim that still
holds it is overwritten. -/
theorem parked_overwritten :
    ∃ t, Reachable (runtimeSystem sampleExternals) t ∧ t.allocated = 2 ^ 64 + 1 ∧
      t.ledger.pending = AList.singleton ⟨1⟩ (.fromContainerSize 6) ∧ t.ledger.resident = ∅ ∧
      t.models = [] ∧ t.loads[0]? = some parkedLoad ∧ t.claims.length = 2 := by
  obtain ⟨s₁, hrun, hp₁, hallocated₁⟩ :
      ∃ s, (runtimeSystem sampleExternals).run (.withLimits ⟨2, none⟩) untilParked = some s ∧
        (s.limits = ⟨2, none⟩ ∧ s.ledger.pending = AList.singleton ⟨1⟩ (.fromContainerSize 4) ∧
          s.ledger.resident = ∅ ∧ s.models = [] ∧ s.loads[0]? = some parkedLoad ∧
          s.claims = [⟨⟨1⟩, .fromContainerSize 4⟩]) ∧ s.allocated = 1 :=
    ⟨_, rfl, ⟨rfl, rfl, rfl, rfl, rfl, rfl⟩, rfl⟩
  obtain ⟨hlimits, hpending, hresident, hmodels, hfirst, hclaims⟩ := hp₁
  have hparked : Parked s₁ :=
    ⟨reachable_of_withLimits hrun, hlimits, hpending, hresident, hmodels, hfirst, hclaims⟩
  obtain ⟨s₂, hp₂, hallocated₂⟩ := hparked.rounds (n := 2 ^ 64) (by omega) (Nat.le_refl _)
  have hnext : s₂.ledger.nextReservation + 1 = 1 := by
    have hs := reachable_accounted hp₂.reachable (by omega)
    rw [hs.next, ofNat_succ, hallocated₂, Nat.add_comm, ofNat_add_wrap]
    rfl
  refine ⟨s₂.claimed 6, (hp₂.steps_claimed 6).reachable hp₂.reachable, ?_, ?_, hp₂.resident,
    hp₂.models, Slots.get_push_of_get hp₂.first _, ?_⟩
  · change s₂.allocated + 1 = _
    rw [hallocated₂]
  · change s₂.ledger.pending.insert ⟨s₂.ledger.nextReservation + 1⟩ _ = _
    rw [hnext, hp₂.pending, AList.insert_singleton_eq]
  · change (List.filterMap LoadCall.reserved (s₂.loads ++ [_])).length = 2
    have hclaims₂ : List.filterMap LoadCall.reserved s₂.loads = _ := hp₂.claims
    rw [List.filterMap_append, hclaims₂]
    rfl

/-- Three loads of the largest files there are: their weights add up to more than a word. -/
def hugeLoads : List RuntimeAction :=
  let size : UInt64 := 9223372036854775807
  [0, 1, 2].flatMap fun j => [.load "a", .stepLoad j (.size (.ok (some (sampleArtifact size)))),
    .stepLoad j .reserve]

/-- Neither the reported weight nor the reported number of loads is always the exact one. -/
theorem usage_saturates :
    (¬ ∀ (ext : Externals) (s : RuntimeState), Reachable (runtimeSystem ext) s →
      s.usage.weightBytes.toNat =
        totalWeight (s.claims.map (·.2) ++
          (values s.ledger.resident).map Resident.footprint)) ∧
    ¬ ∀ (ext : Externals) (s : RuntimeState), Reachable (runtimeSystem ext) s →
      s.usage.loading.toNat = s.claims.length := by
  refine ⟨fun hclaim => ?_, fun hclaim => ?_⟩
  · obtain ⟨s, hrun, hweight, htotal⟩ :
        ∃ s, (runtimeSystem sampleExternals).run (.withLimits ⟨3, none⟩) hugeLoads = some s ∧
          s.usage.weightBytes.toNat = 18446744073709551615 ∧
          totalWeight (s.claims.map (·.2) ++
            (values s.ledger.resident).map Resident.footprint) = 27670116110564327421 :=
      ⟨_, rfl, rfl, rfl⟩
    have hexact := hclaim sampleExternals s (reachable_of_withLimits hrun)
    rw [hweight, htotal] at hexact
    omega
  · obtain ⟨t, hreach, -, hpending, -, -, -, hlen⟩ := parked_overwritten
    have hexact := hclaim sampleExternals t hreach
    rw [hlen, usage, Ledger.committed, hpending] at hexact
    cases hexact

end MehoyRuntime.Runtime
