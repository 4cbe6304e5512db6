import MehoyRuntime.Backend.Embed
import MehoyRuntime.Runtime.Capabilities

/-!
# Results and the answers they come from

Over the runs of a runtime: what a whole request returns is what its adapter makes of the
one answer that arrived for it, so a result was in a successful answer of the backend. An
instance counts as one that has shown to embed on the strength of such an answer alone.
-/

namespace MehoyRuntime.Runtime
open MehoyRuntime.Core MehoyRuntime.Backend TransitionSystem
open MehoyRuntime.Stream hiding conclude
variable {ext : Externals} {dec : Decoders}

/-- What a whole request says it has, it has from the answer that arrived. -/
def Whole.FromArrival (w : Whole) : WholePc → Prop
  | .sent sent => ∃ arrival, w.transport = some arrival ∧ arrival.sent = sent
  | .verifying result | .returned (.ok result) => ∃ arrival, w.transport = some arrival ∧
      (conclude w.request arrival.sent).2 = .ok result
  | .returned (.error err) => (∃ cause, err = .stopped cause) ∨
      ∃ arrival, w.transport = some arrival ∧ (conclude w.request arrival.sent).2 = .error err
  | _ => True

def Request.FromArrival : Request → Prop
  | .whole w => w.FromArrival w.pc
  | .accepted _ _ | .stream _ => True

theorem Whole.step_fromArrival {late : Bool} {w w' : Whole} {a : WholeAction}
    (hw : w.FromArrival w.pc) (h : w.step late w.pc a = some w') : w'.FromArrival w'.pc := by
  cases Whole.step_cases h with
  | running hpc => trivial
  | arrived hpc hnone =>
    simp only [hpc]
    trivial
  | told hpc hcause => trivial
  | answered hpc hcause harrival => exact ⟨_, harrival, rfl⟩
  | waiting hpc hcause hnone => trivial
  | dropped hpc => trivial
  | stopped hpc => exact .inl ⟨_, rfl⟩
  | @settled sent hpc =>
    rw [hpc] at hw
    obtain ⟨arrival, harrival, rfl⟩ := hw
    cases hresult : (conclude w.request arrival.sent).2 with
    | error err =>
      simp only [Whole.finish, Whole.resultPc]
      exact .inr ⟨arrival, harrival, hresult⟩
    | ok result =>
      cases hverify : w.verify <;> simp only [Whole.finish, Whole.resultPc, hverify] <;>
        exact ⟨arrival, harrival, hresult⟩

namespace LoadedModel
variable {s s' : State} {a : Action}

theorem Move.fromArrival {late : Bool} {r r' : Request} (hr : r.FromArrival)
    (h : Move ext late r r') : r'.FromArrival := by
  cases h with
  | step a ha =>
    cases r with
    | whole w =>
      cases a with
      | whole action =>
        obtain ⟨w', hw, rfl⟩ := Option.map_eq_some_iff.mp ha
        exact Whole.step_fromArrival hr hw
      | startGeneration => cases ha
      | stream action => cases ha
    | accepted handle body =>
      cases a with
      | startGeneration =>
        cases ha
        trivial
      | whole action => cases ha
      | stream action => cases ha
    | stream t =>
      cases a with
      | stream action =>
        obtain ⟨t', -, rfl⟩ := Option.map_eq_some_iff.mp ha
        trivial
      | whole action => cases ha
      | startGeneration => cases ha
  | told cause =>
    cases r with
    | whole w => exact hr
    | accepted handle body => trivial
    | stream t => trivial
  | @verified w result hpc =>
    have hw : w.FromArrival w.pc := hr
    rw [hpc] at hw
    exact hw

theorem Fresh.fromArrival {handle : RequestHandle} {r : Request} (h : Fresh handle r) :
    r.FromArrival := by
  rcases h with ⟨request, verify, rfl⟩ | ⟨body, rfl⟩ <;> trivial

theorem reachable_fromArrival (h : Reachable (system ext) s) :
    ∀ (i : ℕ) (r : Request), s.admitted[i]? = some r → r.FromArrival :=
  reachable_requests Fresh.fromArrival (fun _ _ hr hmove => hmove.fromArrival hr) h

/-- The embeddings that verified an instance are those of a request of its own. -/
def State.EmbedsShown (s : State) : Prop :=
  ∀ now backend, s.capabilities .embeddings = .verified now backend →
    ∃ (i : ℕ) (r : Request), s.admitted[i]? = some r ∧ r.Demonstrates .embeddings

theorem step_embedsShown (hreach : Reachable (system ext) s) (hs : s.EmbedsShown)
    (h : step ext s a = some s') : s'.EmbedsShown := by
  have hkept : ∀ {now backend}, s.capabilities .embeddings = .verified now backend →
      ∃ (i : ℕ) (r : Request), s'.admitted[i]? = some r ∧ r.Demonstrates .embeddings := by
    intro now backend hverified
    obtain ⟨i, r, hi, hr⟩ := hs now backend hverified
    exact (step_effect h).demonstrates hi hr
  intro now' backend hverified
  cases step_verifies h with
  | kept hcredentials =>
    rw [(Prod.mk.inj hcredentials).2] at hverified
    exact hkept hverified
  | @whole i now w result hi hpc hnew =>
    subst hnew
    rcases verify_cases hverified with ⟨hsame, -⟩ | hbefore
    · have hdemonstrates := demonstrates_verified hpc (reachable_fulfilled hreach i _ hi)
      rw [← hsame] at hdemonstrates
      exact ⟨i, _, Slots.get_set_self hi _, hdemonstrates⟩
    · exact hkept hbefore
  | @stream now ha hnew =>
    subst hnew
    have hverify : s.capabilities.verify .textGeneration now s.identity .embeddings =
        .verified now' backend := hverified
    rcases verify_cases hverify with ⟨hsame, -⟩ | hbefore
    · cases hsame
    · exact hkept hbefore

end LoadedModel

variable {s : RuntimeState} {m : ℕ} {model : Model}

theorem embedsShown_reachable (hs : Reachable (runtimeSystem ext) s)
    (hm : s.models[m]? = some model) : model.loaded.EmbedsShown := by
  induction hs generalizing m model with
  | init hi =>
    obtain ⟨limits, rfl⟩ := hi
    simp [RuntimeState.withLimits] at hm
  | step hreach _ hst ih =>
    cases step_models hst with
    | same hmodels =>
      rw [hmodels] at hm
      exact ih hm
    | built hnew hmodels =>
      obtain ⟨call, bytes, rfl⟩ := step_built hst hmodels
      rw [hmodels] at hm
      rcases Slots.get_push_cases hm with ⟨-, rfl⟩ | hold
      · intro now backend hverified
        have hindicated : ∀ capability,
            (call.build bytes).capabilities capability ≠ .verified now backend :=
          fun capability => indicatedByMetadata_unverified _ _ _ capability now backend
        exact absurd hverified (hindicated .embeddings)
      · exact ih hold
    | acted htaken hx hstep hmodels =>
      rw [hmodels] at hm
      rcases Slots.get_set_cases hm with ⟨rfl, rfl⟩ | ⟨-, hold⟩
      · exact LoadedModel.step_embedsShown (model_reachable hreach hx) (ih hx) hstep
      · exact ih hold
    | published footprint hx hmodels hentry =>
      have hshown := ih hx
      rw [hmodels] at hm
      rcases Slots.get_set_cases hm with ⟨rfl, rfl⟩ | ⟨-, hold⟩
      · exact hshown
      · exact ih hold

/-- The answer a result comes from carries it, whatever it was that was sent. -/
def FromAnswer (ext : Externals) (dec : Decoders) (w : Whole) (result : WholeResult) : Prop :=
  ∃ arrival, w.transport = some arrival ∧ ∀ body reply,
    arrival.sent = adapter ext dec w.request body reply → Answered dec body reply w.request result

theorem fromAnswer_of_concluded {w : Whole} {result : WholeResult} {arrival : Arrival}
    (harrival : w.transport = some arrival)
    (hresult : (conclude w.request arrival.sent).2 = .ok result) : FromAnswer ext dec w result := by
  refine ⟨arrival, harrival, ?_⟩
  intro body reply hsent
  rw [hsent] at hresult
  exact (conclude_adapter w.request result).mp hresult

theorem results_come_from_answers (hs : Reachable (runtimeSystem ext) s)
    (hm : s.models[m]? = some model) (dec : Decoders) :
    (∀ (i : ℕ) (w : Whole), model.loaded.admitted[i]? = some (.whole w) →
      (∀ result, w.pc = .returned (.ok result) → FromAnswer ext dec w result) ∧
      ∀ err, w.pc = .returned (.error err) → (∃ cause, err = .stopped cause) ∨
        ∃ arrival, w.transport = some arrival ∧ ∀ body reply,
          arrival.sent = adapter ext dec w.request body reply →
            ∀ result, ¬ Answered dec body reply w.request result) ∧
    ∀ now backend, model.loaded.capabilities .embeddings = .verified now backend →
      ∃ (i : ℕ) (w : Whole) (asked : EmbedRequest) (result : EmbeddingResult),
        model.loaded.admitted[i]? = some (.whole w) ∧ w.request = .embed asked ∧
        w.pc = .returned (.ok (.embeddings result)) ∧ FromAnswer ext dec w (.embeddings result) := by
  have harrived := LoadedModel.reachable_fromArrival (model_reachable hs hm)
  have hresults : ∀ (i : ℕ) (w : Whole), model.loaded.admitted[i]? = some (.whole w) →
      ∀ result, w.pc = .returned (.ok result) → FromAnswer ext dec w result := by
    intro i w hi result hpc
    have hw : w.FromArrival w.pc := harrived i _ hi
    rw [hpc] at hw
    obtain ⟨arrival, harrival, hresult⟩ := hw
    exact fromAnswer_of_concluded harrival hresult
  refine ⟨fun i w hi => ⟨hresults i w hi, ?_⟩, ?_⟩
  · intro err hpc
    have hw : w.FromArrival w.pc := harrived i _ hi
    rw [hpc] at hw
    rcases hw with hstopped | ⟨arrival, harrival, herr⟩
    · exact .inl hstopped
    · refine .inr ⟨arrival, harrival, ?_⟩
      intro body reply hsent result hanswered
      have hok : (conclude w.request (adapter ext dec w.request body reply)).2 = .ok result :=
        (conclude_adapter w.request result).mpr hanswered
      rw [hsent] at herr
      rw [herr] at hok
      cases hok
  · intro now backend hverified
    obtain ⟨i, r, hi, hr⟩ := embedsShown_reachable hs hm now backend hverified
    cases r with
    | whole w =>
      obtain ⟨-, asked, result, hrequest, hpc, -⟩ := hr
      exact ⟨i, w, asked, result, hi, hrequest, hpc, hresults i w hi _ hpc⟩
    | accepted handle body => cases hr
    | stream t => cases hr

/-! One text is embedded; the decoder knows one body. -/

def sampleVectors : WireEmbeddings := ⟨[⟨0, [⟨0x3f800000⟩]⟩]⟩

def sampleDecoders : Decoders where
  response _ := .error "expected value"
  embeddings bytes := if bytes = [0x5b, 0x5d] then .ok sampleVectors else .error "expected value"

def embedding : List RuntimeAction :=
  .load "a" :: (untilLoaded 0 4 [7] ++
    [.onModel 0 (.embed ⟨["a"]⟩ true), .onModel 0 (.request 0 (.whole .markRunning)),
      .onModel 0 (.request 0 (.whole (.arrive (adapter answering sampleDecoders (.embed ⟨["a"]⟩)
        (.ok [0x7b, 0x7d]) (.answered 200 [0x5b, 0x5d]))))),
      .onModel 0 (.request 0 (.whole .poll)), .onModel 0 (.request 0 (.whole .settle)),
      .onModel 0 (.recordVerified 0 5)])

theorem results_come_from_answers_embedding :
    ∃ s model w arrival, (runtimeSystem answering).run (.withLimits ⟨2, none⟩) embedding = some s ∧
      s.models[0]? = some model ∧ model.loaded.admitted[0]? = some (.whole w) ∧
      w.transport = some arrival ∧
      model.loaded.capabilities .embeddings = .verified 5 model.loaded.identity ∧
      w.pc = .returned (.ok (.embeddings (resultOf sampleVectors))) ∧
      Answered sampleDecoders (.ok [0x7b, 0x7d]) (.answered 200 [0x5b, 0x5d]) w.request
        (.embeddings (resultOf sampleVectors)) := by
  obtain ⟨s, hrun, model, hm, w, hw, arrival, harrival, hsent, hverified, hpc⟩ :
      ∃ s, (runtimeSystem answering).run (.withLimits ⟨2, none⟩) embedding = some s ∧
        ∃ model, s.models[0]? = some model ∧
        ∃ w, model.loaded.admitted[0]? = some (.whole w) ∧
        ∃ arrival, w.transport = some arrival ∧
          arrival.sent = adapter answering sampleDecoders w.request
            (.ok [0x7b, 0x7d]) (.answered 200 [0x5b, 0x5d]) ∧
          model.loaded.capabilities .embeddings = .verified 5 model.loaded.identity ∧
          w.pc = .returned (.ok (.embeddings (resultOf sampleVectors))) :=
    ⟨_, rfl, _, rfl, _, rfl, _, rfl, rfl, rfl, rfl⟩
  have hresults := (results_come_from_answers (reachable_of_withLimits hrun) hm sampleDecoders).1
  obtain ⟨arrival', harrival', hanswered⟩ := (hresults 0 w hw).1 _ hpc
  cases Option.some.inj (harrival.symm.trans harrival')
  exact ⟨s, model, w, arrival, hrun, hm, hw, harrival, hverified, hpc, hanswered _ _ hsent⟩

end MehoyRuntime.Runtime
