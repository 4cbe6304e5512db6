import MehoyRuntime.Transport.Pipe

/-!
# Every connection to the pipe is handed off once

A live endpoint holds an instance at every moment, whatever accepts were cancelled and
whatever replacements failed. The instances under the name are told apart by who has
their handle: an endpoint, the task its stream was returned to, or nobody any more.
-/

namespace MehoyRuntime.Transport.Pipe
open TransitionSystem Daemons

/-- The handle of the instance that waits for the next client. -/
def Daemon.holding : Daemon → Option ℕ
  | .live endpoint _ => endpoint.pending
  | .dropping pending => pending
  | _ => none

def Daemon.listens : Daemon → Bool
  | .live _ _ | .dropping _ => true
  | _ => false

def Daemon.yields : Daemon → Bool
  | .live _ .yielding => true
  | _ => false

def Daemon.isClosed : Daemon → Bool
  | .closed => true
  | _ => false

structure Inv (site : Site) : Prop where
  present : ∀ d, (site.daemons d).listens = true →
    ∃ handle, (site.daemons d).holding = some handle
  owned : ∀ d handle, (site.daemons d).holding = some handle →
    ∃ found, site.instances[handle]? = some found ∧ found.phase = .held ∧ found.creator = d
  sole : ∀ d e handle handle', (site.daemons d).holding = some handle →
    (site.daemons e).holding = some handle' → d = e
  yielded : ∀ d handle found, (site.daemons d).yields = true →
    (site.daemons d).holding = some handle → site.instances[handle]? = some found →
    found.opener.isSome = true
  handed : ∀ stream ∈ site.streams, ∃ found, site.instances[stream.handle]? = some found ∧
    found.creator = stream.daemon ∧ found.opener.isSome = true
  once : (site.streams.map Stream.handle).Nodup
  apart : ∀ d handle, (site.daemons d).holding = some handle →
    handle ∉ site.streams.map Stream.handle
  kept : ∀ handle found, site.instances[handle]? = some found →
    handle ∈ site.streams.map Stream.handle ∨
    (site.daemons found.creator).holding = some handle ∨
    (site.daemons found.creator).isClosed = true

variable {address : String} {site after : Site} {d handle : ℕ} {daemon : Daemon}

/-! ### The pieces of a step -/

/-- What happens to an instance that is not waited at by anyone whose handle it is. -/
theorem inv_setInstance {change : Instance → Instance} (h : Inv site)
    (hcreator : ∀ found, (change found).creator = found.creator)
    (hopener : ∀ found, found.opener.isSome = true → (change found).opener.isSome = true)
    (hphase : ∀ d, (site.daemons d).holding = some handle →
      ∀ found, (change found).phase = found.phase) : Inv (site.setInstance handle change) := by
  have hget : ∀ other found', (site.setInstance handle change).instances[other]? = some found' →
      ∃ found, site.instances[other]? = some found ∧
        found' = if handle = other then change found else found := by
    intro other found' hfound
    simp only [Site.setInstance, List.getElem?_modify, Option.map_eq_map,
      Option.map_eq_some_iff] at hfound
    obtain ⟨found, hfound, rfl⟩ := hfound
    exact ⟨found, hfound, rfl⟩
  have hset : ∀ other found, site.instances[other]? = some found →
      (site.setInstance handle change).instances[other]? =
        some (if handle = other then change found else found) := by
    intro other found hfound
    simp only [Site.setInstance, List.getElem?_modify, hfound, Option.map_eq_map, Option.map_some]
  refine ⟨h.present, ?_, h.sole, ?_, ?_, h.once, h.apart, ?_⟩
  · intro d other hd
    obtain ⟨found, hfound, hheld, hown⟩ := h.owned d other hd
    refine ⟨_, hset other found hfound, ?_, ?_⟩
    · split
      · subst other
        rw [hphase d hd, hheld]
      · exact hheld
    · split
      · rw [hcreator, hown]
      · exact hown
  · intro d other found' hyield hd hfound'
    obtain ⟨found, hfound, rfl⟩ := hget other found' hfound'
    have hsome := h.yielded d other found hyield hd hfound
    split
    · exact hopener found hsome
    · exact hsome
  · intro stream hstream
    obtain ⟨found, hfound, hown, hsome⟩ := h.handed stream hstream
    refine ⟨_, hset stream.handle found hfound, ?_, ?_⟩
    · split
      · rw [hcreator, hown]
      · exact hown
    · split
      · exact hopener found hsome
      · exact hsome
  · intro other found' hfound'
    obtain ⟨found, hfound, rfl⟩ := hget other found' hfound'
    have hkept := h.kept other found hfound
    split
    · rw [hcreator]
      exact hkept
    · exact hkept

/-- A daemon goes on with the instance it has. -/
theorem inv_set (h : Inv site) (hholding : daemon.holding = (site.daemons d).holding)
    (hlistens : daemon.listens = true → (site.daemons d).listens = true)
    (hyields : daemon.yields = true → ∀ handle found, (site.daemons d).holding = some handle →
      site.instances[handle]? = some found → found.opener.isSome = true)
    (hclosed : (site.daemons d).isClosed = true → daemon.isClosed = true) :
    Inv (site.set d daemon) := by
  have hsame : ∀ e, ((site.set d daemon).daemons e).holding = (site.daemons e).holding := by
    intro e
    rw [daemons_set]
    split
    · rw [hholding, ‹e = d›]
    · rfl
  refine ⟨?_, ?_, ?_, ?_, h.handed, h.once, ?_, ?_⟩
  · intro e he
    rw [hsame]
    rw [daemons_set] at he
    split at he
    · subst e
      exact h.present d (hlistens he)
    · exact h.present e he
  · intro e handle he
    rw [hsame] at he
    exact h.owned e handle he
  · intro e e' handle handle' he he'
    rw [hsame] at he he'
    exact h.sole e e' handle handle' he he'
  · intro e handle found hyield he hfound
    rw [hsame] at he
    rw [daemons_set] at hyield
    split at hyield
    · subst e
      exact hyields hyield handle found he hfound
    · exact h.yielded e handle found hyield he hfound
  · intro e handle he
    rw [hsame] at he
    exact h.apart e handle he
  · intro handle found hfound
    rw [hsame]
    rcases h.kept handle found hfound with hstream | hholds | hdone
    · exact .inl hstream
    · exact .inr (.inl hholds)
    · refine .inr (.inr ?_)
      rw [daemons_set]
      split
      · rename_i he
        rw [he] at hdone
        exact hclosed hdone
      · exact hdone

/-- A daemon lets go of the instance it has, if any. -/
theorem inv_close (h : Inv site) : Inv (site.set d .closed) := by
  have hother : ∀ e handle, ((site.set d .closed).daemons e).holding = some handle →
      e ≠ d ∧ (site.daemons e).holding = some handle := by
    intro e handle he
    rw [daemons_set] at he
    split at he
    · cases he
    · exact ⟨‹_›, he⟩
  refine ⟨?_, ?_, ?_, ?_, h.handed, h.once, ?_, ?_⟩
  · intro e he
    rw [daemons_set] at he ⊢
    split at he
    · cases he
    · rename_i hne
      rw [if_neg hne]
      exact h.present e he
  · intro e handle he
    exact h.owned e handle (hother e handle he).2
  · intro e e' handle handle' he he'
    exact h.sole e e' handle handle' (hother e handle he).2 (hother e' handle' he').2
  · intro e handle found hyield he hfound
    obtain ⟨hne, he⟩ := hother e handle he
    rw [daemons_set_ne hne] at hyield
    exact h.yielded e handle found hyield he hfound
  · intro e handle he
    exact h.apart e handle (hother e handle he).2
  · intro handle found hfound
    rcases eq_or_ne found.creator d with he | hne
    · refine .inr (.inr ?_)
      rw [he, daemons_set_self]
      rfl
    · rw [daemons_set_ne hne]
      exact h.kept handle found hfound

/-- The instance a daemon waited at, which its next one replaces. -/
def taken (site : Site) (d : ℕ) : List Stream :=
  (site.daemons d).holding.toList.map fun handle => ⟨d, handle⟩

/-- The site with one more instance, at which a daemon waits from now on. -/
def renewed (site : Site) (d : ℕ) (daemon : Daemon) : Site :=
  ({ site with
    instances := site.instances ++ [⟨d, .held, none⟩]
    streams := site.streams ++ taken site d } : Site).set d daemon

theorem mem_taken {stream : Stream} (hstream : stream ∈ taken site d) :
    stream.daemon = d ∧ (site.daemons d).holding = some stream.handle := by
  obtain ⟨handle, hhandle, rfl⟩ := List.mem_map.mp hstream
  exact ⟨rfl, Option.mem_toList.mp hhandle⟩

theorem inv_renewed (h : Inv site) (hdaemon : daemon.holding = some site.instances.length)
    (hyields : daemon.yields = false) (hopen : (site.daemons d).isClosed = false)
    (honly : ∀ e handle, (site.daemons e).holding = some handle → e = d)
    (hopener : ∀ handle found, (site.daemons d).holding = some handle →
      site.instances[handle]? = some found → found.opener.isSome = true) :
    Inv (renewed site d daemon) := by
  have hlt : ∀ {handle : ℕ} {found : Instance}, site.instances[handle]? = some found →
      handle < site.instances.length := fun hfound => (List.getElem?_eq_some_iff.mp hfound).1
  have hold : ∀ {handle : ℕ} {found : Instance}, site.instances[handle]? = some found →
      (renewed site d daemon).instances[handle]? = some found :=
    fun hfound => Slots.get_push_of_get hfound _
  have hholding : ∀ e handle, ((renewed site d daemon).daemons e).holding = some handle →
      e = d ∧ handle = site.instances.length := by
    intro e handle he
    unfold renewed at he
    rw [daemons_set] at he
    split at he
    · rw [hdaemon] at he
      exact ⟨‹_›, (Option.some.inj he).symm⟩
    · exact absurd (honly e handle he) ‹_›
  have hhandles : (renewed site d daemon).streams.map Stream.handle =
      site.streams.map Stream.handle ++ (taken site d).map Stream.handle := List.map_append
  have hstreamed : ∀ handle ∈ site.streams.map Stream.handle,
      handle < site.instances.length := by
    intro handle hhandle
    obtain ⟨stream, hstream, rfl⟩ := List.mem_map.mp hhandle
    obtain ⟨found, hfound, -⟩ := h.handed stream hstream
    exact hlt hfound
  have htaken : ∀ handle ∈ (taken site d).map Stream.handle,
      (site.daemons d).holding = some handle := by
    intro handle hhandle
    obtain ⟨stream, hstream, rfl⟩ := List.mem_map.mp hhandle
    exact (mem_taken hstream).2
  refine ⟨?_, ?_, ?_, ?_, ?_, ?_, ?_, ?_⟩
  · intro e he
    rcases eq_or_ne e d with rfl | hne
    · refine ⟨site.instances.length, ?_⟩
      unfold renewed
      rw [daemons_set_self, hdaemon]
    · unfold renewed at he ⊢
      rw [daemons_set_ne hne] at he ⊢
      exact h.present e he
  · intro e handle he
    obtain ⟨rfl, rfl⟩ := hholding e handle he
    exact ⟨⟨e, .held, none⟩, by simp [renewed, Site.set], rfl, rfl⟩
  · intro e e' handle handle' he he'
    exact (hholding e handle he).1.trans (hholding e' handle' he').1.symm
  · intro e handle found hyield he
    obtain ⟨rfl, -⟩ := hholding e handle he
    unfold renewed at hyield
    rw [daemons_set_self, hyields] at hyield
    cases hyield
  · intro stream hstream
    rcases List.mem_append.mp hstream with hstream | hstream
    · obtain ⟨found, hfound, hrest⟩ := h.handed stream hstream
      exact ⟨found, hold hfound, hrest⟩
    · obtain ⟨hd, hheld⟩ := mem_taken hstream
      obtain ⟨found, hfound, -, hown⟩ := h.owned d stream.handle hheld
      exact ⟨found, hold hfound, hown.trans hd.symm, hopener stream.handle found hheld hfound⟩
  · rw [hhandles]
    refine List.nodup_append.mpr ⟨h.once, ?_, ?_⟩
    · unfold taken
      cases (site.daemons d).holding <;> simp
    · intro handle hhandle more hmore heq
      exact h.apart d more (htaken more hmore) (heq ▸ hhandle)
  · intro e handle he
    obtain ⟨rfl, rfl⟩ := hholding e handle he
    rw [hhandles]
    intro hmem
    rcases List.mem_append.mp hmem with hmem | hmem
    · exact absurd (hstreamed _ hmem) (Nat.lt_irrefl _)
    · obtain ⟨found, hfound, -⟩ := h.owned e _ (htaken _ hmem)
      exact absurd (hlt hfound) (Nat.lt_irrefl _)
  · intro handle found hfound
    rw [hhandles]
    rcases Slots.get_push_cases hfound with ⟨rfl, rfl⟩ | hfound
    · refine .inr (.inl ?_)
      unfold renewed
      rw [daemons_set_self, hdaemon]
    · rcases h.kept handle found hfound with hstream | hholds | hdone
      · exact .inl (List.mem_append_left _ hstream)
      · -- The instance that the daemon waited at is the one it hands off.
        rw [honly _ handle hholds] at hholds
        refine .inl (List.mem_append_right _ ?_)
        simp [taken, hholds]
      · have hne : found.creator ≠ d := by
          intro he
          rw [he, hopen] at hdone
          cases hdone
        refine .inr (.inr ?_)
        unfold renewed
        rw [daemons_set_ne hne]
        exact hdone

theorem inv_emit {stage : Stage} {generation : UInt64} {present : Bool} {error : Option IoError}
    (h : Inv site) : Inv (site.emit address d stage generation present error) :=
  ⟨h.present, h.owned, h.sole, h.yielded, h.handed, h.once, h.apart, h.kept⟩

theorem inv_client {c : ℕ} {client : Client} (h : Inv site) : Inv (site.setClient c client) :=
  ⟨h.present, h.owned, h.sole, h.yielded, h.handed, h.once, h.apart, h.kept⟩

/-- A daemon without an instance stays without one. -/
theorem inv_moved (h : Inv site) (hbefore : (site.daemons d).holding = none)
    (hopen : (site.daemons d).isClosed = false) (hafter : daemon.holding = none)
    (hlistens : daemon.listens = false) (hyields : daemon.yields = false) :
    Inv (site.set d daemon) := by
  refine inv_set h (hafter.trans hbefore.symm) ?_ ?_ ?_
  · intro hlisten
    rw [hlistens] at hlisten
    cases hlisten
  · intro hyield
    rw [hyields] at hyield
    cases hyield
  · intro hclosed
    rw [hopen] at hclosed
    cases hclosed

/-! ### The system calls -/

theorem attempt_ok {α : Type} {answer : Except IoError α} {failure : Option IoError} {a : α}
    (h : attempt answer failure = .ok a) : failure = none ∧ answer = .ok a := by
  cases failure with
  | none => exact ⟨rfl, h⟩
  | some err => cases h

theorem create_ok {first : Bool} (h : site.create d first = .ok (after, handle)) :
    after = { site with instances := site.instances ++ [⟨d, .held, none⟩] } ∧
    handle = site.instances.length ∧
    (first = true → ∀ found ∈ site.instances, found.phase = .gone) := by
  unfold Site.create at h
  split at h
  · cases h
  · rename_i hfree
    simp only [Except.ok.injEq, Prod.mk.injEq] at h
    refine ⟨h.1.symm, h.2.symm, fun hfirst found hfound => ?_⟩
    by_contra hphase
    exact hfree ⟨hfirst, found, hfound, hphase⟩

theorem listener_listens {choice : ℕ} (h : site.listener choice = some handle) :
    ∃ found, site.instances[handle]? = some found ∧ found.listening = true := by
  unfold Site.listener at h
  split at h
  · rename_i hlistens
    obtain rfl : choice = handle := Option.some.inj h
    cases hfound : site.instances[choice]? with
    | none => simp [hfound] at hlistens
    | some found => exact ⟨found, rfl, by simpa [hfound] using hlistens⟩
  · obtain ⟨hlt, hlistens, -⟩ := List.findIdx?_eq_some_iff_getElem.mp h
    exact ⟨_, List.getElem?_eq_getElem hlt, hlistens⟩

theorem dial_ok {opener : Opener} {choice : ℕ}
    (h : site.dial opener choice = .ok (after, handle)) :
    after = site.setInstance handle (fun found => { found with opener }) ∧
    ∃ found, site.instances[handle]? = some found ∧ found.listening = true := by
  unfold Site.dial at h
  split at h
  · rename_i hlistener
    simp only [Except.ok.injEq, Prod.mk.injEq] at h
    obtain ⟨rfl, rfl⟩ := h
    exact ⟨rfl, listener_listens hlistener⟩
  · split at h
    · cases h
    · cases h

theorem inv_dial {opener : Opener} {choice : ℕ} (h : Inv site)
    (hdial : site.dial opener choice = .ok (after, handle)) : Inv after := by
  obtain ⟨rfl, -⟩ := dial_ok hdial
  exact inv_setInstance h (fun _ => rfl) (fun _ _ => rfl) fun _ _ _ => rfl

/-! ### A step -/

theorem inv_created {locals : Binding} {answer : Except IoError (Site × ℕ)} (h : Inv site)
    (hd : site.daemons d = .creating locals)
    (hanswer : ∀ after handle, answer = .ok (after, handle) →
      site.create d true = .ok (after, handle)) :
    Inv (created address site d locals answer) := by
  have hholding : (site.daemons d).holding = none := by simp only [hd, Daemon.holding]
  have hopen : (site.daemons d).isClosed = false := by simp only [hd, Daemon.isClosed]
  cases answer with
  | error err =>
    simp only [created]
    split
    · refine inv_moved (inv_emit h) hholding hopen ?_ ?_ ?_ <;> split <;> rfl
    · exact inv_moved (inv_emit h) hholding hopen rfl rfl rfl
  | ok result =>
    obtain ⟨after, handle⟩ := result
    obtain ⟨rfl, rfl, hgone⟩ := create_ok (hanswer after handle rfl)
    have hnone : ∀ e held, (site.daemons e).holding ≠ some held := by
      intro e held he
      obtain ⟨found, hfound, hheld, -⟩ := h.owned e held he
      rw [hgone rfl found (List.mem_of_getElem? hfound)] at hheld
      cases hheld
    have hrenewed : Inv (renewed site d
        (.live ⟨some site.instances.length, 0⟩ (.returned none))) :=
      inv_renewed h rfl rfl hopen (fun e held he => absurd he (hnone e held))
        fun held _ hd => absurd hd (hnone d held)
    have htaken : taken site d = [] := by simp [taken, hholding]
    simp only [renewed, htaken, List.append_nil] at hrenewed
    exact ⟨hrenewed.present, hrenewed.owned, hrenewed.sole, hrenewed.yielded, hrenewed.handed,
      hrenewed.once, hrenewed.apart, hrenewed.kept⟩

theorem inv_probed {locals : Binding} {answer : Except IoError (Site × ℕ)} (h : Inv site)
    (hd : site.daemons d = .probing locals)
    (hanswer : ∀ after handle, answer = .ok (after, handle) →
      ∃ choice, site.dial (.probe d) choice = .ok (after, handle)) :
    Inv (probed site d locals answer) := by
  have hholding : (site.daemons d).holding = none := by simp only [hd, Daemon.holding]
  have hopen : (site.daemons d).isClosed = false := by simp only [hd, Daemon.isClosed]
  cases answer with
  | error err => exact inv_moved h hholding hopen rfl rfl rfl
  | ok result =>
    obtain ⟨after, handle⟩ := result
    obtain ⟨choice, hdial⟩ := hanswer after handle rfl
    have hafter := inv_dial h hdial
    obtain ⟨rfl, -⟩ := dial_ok hdial
    exact inv_moved hafter hholding hopen rfl rfl rfl

theorem inv_judged {locals : Binding} (h : Inv site) (hd : site.daemons d = .judging locals) :
    Inv (judged address site d locals) := by
  have hholding : (site.daemons d).holding = none := by simp only [hd, Daemon.holding]
  have hopen : (site.daemons d).isClosed = false := by simp only [hd, Daemon.isClosed]
  unfold judged
  split
  · exact inv_moved h hholding hopen rfl rfl rfl
  · split
    · exact inv_moved h hholding hopen rfl rfl rfl
    · exact inv_moved h hholding hopen rfl rfl rfl

/-- `accept` goes on, or returns, with the instance it waits at. -/
theorem inv_accepting {endpoint : Endpoint} {before accepting : Accepting} (h : Inv site)
    (hd : site.daemons d = .live endpoint before)
    (hyields : (Daemon.live endpoint accepting).yields = true → ∀ handle found,
      endpoint.pending = some handle → site.instances[handle]? = some found →
      found.opener.isSome = true) : Inv (site.set d (.live endpoint accepting)) := by
  refine inv_set h ?_ ?_ ?_ ?_
  · simp only [hd, Daemon.holding]
  · intro _
    simp only [hd, Daemon.listens]
  · intro hyield handle found hhandle hfound
    rw [hd] at hhandle
    exact hyields hyield handle found hhandle hfound
  · intro hclosed
    rw [hd] at hclosed
    cases hclosed

theorem inv_connected {endpoint : Endpoint} {failure : Option IoError} (h : Inv site)
    (hd : site.daemons d = .live endpoint .connecting)
    (hstep : connected address site d endpoint failure = some after) : Inv after := by
  cases failure with
  | some err =>
    cases hstep
    exact inv_accepting (inv_emit h) hd (by simp [Daemon.yields])
  | none =>
    simp only [connected] at hstep
    split at hstep
    · rename_i hpending
      cases hstep
      refine inv_accepting (inv_emit h) hd fun _ handle found hhandle hfound => ?_
      rw [hhandle, Option.bind_some] at hpending
      have hfound : site.instances[handle]? = some found := hfound
      rw [hpending] at hfound
      obtain rfl := Option.some.inj hfound
      rfl
    · cases hstep

theorem inv_replaced {endpoint : Endpoint} {pending : ℕ} {answer : Except IoError (Site × ℕ)}
    (h : Inv site) (hd : site.daemons d = .live endpoint .yielding)
    (hpending : endpoint.pending = some pending)
    (hanswer : ∀ after handle, answer = .ok (after, handle) →
      site.create d false = .ok (after, handle)) :
    Inv (replaced address site d endpoint pending answer) := by
  have hholding : (site.daemons d).holding = some pending := by
    simp only [hd, Daemon.holding, hpending]
  cases answer with
  | error err => exact inv_accepting (inv_emit h) hd (by simp [Daemon.yields])
  | ok result =>
    obtain ⟨after, handle⟩ := result
    obtain ⟨rfl, rfl, -⟩ := create_ok (hanswer after handle rfl)
    have hrenewed : Inv (renewed site d (.live ⟨some site.instances.length,
        endpoint.generation + 1⟩ (.returned (some (.ok pending))))) := by
      refine inv_renewed h rfl rfl (by simp only [hd, Daemon.isClosed]) ?_ ?_
      · intro e held he
        exact h.sole e d held pending he hholding
      · intro held found hheld hfound
        exact h.yielded d held found (by simp only [hd, Daemon.yields]) hheld hfound
    have htaken : taken site d = [⟨d, pending⟩] := by simp [taken, hholding]
    simp only [renewed, htaken] at hrenewed
    exact ⟨hrenewed.present, hrenewed.owned, hrenewed.sole, hrenewed.yielded, hrenewed.handed,
      hrenewed.once, hrenewed.apart, hrenewed.kept⟩

theorem inv_next {failure : Option IoError} {choice : ℕ} (h : Inv site)
    (hstep : stepNext address site d failure choice = some after) : Inv after := by
  unfold stepNext at hstep
  split at hstep
  · rename_i locals hd
    cases hstep
    exact inv_created h hd fun _ _ hanswer => (attempt_ok hanswer).2
  · rename_i locals hd
    cases hstep
    exact inv_probed h hd fun _ _ hanswer => ⟨choice, (attempt_ok hanswer).2⟩
  · rename_i locals hd
    cases hstep
    exact inv_judged h hd
  · rename_i locals wake hd
    split at hstep
    · cases hstep
      refine inv_moved h ?_ ?_ rfl rfl rfl
      · simp only [hd, Daemon.holding]
      · simp only [hd, Daemon.isClosed]
    · cases hstep
  · rename_i endpoint hd
    exact inv_connected h hd hstep
  · rename_i endpoint hd
    obtain ⟨pending, hpending, hstep⟩ := Option.bind_eq_some_iff.mp hstep
    cases hstep
    exact inv_replaced (inv_emit h) hd hpending fun _ _ hanswer => (attempt_ok hanswer).2
  · rename_i pending hd
    cases hstep
    -- The handle is nobody's once the endpoint is closed.
    refine inv_setInstance (inv_close h) (fun _ => rfl) (fun _ hopener => hopener) ?_
    intro e he
    rw [daemons_set] at he
    split at he
    · cases he
    · have hsame := h.sole e d pending pending he (by simp only [hd, Daemon.holding])
      exact absurd hsame ‹_›
  · cases hstep
    exact inv_close h
  · cases hstep
  · cases hstep
  · cases hstep
  · cases hstep

theorem inv_step {action : Action} (h : Inv site) (hstep : step address site action = some after) :
    Inv after := by
  cases action with
  | tick elapsed =>
    cases hstep
    exact ⟨h.present, h.owned, h.sole, h.yielded, h.handed, h.once, h.apart, h.kept⟩
  | bind d sid =>
    simp only [step] at hstep
    split at hstep
    · rename_i hd
      cases hstep
      have hholding : (site.daemons d).holding = none := by simp only [hd, Daemon.holding]
      have hopen : (site.daemons d).isClosed = false := by simp only [hd, Daemon.isClosed]
      cases sid with
      | error err => exact inv_moved h hholding hopen rfl rfl rfl
      | ok _ => exact inv_moved h hholding hopen rfl rfl rfl
    · cases hstep
  | next d failure choice => exact inv_next h hstep
  | accept d =>
    simp only [step] at hstep
    split at hstep
    · rename_i endpoint last hd
      cases hstep
      unfold acceptStart
      split
      · exact inv_accepting (inv_emit h) hd (by simp [Daemon.yields])
      · exact inv_accepting (inv_emit h) hd (by simp [Daemon.yields])
    · cases hstep
  | cancel d =>
    simp only [step] at hstep
    split at hstep
    · rename_i endpoint hd
      cases hstep
      exact inv_accepting h hd (by simp [Daemon.yields])
    · rename_i endpoint hd
      cases hstep
      exact inv_accepting h hd (by simp [Daemon.yields])
    · cases hstep
  | drop d =>
    simp only [step] at hstep
    split at hstep
    · rename_i endpoint last hd
      cases hstep
      refine inv_set (inv_emit h) ?_ ?_ ?_ ?_
      · simp only [Site.emit, hd, Daemon.holding]
      · simp only [Site.emit, hd, Daemon.listens, implies_true]
      · simp [Daemon.yields]
      · simp [Site.emit, hd, Daemon.isClosed]
    · cases hstep
  | finish handle =>
    simp only [step] at hstep
    split at hstep
    · rename_i hstream
      cases hstep
      refine inv_setInstance h (fun _ => rfl) (fun _ hopener => hopener) ?_
      intro e he
      obtain ⟨⟨stream, hmem, rfl⟩, -⟩ := hstream
      exact absurd (List.mem_map_of_mem hmem) (h.apart e _ he)
    · cases hstep
  | teardown handle =>
    simp only [step] at hstep
    split at hstep
    · rename_i hclosing
      cases hstep
      refine inv_setInstance h (fun _ => rfl) (fun _ hopener => hopener) ?_
      intro e he
      obtain ⟨found, hfound, hheld, -⟩ := h.owned e handle he
      simp [hfound, hheld] at hclosing
    · cases hstep
  | connect c =>
    simp only [step] at hstep
    split at hstep
    · cases hstep
      exact inv_client h
    · cases hstep
  | dial c failure choice =>
    simp only [step] at hstep
    split at hstep
    · cases hstep
      cases hanswer : attempt (site.dial (.client c) choice) failure with
      | ok result => exact inv_client (inv_dial h (attempt_ok hanswer).2)
      | error err =>
        simp only [opened]
        split_ifs <;> exact inv_client h
    · split at hstep
      · cases hstep
        exact inv_client h
      · cases hstep
    · cases hstep

theorem inv_of_reachable (h : Reachable (system address) site) : Inv site := by
  refine h.invariant (I := Inv) ?_ fun _ _ _ _ hi _ hstep => inv_step hi hstep
  rintro first ⟨hinstances, hstreams, hdaemons, -, -⟩
  have hholding : ∀ d handle, (first.daemons d).holding ≠ some handle := by
    intro d handle hd
    rw [hdaemons] at hd
    cases hd
  refine ⟨?_, fun d handle hd => absurd hd (hholding d handle),
    fun d _ handle _ hd => absurd hd (hholding d handle), ?_, ?_, ?_,
    fun d handle hd => absurd hd (hholding d handle), ?_⟩
  · intro d hd
    rw [hdaemons] at hd
    cases hd
  · intro d handle _ _ hd
    exact absurd hd (hholding d handle)
  · simp [hstreams]
  · simp [hstreams]
  · simp [hinstances]

/-! ### The trace -/

def Site.served (site : Site) (d : ℕ) : ℕ := site.streams.countP fun stream => stream.daemon = d

/-- The generations whose connection a trace says was handed off. -/
def handoffs (events : List EndpointEvent) : List UInt64 :=
  (events.filter fun event => event.stage = .connectionHandedOff).map EndpointEvent.generation

/-- The generation of the next connection of a daemon that may get one. -/
def Daemon.generation : Daemon → Option UInt64
  | .live endpoint _ => some endpoint.generation
  | .dropping _ | .closed | .failed _ => none
  | _ => some 0

structure Recorded (site : Site) : Prop where
  present : ∀ d, ∀ event ∈ site.trace d, event.stage ≠ .instanceCreated →
    event.listenerPresent = true
  numbered : ∀ d, handoffs (site.trace d) = (List.range (site.served d)).map UInt64.ofNat
  current : ∀ d generation, (site.daemons d).generation = some generation →
    generation = UInt64.ofNat (site.served d)

theorem trace_emit (site : Site) (d : ℕ) (stage : Stage) (generation : UInt64) (present : Bool)
    (error : Option IoError) (e : ℕ) :
    (site.emit address d stage generation present error).trace e = if e = d then
      site.trace d ++ [⟨stage, address, generation, present, error, site.now⟩]
    else site.trace e := Function.update_apply ..

theorem recorded_emit {stage : Stage} {generation : UInt64} {present : Bool}
    {error : Option IoError} (h : Recorded site) (hstage : stage ≠ .connectionHandedOff)
    (hpresent : stage ≠ .instanceCreated → present = true) :
    Recorded (site.emit address d stage generation present error) := by
  refine ⟨?_, ?_, h.current⟩
  · intro e event hevent hcreated
    rw [trace_emit] at hevent
    split at hevent
    · rcases List.mem_append.mp hevent with hevent | hevent
      · exact h.present d event hevent hcreated
      · rw [List.mem_singleton.mp hevent] at hcreated ⊢
        exact hpresent hcreated
    · exact h.present e event hevent hcreated
  · intro e
    rw [trace_emit]
    split
    · subst e
      have hnone : handoffs [⟨stage, address, generation, present, error, site.now⟩] = [] := by
        simp [handoffs, hstage]
      have happend : ∀ more, handoffs (site.trace d ++ more) =
          handoffs (site.trace d) ++ handoffs more := by
        intro more
        simp only [handoffs, List.filter_append, List.map_append]
      rw [happend, hnone, List.append_nil]
      exact h.numbered d
    · exact h.numbered e

theorem recorded_set (h : Recorded site)
    (hsame : ∀ generation, daemon.generation = some generation →
      (site.daemons d).generation = some generation) : Recorded (site.set d daemon) := by
  refine ⟨h.present, h.numbered, fun e generation he => ?_⟩
  rw [daemons_set] at he
  split at he
  · subst e
    exact h.current d generation (hsame generation he)
  · exact h.current e generation he

theorem recorded_instances {instances : List Instance} (h : Recorded site) :
    Recorded { site with instances } := ⟨h.present, h.numbered, h.current⟩

theorem recorded_created {locals : Binding} {answer : Except IoError (Site × ℕ)}
    (h : Recorded site) (hd : site.daemons d = .creating locals)
    (hanswer : ∀ after handle, answer = .ok (after, handle) →
      site.create d true = .ok (after, handle)) :
    Recorded (created address site d locals answer) := by
  cases answer with
  | error err =>
    have hrefused : Recorded (site.emit address d .instanceCreated 0 false (some err)) :=
      recorded_emit h (by decide) (by simp)
    simp only [created]
    split
    · refine recorded_set hrefused fun generation hgeneration => ?_
      simp only [Site.emit, hd, Daemon.generation]
      split at hgeneration <;> exact hgeneration
    · exact recorded_set hrefused (by simp [Daemon.generation])
  | ok result =>
    obtain ⟨after, handle⟩ := result
    obtain ⟨rfl, rfl, -⟩ := create_ok (hanswer after handle rfl)
    refine recorded_set (recorded_emit (recorded_instances h) (by decide) (by simp)) ?_
    simp [Site.emit, hd, Daemon.generation]

theorem recorded_accepting {endpoint : Endpoint} {before accepting : Accepting}
    (h : Recorded site) (hd : site.daemons d = .live endpoint before) :
    Recorded (site.set d (.live endpoint accepting)) := by
  refine recorded_set h ?_
  simp [hd, Daemon.generation]

/-- The connection is handed off under the generation of the endpoint. -/
theorem recorded_handedOff {endpoint : Endpoint} {before accepting : Accepting} {pending next : ℕ}
    (h : Recorded site) (hd : site.daemons d = .live endpoint before) :
    Recorded (({ site.emit address d .connectionHandedOff endpoint.generation true none with
      streams := site.streams ++ [⟨d, pending⟩] } : Site).set d
      (.live ⟨some next, endpoint.generation + 1⟩ accepting)) := by
  have hgeneration : endpoint.generation = UInt64.ofNat (site.served d) := by
    refine h.current d endpoint.generation ?_
    simp only [hd, Daemon.generation]
  have hserved : ∀ e, (site.streams ++ [(⟨d, pending⟩ : Stream)]).countP
      (fun stream => stream.daemon = e) = site.served e + if d = e then 1 else 0 := by
    intro e
    simp [Site.served, List.countP_append, List.countP_singleton]
  refine ⟨?_, ?_, ?_⟩
  · intro e event hevent hcreated
    have hevent : event ∈ (site.emit address d .connectionHandedOff endpoint.generation true
      none).trace e := hevent
    rw [trace_emit] at hevent
    split at hevent
    · rcases List.mem_append.mp hevent with hevent | hevent
      · exact h.present d event hevent hcreated
      · rw [List.mem_singleton.mp hevent]
    · exact h.present e event hevent hcreated
  · intro e
    change handoffs ((site.emit address d .connectionHandedOff endpoint.generation true
      none).trace e) = (List.range ((site.streams ++ [(⟨d, pending⟩ : Stream)]).countP _)).map _
    rw [trace_emit, hserved]
    split
    · subst e
      have hlast : handoffs (site.trace d ++ [⟨.connectionHandedOff, address,
          endpoint.generation, true, none, site.now⟩]) =
          handoffs (site.trace d) ++ [endpoint.generation] := by
        simp [handoffs]
      rw [hlast, h.numbered d, if_pos rfl, List.range_succ, List.map_append, List.map_singleton,
        hgeneration]
    · rename_i hne
      rw [if_neg (Ne.symm hne)]
      exact h.numbered e
  · intro e generation he
    change generation = UInt64.ofNat ((site.streams ++ [(⟨d, pending⟩ : Stream)]).countP _)
    rw [hserved]
    rw [daemons_set] at he
    split at he
    · subst e
      simp only [Daemon.generation, Option.some.injEq] at he
      rw [if_pos rfl, ← he, hgeneration, UInt64.ofNat_add]
      rfl
    · rename_i hne
      rw [if_neg (Ne.symm hne)]
      exact h.current e generation he

theorem recorded_next {failure : Option IoError} {choice : ℕ} (h : Recorded site)
    (hstep : stepNext address site d failure choice = some after) : Recorded after := by
  unfold stepNext at hstep
  split at hstep
  · rename_i locals hd
    cases hstep
    exact recorded_created h hd fun _ _ hanswer => (attempt_ok hanswer).2
  · rename_i locals hd
    cases hstep
    cases hanswer : attempt (site.dial (.probe d) choice) failure with
    | error err => exact recorded_set h (by simp [hd, Daemon.generation])
    | ok result =>
      obtain ⟨after, handle⟩ := result
      obtain ⟨rfl, -⟩ := dial_ok (attempt_ok hanswer).2
      exact recorded_set (recorded_instances h) (by simp [Site.setInstance, hd, Daemon.generation])
  · rename_i locals hd
    cases hstep
    unfold judged
    split_ifs <;> exact recorded_set h (by simp [hd, Daemon.generation])
  · rename_i locals wake hd
    split at hstep
    · cases hstep
      exact recorded_set h (by simp [hd, Daemon.generation])
    · cases hstep
  · rename_i endpoint hd
    cases failure with
    | some err =>
      cases hstep
      exact recorded_accepting (recorded_emit h (by decide) (by simp)) hd
    | none =>
      simp only [connected] at hstep
      split at hstep
      · cases hstep
        exact recorded_accepting (recorded_emit h (by decide) (by simp)) hd
      · cases hstep
  · rename_i endpoint hd
    obtain ⟨pending, hpending, hstep⟩ := Option.bind_eq_some_iff.mp hstep
    cases hstep
    have hstarted : Recorded (site.emit address d .replacementCreateStarted endpoint.generation
        true none) := recorded_emit h (by decide) (by simp)
    cases hanswer : attempt ((site.emit address d .replacementCreateStarted endpoint.generation
        true none).create d false) failure with
    | error err =>
      exact recorded_accepting (recorded_emit hstarted (by decide) (by simp)) hd
    | ok result =>
      obtain ⟨after, next⟩ := result
      obtain ⟨rfl, rfl, -⟩ := create_ok (attempt_ok hanswer).2
      refine recorded_handedOff (recorded_emit ?_ (by decide) (by simp)) hd
      exact recorded_instances hstarted
  · cases hstep
    exact recorded_set (recorded_instances h) (by simp [Daemon.generation])
  · cases hstep
    exact recorded_set h (by simp [Daemon.generation])
  · cases hstep
  · cases hstep
  · cases hstep
  · cases hstep

theorem recorded_step {action : Action} (hi : Inv site) (h : Recorded site)
    (hstep : step address site action = some after) : Recorded after := by
  cases action with
  | tick elapsed =>
    cases hstep
    exact ⟨h.present, h.numbered, h.current⟩
  | bind d sid =>
    simp only [step] at hstep
    split at hstep
    · cases hstep
      rename_i hd
      cases sid <;> exact recorded_set h (by simp [hd, Daemon.generation])
    · cases hstep
  | next d failure choice => exact recorded_next h hstep
  | accept d =>
    simp only [step] at hstep
    split at hstep
    · rename_i endpoint last hd
      cases hstep
      obtain ⟨handle, hhandle⟩ := hi.present d (by simp only [hd, Daemon.listens])
      have hpending : endpoint.pending = some handle := by
        simpa only [hd, Daemon.holding] using hhandle
      simp only [acceptStart, hpending]
      exact recorded_accepting (recorded_emit h (by decide) (by simp)) hd
    · cases hstep
  | cancel d =>
    simp only [step] at hstep
    split at hstep
    · cases hstep
      exact recorded_accepting h ‹_›
    · cases hstep
      exact recorded_accepting h ‹_›
    · cases hstep
  | drop d =>
    simp only [step] at hstep
    split at hstep
    · rename_i endpoint last hd
      cases hstep
      obtain ⟨handle, hhandle⟩ := hi.present d (by simp only [hd, Daemon.listens])
      have hpending : endpoint.pending = some handle := by
        simpa only [hd, Daemon.holding] using hhandle
      refine recorded_set (recorded_emit h (by decide) ?_) (by simp [Daemon.generation])
      simp [hpending]
    · cases hstep
  | finish handle =>
    simp only [step] at hstep
    split at hstep
    · cases hstep
      exact recorded_instances h
    · cases hstep
  | teardown handle =>
    simp only [step] at hstep
    split at hstep
    · cases hstep
      exact recorded_instances h
    · cases hstep
  | connect c =>
    simp only [step] at hstep
    split at hstep
    · cases hstep
      exact ⟨h.present, h.numbered, h.current⟩
    · cases hstep
  | dial c failure choice =>
    simp only [step] at hstep
    split at hstep
    · cases hstep
      cases hanswer : attempt (site.dial (.client c) choice) failure with
      | ok result =>
        obtain ⟨after, handle⟩ := result
        obtain ⟨rfl, -⟩ := dial_ok (attempt_ok hanswer).2
        exact ⟨h.present, h.numbered, h.current⟩
      | error err =>
        simp only [opened]
        split_ifs <;> exact ⟨h.present, h.numbered, h.current⟩
    · split at hstep
      · cases hstep
        exact ⟨h.present, h.numbered, h.current⟩
      · cases hstep
    · cases hstep

theorem recorded_of_reachable (h : Reachable (system address) site) : Recorded site := by
  refine h.invariant (I := Recorded) ?_ fun _ _ _ hr hi _ hstep =>
    recorded_step (inv_of_reachable hr.reachable) hi hstep
  rintro first ⟨-, hstreams, hdaemons, -, htrace⟩
  refine ⟨?_, ?_, ?_⟩
  · intro d event hevent
    rw [htrace] at hevent
    cases hevent
  · intro d
    simp [htrace, Site.served, hstreams, handoffs]
  · intro d generation hd
    simp only [hdaemons, Daemon.generation, Option.some.injEq] at hd
    simp [Site.served, hstreams, ← hd]

/-! ### What the pipe does for its clients -/

/-- With an instance under the name, no client finds the name absent. -/
theorem dial_present {opener : Opener} {choice : ℕ} {found : Instance} {err : IoError}
    (hfound : found ∈ site.instances) (hphase : found.phase ≠ .gone)
    (herr : site.dial opener choice = .error err) : err.rawOsError = some ERROR_PIPE_BUSY := by
  unfold Site.dial at herr
  split at herr
  · cases herr
  · rw [if_pos ⟨found, hfound, hphase⟩] at herr
    cases herr
    rfl

theorem live_holds (h : Inv site) {endpoint : Endpoint} {accepting : Accepting}
    (hd : site.daemons d = .live endpoint accepting) :
    ∃ handle found, endpoint.pending = some handle ∧ site.instances[handle]? = some found ∧
      found.phase = .held ∧ found.creator = d := by
  obtain ⟨handle, hhandle⟩ := h.present d (by simp only [hd, Daemon.listens])
  obtain ⟨found, hfound⟩ := h.owned d handle hhandle
  exact ⟨handle, found, by simpa only [hd, Daemon.holding] using hhandle, hfound⟩

/-- The answer a client gets while a daemon listens: an instance, or that it has to wait. -/
theorem dial_live (h : Inv site) {c choice : ℕ} {endpoint : Endpoint} {accepting : Accepting}
    (hd : site.daemons d = .live endpoint accepting)
    (hstep : step address site (.dial c none choice) = some after) :
    after.clients c ≠ .idle (some (.error (.notRunning address))) := by
  obtain ⟨handle, found, -, hfound, hheld, -⟩ := live_holds h hd
  have hclients : ∀ (site : Site) client, (site.setClient c client).clients c = client := by
    intro site client
    change Function.update site.clients c client c = client
    rw [Function.update_self]
  simp only [step] at hstep
  split at hstep
  · cases hstep
    simp only [attempt]
    cases hanswer : site.dial (.client c) choice with
    | ok result => simp [opened, hclients]
    | error err =>
      have hbusy := dial_present (List.mem_of_getElem? hfound) (by simp [hheld]) hanswer
      simp only [opened, hbusy, if_true]
      split <;> simp [hclients]
  · split at hstep
    · cases hstep
      simp [hclients]
    · cases hstep
  · cases hstep

theorem live_endpoint_listens (address : String) (site : Site)
    (hsite : Reachable (system address) site) (d : ℕ) (endpoint : Endpoint)
    (accepting : Accepting) (hd : site.daemons d = .live endpoint accepting) :
    (∃ handle found, endpoint.pending = some handle ∧ site.instances[handle]? = some found ∧
      found.phase = .held ∧ found.creator = d) ∧
    (∀ e other accepting', site.daemons e = .live other accepting' → e = d) ∧
    (∀ after, step address site (.accept d) = some after →
      after.daemons d = .live endpoint .connecting) ∧
    (∀ event ∈ site.trace d, event.stage ≠ .instanceCreated → event.listenerPresent = true) ∧
    ∀ c choice after, step address site (.dial c none choice) = some after →
      after.clients c ≠ .idle (some (.error (.notRunning address))) := by
  have h := inv_of_reachable hsite
  obtain ⟨handle, found, hpending, hfound⟩ := live_holds h hd
  refine ⟨⟨handle, found, hpending, hfound⟩, ?_, ?_, (recorded_of_reachable hsite).present d,
    fun c choice after => dial_live h hd⟩
  · intro e other accepting' he
    obtain ⟨handle', found', hpending', -⟩ := live_holds h he
    refine h.sole e d handle' handle ?_ ?_
    · simp only [he, Daemon.holding, hpending']
    · simp only [hd, Daemon.holding, hpending]
  · intro after hstep
    simp only [step] at hstep
    split at hstep
    · rename_i endpoint' last hd'
      cases hstep
      obtain ⟨rfl, rfl⟩ : endpoint = endpoint' ∧ accepting = .returned last := by
        simpa [hd] using hd'
      simp only [acceptStart, hpending, daemons_set_self]
    · cases hstep

/-- Nothing under the name yet. -/
def untouched : Site where
  daemons := fun _ => .unbound
  now := 0
  instances := []
  clients := fun _ => .idle none
  streams := []
  trace := fun _ => []

theorem untouched_init (address : String) : (system address).init untouched :=
  ⟨rfl, rfl, fun _ => rfl, fun _ => rfl, fun _ => rfl⟩

/-- An accept is cancelled, a client connects, and its first replacement cannot be created. -/
def interrupted : List Action :=
  [.bind 0 (.ok ()), .next 0 none 0, .accept 0, .cancel 0, .connect 7, .dial 7 none 0, .accept 0,
    .next 0 none 0, .next 0 (some ⟨.other, none, "no memory"⟩) 0, .accept 0, .next 0 none 0,
    .next 0 none 0]

theorem live_endpoint_listens_interrupted :
    ∃ site : Site, site.daemons 0 = .live ⟨some 1, 1⟩ (.returned (some (.ok 0))) ∧
      ∃ handle found, (some 1 : Option ℕ) = some handle ∧ site.instances[handle]? = some found ∧
        found.phase = .held ∧ found.creator = 0 := by
  obtain ⟨site, hrun, hlive⟩ : ∃ site,
      (system "mehoyd").run untouched interrupted = some site ∧
      site.daemons 0 = .live ⟨some 1, 1⟩ (.returned (some (.ok 0))) := ⟨_, rfl, rfl⟩
  have hreach := reachable_of_run (.init (untouched_init _)) hrun
  exact ⟨site, hlive, (live_endpoint_listens _ site hreach 0 _ _ hlive).1⟩

end MehoyRuntime.Transport.Pipe
