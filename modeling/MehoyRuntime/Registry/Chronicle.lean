import MehoyRuntime.Registry.Idempotence
import MehoyRuntime.Registry.Integrity

/-!
# Which file an identifier stands for

The runs of registrations, loads, verifications, removals and replacements beside a history
of them: the canonical path of each registration, what has happened to the files and to the
rows since, and what was registered under each identifier.
-/

namespace MehoyRuntime.Registry
open TransitionSystem Filesystem

/-- For each call, its canonical path, the paths that have been touched since it began and the
identifiers that have been forgotten since it returned; for each identifier that has a row, the
artifact that its registration has returned. -/
structure Chronicle where
  canonicals : ℕ → Option PathBuf
  touched : ℕ → List PathBuf
  forgotten : ℕ → List String
  registered : String → Option ModelArtifact

namespace Chronicle

def empty : Chronicle := ⟨fun _ => none, fun _ => [], fun _ => [], fun _ => none⟩

def touch (chronicle : Chronicle) (calls : ℕ → Call) (path : PathBuf) : Chronicle :=
  { chronicle with
    touched := fun call =>
      match calls call with
      | .idle => chronicle.touched call
      | _ => path :: chronicle.touched call }

def forget (chronicle : Chronicle) (calls : ℕ → Call) (id : String) : Chronicle :=
  { chronicle with
    registered := Function.update chronicle.registered id none
    forgotten := fun call =>
      match calls call with
      | .registered _ => id :: chronicle.forgotten call
      | _ => chronicle.forgotten call }

def inserted (chronicle : Chronicle) (store : Store) (artifact : ModelArtifact) (version : Version) :
    Chronicle :=
  match store.insert artifact version with
  | .ok _ =>
    { chronicle with registered := Function.update chronicle.registered artifact.id (some artifact) }
  | .error _ => chronicle

def answered (chronicle : Chronicle) (call : ℕ) : Answer → Chronicle
  | .canonicalized (.ok canonical) =>
    { chronicle with canonicals := Function.update chronicle.canonicals call (some canonical) }
  | _ => chronicle

def note (chronicle : Chronicle) (audit : Audit) : AuditAction → Chronicle
  | .registry (.call call answer) =>
    match audit.store.calls call, answer with
    | .inserting artifact version, .done none => chronicle.inserted audit.store artifact version
    | _, answer => chronicle.answered call answer
  | .registry (.forget id) => chronicle.forget audit.store.calls id
  | .registry (.replace path _ _) | .registry (.remove path) =>
    chronicle.touch audit.store.calls path
  | _ => chronicle

def system (sha256 : List UInt8 → List UInt8) : System (Audit × Chronicle) AuditAction :=
  (Audit.system sha256).recording empty note

/-- The history is told of every run, and the run does not depend on it. -/
theorem reachable_iff {sha256 : List UInt8 → List UInt8} {audit : Audit} :
    Reachable (Audit.system sha256) audit ↔
      ∃ chronicle, Reachable (system sha256) (audit, chronicle) :=
  ⟨fun h => h.recorded, fun ⟨_, h⟩ => h.unrecorded⟩

end Chronicle

/-- Two rows differ in their identifiers and in their paths. -/
structure Store.Keyed (store : Store) : Prop where
  ids : ∀ record ∈ store.records, ∀ other ∈ store.records,
    record.artifact.id = other.artifact.id → record = other
  paths : ∀ record ∈ store.records, ∀ other ∈ store.records,
    record.artifact.path = other.artifact.path → record = other

/-- All of a row but its integrity is what was stored of an artifact. -/
def ModelArtifact.Keeps (row artifact : ModelArtifact) : Prop :=
  row = { artifact.stored with integrity := row.integrity }

variable {sha256 : List UInt8 → List UInt8} {store store' : Store} {audit audit' : Audit}
  {chronicle : Chronicle} {call : ℕ} {point point' : Call} {answer : Answer}

/-! ### The rows -/

theorem insert_ok {artifact : ModelArtifact} {version : Version} {grown : Store}
    (h : store.insert artifact version = .ok grown) :
    store.get artifact.id = none ∧ store.findByPath artifact.path = none ∧
      grown = { store with records := ⟨artifact.stored, version⟩ :: store.records } := by
  unfold Store.insert at h
  by_cases hid : (store.get artifact.id).isSome
  · rw [if_pos hid] at h
    cases h
  · rw [if_neg hid] at h
    by_cases hpath : (store.findByPath artifact.path).isSome
    · rw [if_pos hpath] at h
      cases h
    · rw [if_neg hpath] at h
      cases h
      exact ⟨by simpa using hid, by simpa using hpath, rfl⟩

theorem get_none {id : String} (h : store.get id = none) :
    ∀ record ∈ store.records, record.artifact.id ≠ id := by
  simpa [Store.get] using h

theorem findByPath_free {path : PathBuf} (h : store.findByPath path = none) :
    ∀ record ∈ store.records, record.artifact.path ≠ path.stored := by
  simpa [Store.findByPath] using h

theorem get_id {id : String} {record : Record} (h : store.get id = some record) :
    record.artifact.id = id := by
  simpa using List.find?_some h

theorem Store.Keyed.get_eq (h : store.Keyed) {record : Record} (hrecord : record ∈ store.records) :
    store.get record.artifact.id = some record := by
  cases hget : store.get record.artifact.id with
  | none => exact absurd rfl (get_none hget record hrecord)
  | some other => rw [h.ids other (get_mem hget) record hrecord (get_id hget)]

theorem Store.Keyed.subset (h : store.Keyed)
    (hsub : ∀ record ∈ store'.records, record ∈ store.records) : store'.Keyed where
  ids record hrecord other hother := h.ids record (hsub record hrecord) other (hsub other hother)
  paths record hrecord other hother := h.paths record (hsub record hrecord) other (hsub other hother)

theorem Store.Keyed.insert {artifact : ModelArtifact} {version : Version} {grown : Store}
    (h : store.Keyed) (hinsert : store.insert artifact version = .ok grown) : grown.Keyed := by
  obtain ⟨hid, hpath, rfl⟩ := insert_ok hinsert
  have hids := get_none hid
  have hpaths := findByPath_free hpath
  constructor
  case ids =>
    intro record hrecord other hother hsame
    rcases List.mem_cons.mp hrecord with rfl | hrecord
    · rcases List.mem_cons.mp hother with rfl | hother
      · rfl
      · exact absurd hsame.symm (hids other hother)
    · rcases List.mem_cons.mp hother with rfl | hother
      · exact absurd hsame (hids record hrecord)
      · exact h.ids record hrecord other hother hsame
  case paths =>
    intro record hrecord other hother hsame
    rcases List.mem_cons.mp hrecord with rfl | hrecord
    · rcases List.mem_cons.mp hother with rfl | hother
      · rfl
      · exact absurd hsame.symm (hpaths other hother)
    · rcases List.mem_cons.mp hother with rfl | hother
      · exact absurd hsame (hpaths record hrecord)
      · exact h.paths record hrecord other hother hsame

theorem Store.Keyed.update (h : store.Keyed) (id : String) (digest : List UInt8) :
    (store.update id digest).Keyed := by
  constructor
  case ids =>
    intro record' hrecord' other' hother' hsame
    obtain ⟨record, hrecord, hid, -, -, heq⟩ := Audit.update_mem hrecord'
    obtain ⟨other, hother, hotherId, -, -, hotherEq⟩ := Audit.update_mem hother'
    rw [heq, hotherEq, h.ids record hrecord other hother (by rw [hid, hsame, hotherId])]
  case paths =>
    intro record' hrecord' other' hother' hsame
    obtain ⟨record, hrecord, -, hpath, -, heq⟩ := Audit.update_mem hrecord'
    obtain ⟨other, hother, -, hotherPath, -, hotherEq⟩ := Audit.update_mem hother'
    rw [heq, hotherEq, h.paths record hrecord other hother (by rw [hpath, hsame, hotherPath])]

/-! ### What a step does to the registry and to its history -/

inductive Effect (store : Store) (chronicle : Chronicle) : AuditAction → Store → Chronicle → Prop
  | moved (call : ℕ) (answer : Answer) (point : Call) :
      Moves store (store.calls call) answer point →
      Effect store chronicle (.registry (.call call answer)) (store.set call point)
        (chronicle.answered call answer)
  | refused (call : ℕ) (failure : Option String) (err : String) :
      Effect store chronicle (.registry (.call call (.done failure)))
        (store.set call (.registered (.error (.storage err)))) chronicle
  | inserted (call : ℕ) (artifact : ModelArtifact) (version : Version) (grown : Store) :
      store.calls call = .inserting artifact version → store.insert artifact version = .ok grown →
      Effect store chronicle (.registry (.call call (.done none)))
        (grown.set call (.registered (.ok (.registered artifact))))
        { chronicle with
          registered := Function.update chronicle.registered artifact.id (some artifact) }
  | forgotten (id : String) :
      Effect store chronicle (.registry (.forget id))
        { store with records := store.records.filter fun record => record.artifact.id ≠ id }
        (chronicle.forget store.calls id)
  | touched (action : Action) (path : PathBuf) (files : PathBuf → Option Version) (serials : ℕ) :
      (∀ other, other ≠ path → files other = store.files other) →
      Effect store chronicle (.registry action) { store with files, serials }
        (chronicle.touch store.calls path)
  | updated (action : AuditAction) (id : String) (digest : List UInt8) :
      Effect store chronicle action (store.update id digest) chronicle
  | kept (action : AuditAction) : Effect store chronicle action store chronicle

theorem note_moved (h : (audit.store.calls call).next audit.store answer = some point) :
    chronicle.note audit (.registry (.call call answer)) = chronicle.answered call answer := by
  cases hcall : audit.store.calls call with
  | inserting artifact version =>
    rw [hcall] at h
    simp [Call.next] at h
  | _ => simp only [Chronicle.note, hcall]

theorem call_effect {action : Action} (h : step audit.store action = some store') :
    Effect audit.store chronicle (.registry action) store'
      (chronicle.note audit (.registry action)) := by
  cases action with
  | call call answer =>
    simp only [step] at h
    split at h
    · rename_i artifact version failure hpoint
      cases h
      cases failure with
      | some err =>
        have hnote : chronicle.note audit (.registry (.call call (.done (some err)))) = chronicle := by
          simp only [Chronicle.note, hpoint, Chronicle.answered]
        rw [hnote]
        exact .refused call _ err
      | none =>
        have hnote : chronicle.note audit (.registry (.call call (.done none))) =
            chronicle.inserted audit.store artifact version := by
          simp only [Chronicle.note, hpoint]
        rw [hnote]
        unfold Store.inserted Chronicle.inserted
        cases hinsert : audit.store.insert artifact version with
        | error err => exact .refused call none err
        | ok grown => exact .inserted call artifact version grown hpoint hinsert
    · obtain ⟨point, hnext, rfl⟩ := Option.map_eq_some_iff.mp h
      rw [note_moved hnext]
      exact .moved call _ point (next_moves hnext)
  | forget id =>
    cases h
    exact .forgotten id
  | replace path bytes modified =>
    simp only [step] at h
    split at h <;> cases h
    exact .touched _ path _ _ fun other hne => Function.update_of_ne hne ..
  | remove path =>
    cases h
    exact .touched _ path _ _ fun other hne => Function.update_of_ne hne ..

theorem step_effect {s s' : Audit × Chronicle} {action : AuditAction}
    (h : (Chronicle.system sha256).step s action = some s') :
    Effect s.1.store s.2 action s'.1.store s'.2 := by
  obtain ⟨audit', chronicle'⟩ := s'
  obtain ⟨hstep, hnote⟩ := recording_step h
  replace hstep : s.1.step sha256 action = some audit' := hstep
  replace hnote : chronicle' = s.2.note s.1 action := hnote
  rw [hnote]
  cases action with
  | registry action =>
    obtain ⟨store, hstore, rfl⟩ := Option.map_eq_some_iff.mp hstep
    exact call_effect hstore
  | verify call id =>
    simp only [Audit.step] at hstep
    split at hstep <;> cases hstep
    exact .kept _
  | check call id =>
    simp only [Audit.step] at hstep
    split at hstep <;> cases hstep
    exact .kept _
  | read call length =>
    obtain ⟨point, -, rfl⟩ := Option.map_eq_some_iff.mp hstep
    exact .kept _
  | rewrite call bytes =>
    obtain ⟨point, -, rfl⟩ := Option.map_eq_some_iff.mp hstep
    exact .kept _
  | done call failure =>
    simp only [Audit.step] at hstep
    split at hstep
    · rename_i id artifact digest hcall
      cases hstep
      cases failure with
      | some err => exact .kept _
      | none => exact .updated _ id digest
    · obtain ⟨point, -, rfl⟩ := Option.map_eq_some_iff.mp hstep
      exact .kept _

/-- What a step does without a history of what went before. -/
theorem Audit.step_effect {action : AuditAction}
    (h : audit.step sha256 action = some audit') :
    Effect audit.store .empty action audit'.store (Chronicle.empty.note audit action) := by
  have hrecorded : (Chronicle.system sha256).step (audit, .empty) action =
      some (audit', Chronicle.empty.note audit action) := by
    show (audit.step sha256 action).map _ = _
    rw [h]
    rfl
  exact Registry.step_effect hrecorded

/-! ### What the history says of the rows -/

namespace Chronicle

@[simp] theorem answered_touched (chronicle : Chronicle) (call : ℕ) (answer : Answer) :
    (chronicle.answered call answer).touched = chronicle.touched := by
  unfold answered
  split <;> rfl

@[simp] theorem answered_forgotten (chronicle : Chronicle) (call : ℕ) (answer : Answer) :
    (chronicle.answered call answer).forgotten = chronicle.forgotten := by
  unfold answered
  split <;> rfl

@[simp] theorem answered_registered (chronicle : Chronicle) (call : ℕ) (answer : Answer) :
    (chronicle.answered call answer).registered = chronicle.registered := by
  unfold answered
  split <;> rfl

theorem answered_other (chronicle : Chronicle) (answer : Answer) {other : ℕ} (h : other ≠ call) :
    (chronicle.answered call answer).canonicals other = chronicle.canonicals other := by
  unfold answered
  split
  · exact Function.update_of_ne h ..
  · rfl

/-- A call is told its canonical path once. -/
theorem answered_target {canonical : PathBuf}
    (hbefore : ∀ path, point.target = some path → chronicle.canonicals call = some path)
    (h : Moves store point answer point') (htarget : point'.target = some canonical) :
    (chronicle.answered call answer).canonicals call = some canonical := by
  cases h with
  | finding path canonical =>
    cases htarget
    exact Function.update_self ..
  | opening | parsing | observing | identifying | inserting => exact hbefore canonical htarget
  | inspecting | canonicalizing | found => cases htarget
  | other _ _ _ hnone =>
    rw [hnone] at htarget
    cases htarget

/-- The rows are those of the artifacts that were registered, and a registration that has
returned an artifact has a row for its canonical path. -/
structure Sound (store : Store) (chronicle : Chronicle) : Prop where
  keyed : store.Keyed
  targets : ∀ call canonical, (store.calls call).target = some canonical →
    chronicle.canonicals call = some canonical
  sized : ∀ call artifact version, store.calls call = .inserting artifact version →
    artifact.sizeBytes = artifact.fingerprint.sizeBytes
  rows : ∀ record ∈ store.records, ∃ artifact,
    chronicle.registered record.artifact.id = some artifact ∧ record.artifact.Keeps artifact ∧
      artifact.sizeBytes = artifact.fingerprint.sizeBytes
  kept : ∀ id artifact, chronicle.registered id = some artifact →
    ∃ record ∈ store.records, record.artifact.id = id
  returned : ∀ call registration, store.calls call = .registered (.ok registration) →
    registration.artifact.id ∉ chronicle.forgotten call →
    ∃ canonical, chronicle.canonicals call = some canonical ∧
      ∃ record ∈ store.records, record.artifact.id = registration.artifact.id ∧
        record.artifact.path = canonical.stored

theorem Sound.moved (h : Sound store chronicle) (hmoves : Moves store (store.calls call) answer point) :
    Sound (store.set call point) (chronicle.answered call answer) where
  keyed := h.keyed.subset fun _ => id
  targets := by
    intro other canonical htarget
    rw [calls_set] at htarget
    by_cases hother : other = call
    · subst hother
      rw [if_pos rfl] at htarget
      exact answered_target (h.targets other) hmoves htarget
    · rw [if_neg hother] at htarget
      rw [answered_other _ _ hother]
      exact h.targets other canonical htarget
  sized := by
    intro other artifact version hcall
    rw [calls_set] at hcall
    split at hcall
    · subst hcall
      generalize store.calls call = before at hmoves
      cases hmoves with
      | inserting => rfl
      | other _ _ _ hnone => cases hnone
    · exact h.sized other artifact version hcall
  rows := by
    rw [answered_registered]
    exact h.rows
  kept := by
    rw [answered_registered]
    exact h.kept
  returned := by
    intro other registration hcall hforgotten
    rw [answered_forgotten] at hforgotten
    rw [calls_set] at hcall
    by_cases hother : other = call
    · subst hother
      rw [if_pos rfl] at hcall
      subst hcall
      generalize hpoint : store.calls other = before at hmoves
      cases hmoves with
      | found canonical record hfind =>
        have hrow := List.mem_filter.mp (findByPath_mem hfind)
        refine ⟨canonical, h.targets other canonical (by rw [hpoint]; rfl), record, hrow.1, rfl, ?_⟩
        simpa using hrow.2
      | other _ _ _ _ hnone => exact absurd rfl (hnone registration)
    · rw [if_neg hother] at hcall
      rw [answered_other _ _ hother]
      exact h.returned other registration hcall hforgotten

theorem Sound.refused (h : Sound store chronicle) (err : RegistryError) :
    Sound (store.set call (.registered (.error err))) chronicle where
  keyed := h.keyed.subset fun _ => id
  targets := by
    intro other canonical htarget
    rw [calls_set] at htarget
    split at htarget
    · cases htarget
    · exact h.targets other canonical htarget
  sized := by
    intro other artifact version hcall
    rw [calls_set] at hcall
    split at hcall
    · cases hcall
    · exact h.sized other artifact version hcall
  rows := h.rows
  kept := h.kept
  returned := by
    intro other registration hcall hforgotten
    rw [calls_set] at hcall
    split at hcall
    · cases hcall
    · exact h.returned other registration hcall hforgotten

theorem Sound.inserted {artifact : ModelArtifact} {version : Version} {grown : Store}
    (h : Sound store chronicle) (hpoint : store.calls call = .inserting artifact version)
    (hinsert : store.insert artifact version = .ok grown) :
    Sound (grown.set call (.registered (.ok (.registered artifact))))
      { chronicle with
        registered := Function.update chronicle.registered artifact.id (some artifact) } := by
  have hkeyed := h.keyed.insert hinsert
  obtain ⟨hid, -, rfl⟩ := insert_ok hinsert
  have hfresh := get_none hid
  constructor
  case keyed => exact hkeyed.subset fun _ => id
  case targets =>
    intro other canonical htarget
    rw [calls_set] at htarget
    split at htarget
    · cases htarget
    · exact h.targets other canonical htarget
  case sized =>
    intro other before version hcall
    rw [calls_set] at hcall
    split at hcall
    · cases hcall
    · exact h.sized other before version hcall
  case rows =>
    intro record hrecord
    rcases List.mem_cons.mp hrecord with rfl | hrecord
    · exact ⟨artifact, Function.update_self .., rfl, h.sized call artifact version hpoint⟩
    · obtain ⟨before, hbefore, hkeeps⟩ := h.rows record hrecord
      refine ⟨before, ?_, hkeeps⟩
      show Function.update chronicle.registered artifact.id (some artifact) _ = _
      rw [Function.update_of_ne (hfresh record hrecord), hbefore]
  case kept =>
    intro id before hbefore
    rcases Slots.update_cases hbefore with ⟨rfl, -⟩ | ⟨-, hbefore⟩
    · exact ⟨_, List.mem_cons_self, rfl⟩
    · obtain ⟨record, hrecord, hrow⟩ := h.kept id before hbefore
      exact ⟨record, List.mem_cons_of_mem _ hrecord, hrow⟩
  case returned =>
    intro other registration hcall hforgotten
    rw [calls_set] at hcall
    split at hcall
    · rename_i hother
      subst hother
      cases hcall
      exact ⟨artifact.path, h.targets other _ (by rw [hpoint]; rfl), _, List.mem_cons_self, rfl, rfl⟩
    · obtain ⟨canonical, hcanonical, record, hrecord, hrow⟩ :=
        h.returned other registration hcall hforgotten
      exact ⟨canonical, hcanonical, record, List.mem_cons_of_mem _ hrecord, hrow⟩

theorem forget_forgotten {registration : Except RegistryError Registration}
    (hcall : store.calls call = .registered registration) (id : String) :
    (chronicle.forget store.calls id).forgotten call = id :: chronicle.forgotten call := by
  simp only [forget, hcall]

theorem Sound.forgot (h : Sound store chronicle) (id : String) :
    Sound { store with records := store.records.filter fun record => record.artifact.id ≠ id }
      (chronicle.forget store.calls id) where
  keyed := h.keyed.subset fun record hrecord => (List.mem_filter.mp hrecord).1
  targets := h.targets
  sized := h.sized
  rows := by
    intro record hrecord
    obtain ⟨hrecord, hne⟩ := List.mem_filter.mp hrecord
    obtain ⟨artifact, hregistered, hkeeps⟩ := h.rows record hrecord
    refine ⟨artifact, ?_, hkeeps⟩
    show Function.update chronicle.registered id none _ = _
    rw [Function.update_of_ne (by simpa using hne), hregistered]
  kept := by
    intro other artifact hregistered
    rcases Slots.update_cases hregistered with ⟨-, hnone⟩ | ⟨hsame, hregistered⟩
    · cases hnone
    · obtain ⟨record, hrecord, hrow⟩ := h.kept other artifact hregistered
      exact ⟨record, List.mem_filter.mpr ⟨hrecord, by simpa [hrow] using hsame⟩, hrow⟩
  returned := by
    intro call registration hcall hforgotten
    rw [forget_forgotten hcall, List.mem_cons, not_or] at hforgotten
    obtain ⟨hne, hforgotten⟩ := hforgotten
    obtain ⟨canonical, hcanonical, record, hrecord, hrow, hpath⟩ :=
      h.returned call registration hcall hforgotten
    exact ⟨canonical, hcanonical, record,
      List.mem_filter.mpr ⟨hrecord, by simpa [hrow] using hne⟩, hrow, hpath⟩

theorem update_keeps {id : String} {digest : List UInt8} {record : Record}
    (hrecord : record ∈ store.records) :
    ∃ record' ∈ (store.update id digest).records, record'.artifact.id = record.artifact.id ∧
      record'.artifact.path = record.artifact.path ∧ record'.parsed = record.parsed ∧
      record'.artifact.fingerprint = record.artifact.fingerprint ∧
      record'.artifact.metadata = record.artifact.metadata := by
  refine ⟨_, List.mem_map.mpr ⟨record, hrecord, rfl⟩, ?_⟩
  split <;> exact ⟨rfl, rfl, rfl, rfl, rfl⟩

theorem Sound.updated (h : Sound store chronicle) (id : String) (digest : List UInt8) :
    Sound (store.update id digest) chronicle where
  keyed := h.keyed.update id digest
  targets := h.targets
  sized := h.sized
  rows := by
    intro record' hrecord'
    obtain ⟨record, hrecord, hid, -, -, heq⟩ := Audit.update_mem hrecord'
    obtain ⟨artifact, hregistered, hkeeps, hsize⟩ := h.rows record hrecord
    refine ⟨artifact, hid ▸ hregistered, ?_, hsize⟩
    rw [heq]
    split
    · show _ = _
      rw [hkeeps]
    · exact hkeeps
  kept := by
    intro other artifact hregistered
    obtain ⟨record, hrecord, hrow⟩ := h.kept other artifact hregistered
    obtain ⟨record', hrecord', hid, -⟩ := update_keeps hrecord
    exact ⟨record', hrecord', hid.trans hrow⟩
  returned := by
    intro call registration hcall hforgotten
    obtain ⟨canonical, hcanonical, record, hrecord, hrow, hpath⟩ :=
      h.returned call registration hcall hforgotten
    obtain ⟨record', hrecord', hid, hsame, -⟩ := update_keeps hrecord
    exact ⟨canonical, hcanonical, record', hrecord', hid.trans hrow, hsame.trans hpath⟩

theorem Sound.step {s s' : Audit × Chronicle} {action : AuditAction} (h : Sound s.1.store s.2)
    (hstep : (system sha256).step s action = some s') : Sound s'.1.store s'.2 := by
  obtain ⟨audit', chronicle'⟩ := s'
  have heffect := step_effect hstep
  generalize audit'.store = store' at heffect ⊢
  cases heffect with
  | moved call answer point hmoves => exact h.moved hmoves
  | refused call failure err => exact h.refused _
  | inserted call artifact version grown hpoint hinsert => exact h.inserted hpoint hinsert
  | forgotten id => exact h.forgot id
  | touched action path files serials hfiles =>
    exact ⟨h.keyed.subset fun _ => id, h.targets, h.sized, h.rows, h.kept, h.returned⟩
  | updated _ id digest => exact h.updated id digest
  | kept => exact h

theorem sound_init {s : Audit × Chronicle} (h : (system sha256).init s) : Sound s.1.store s.2 := by
  obtain ⟨⟨⟨hrecords, hcalls, -⟩, -⟩, hstart⟩ := h
  have hnone : ∀ record, record ∉ s.1.store.records := by
    intro record hrecord
    rw [hrecords] at hrecord
    cases hrecord
  constructor
  case keyed => exact ⟨fun record hrecord => absurd hrecord (hnone record),
    fun record hrecord => absurd hrecord (hnone record)⟩
  case targets =>
    intro call canonical htarget
    rw [hcalls] at htarget
    cases htarget
  case sized =>
    intro call artifact version hcall
    rw [hcalls] at hcall
    cases hcall
  case rows => exact fun record hrecord => absurd hrecord (hnone record)
  case kept =>
    intro id artifact hregistered
    rw [hstart] at hregistered
    cases hregistered
  case returned =>
    intro call registration hcall
    rw [hcalls] at hcall
    cases hcall

theorem sound_reachable {s : Audit × Chronicle} (h : Reachable (system sha256) s) :
    Sound s.1.store s.2 :=
  h.invariant (I := fun s => Sound s.1.store s.2) (fun _ => sound_init)
    fun _ _ _ _ h _ hstep => h.step hstep

/-! ### Identities -/

/-- A registration has returned an artifact for a canonical path. -/
def Returned (s : Audit × Chronicle) (call : ℕ) (canonical : PathBuf) (artifact : ModelArtifact) :
    Prop :=
  s.2.canonicals call = some canonical ∧
    ∃ registration, s.1.store.calls call = .registered (.ok registration) ∧
      registration.artifact = artifact

/-- Two registrations return one identifier when they are of one canonical path, and the row
of the identifier has that path. -/
structure Identifies (s : Audit × Chronicle) : Prop where
  ids : ∀ call other canonical canonical' artifact artifact',
    Returned s call canonical artifact → Returned s other canonical' artifact' →
      (artifact.id = artifact'.id ↔ canonical = canonical')
  paths : ∀ call canonical artifact, Returned s call canonical artifact →
    ∃ record, s.1.store.get artifact.id = some record ∧ record.artifact.path = canonical

def unforgotten : AuditAction → Bool
  | .registry (.forget _) => false
  | _ => true

theorem nothing_forgotten {s : Audit × Chronicle}
    (h : ReachableWhile (system sha256) (fun _ action => unforgotten action = true) s) (call : ℕ) :
    s.2.forgotten call = [] := by
  refine h.invariant (I := fun s => s.2.forgotten call = []) ?_ ?_
  · intro s hinit
    rw [hinit.2]
    rfl
  · intro s s' action _ h hok hstep
    obtain ⟨audit', chronicle'⟩ := s'
    have heffect := step_effect hstep
    generalize audit'.store = store' at heffect
    cases heffect with
    | moved call' answer point =>
      show (s.2.answered call' answer).forgotten call = []
      rw [answered_forgotten, h]
    | forgotten id => cases hok
    | refused | inserted | touched | updated | kept => exact h

theorem returned_row {s : Audit × Chronicle} {canonical : PathBuf} {artifact : ModelArtifact}
    (h : ReachableWhile (system sha256) (fun _ action => unforgotten action = true) s)
    (hreturned : Returned s call canonical artifact) :
    ∃ record ∈ s.1.store.records, s.1.store.get artifact.id = some record ∧
      record.artifact.id = artifact.id ∧ record.artifact.path = canonical.stored := by
  obtain ⟨hcanonical, registration, hcall, rfl⟩ := hreturned
  have hsound := sound_reachable h.reachable
  have hnone : registration.artifact.id ∉ s.2.forgotten call := by
    rw [nothing_forgotten h]
    exact List.not_mem_nil
  obtain ⟨canonical', hcanonical', record, hrecord, hid, hpath⟩ :=
    hsound.returned call registration hcall hnone
  rw [hcanonical] at hcanonical'
  cases hcanonical'
  exact ⟨record, hrecord, hid ▸ hsound.keyed.get_eq hrecord, hid, hpath⟩

/-- The paths of a registry are told apart by their text, so that identifiers stand for files
just when every path is text. -/
theorem register_identifies_iff {s : Audit × Chronicle}
    (h : ReachableWhile (system sha256) (fun _ action => unforgotten action = true) s) :
    Identifies s ↔ ∀ call canonical artifact, Returned s call canonical artifact →
      (Utf8.textOf canonical).isSome := by
  have hkeyed := (sound_reachable h.reachable).keyed
  constructor
  · intro hclaim call canonical artifact hreturned
    obtain ⟨record, -, hget, -, hpath⟩ := returned_row h hreturned
    obtain ⟨record', hget', hpath'⟩ := hclaim.paths call canonical artifact hreturned
    rw [hget] at hget'
    cases hget'
    exact PathBuf.text_of_stored (hpath.symm.trans hpath')
  · intro htext
    have hstored : ∀ call canonical artifact, Returned s call canonical artifact →
        canonical.stored = canonical := by
      intro call canonical artifact hreturned
      obtain ⟨text, htext⟩ := Option.isSome_iff_exists.mp (htext call canonical artifact hreturned)
      exact PathBuf.stored_of_text htext
    constructor
    case ids =>
      intro call other canonical canonical' artifact artifact' hreturned hreturned'
      obtain ⟨record, hrecord, hget, hid, hpath⟩ := returned_row h hreturned
      obtain ⟨record', hrecord', hget', hid', hpath'⟩ := returned_row h hreturned'
      rw [hstored call canonical artifact hreturned] at hpath
      rw [hstored other canonical' artifact' hreturned'] at hpath'
      constructor
      · intro hsame
        have hrows := hkeyed.ids record hrecord record' hrecord' (by rw [hid, hsame, hid'])
        rw [← hpath, hrows, hpath']
      · intro hsame
        have hrows := hkeyed.paths record hrecord record' hrecord' (by rw [hpath, hsame, hpath'])
        rw [← hid, hrows, hid']
    case paths =>
      intro call canonical artifact hreturned
      obtain ⟨record, hrecord, hget, -, hpath⟩ := returned_row h hreturned
      exact ⟨record, hget, hpath.trans (hstored call canonical artifact hreturned)⟩

/-! ### Two registrations, one after the other -/

theorem step_parsed {canonical : PathBuf} {version : Version} {header : GgufHeader} {rest : Budgeted}
    (hpoint : audit.store.calls call = .parsing canonical version)
    (hparse : parse (Source.ofBytes version.bytes) = .ok header rest) :
    (system sha256).step (audit, chronicle) (.registry (.call call (.done none))) =
      some ({ audit with
        store := audit.store.set call (.observing canonical version header)
        ids := audit.store.ids ++ audit.ids }, chronicle) := by
  simp only [system, System.recording, Audit.step_observes hpoint hparse, Option.map_some, note, hpoint]
  rfl

theorem step_found {canonical : PathBuf} {record : Record}
    (hpoint : audit.store.calls call = .finding canonical)
    (hfind : audit.store.findByPath canonical = some record) :
    (system sha256).step (audit, chronicle) (.registry (.call call (.done none))) =
      some ({ audit with
        store := audit.store.set call (.registered (.ok (.alreadyRegistered record.artifact)))
        ids := audit.store.ids ++ audit.ids }, chronicle) := by
  simp only [system, System.recording, Audit.system, Audit.step, step, Call.next, queried, found,
    hfind, Option.map_some, note, hpoint]
  rfl

def containerVersion : Version := ⟨0, container, some 5⟩

/-- A registration of a path up to its query. -/
def finding (call : ℕ) (canonical : PathBuf) : List AuditAction :=
  [.registry (.call call (.register canonical)), .registry (.call call (.inspected (.ok false))),
    .registry (.call call (.canonicalized (.ok canonical)))]

def opening (call : ℕ) (canonical : PathBuf) : List AuditAction :=
  finding call canonical ++ [.registry (.call call (.done none)), .registry (.call call (.done none))]

/-- The end of a registration, from its fingerprint on. -/
def recording (call : ℕ) : List AuditAction :=
  [.registry (.call call (.done none)),
    .registry (.call call (.identified (.ok (List.replicate 16 0)) 0)),
    .registry (.call call (.done none))]

/-- The version at the path has been opened. -/
def openedAt (store : Store) (path : PathBuf) (version : Version) : Audit × Chronicle :=
  (⟨((((store.set 0 (.inspecting path)).set 0 (.canonicalizing path)).set 0 (.finding path)).set 0
      (.opening path)).set 0 (.parsing path version), fun _ => .idle, [], []⟩,
    { empty with canonicals := Function.update empty.canonicals 0 (some path) })

def observingAt (store : Store) (path : PathBuf) (version : Version) (header : GgufHeader) :
    Audit × Chronicle :=
  ({ (openedAt store path version).1 with
    store := (openedAt store path version).1.store.set 0 (.observing path version header)
    ids := (openedAt store path version).1.store.ids ++ (openedAt store path version).1.ids },
    (openedAt store path version).2)

/-- What the registration returns. -/
def registeredAt (path : PathBuf) (version : Version) (header : GgufHeader) : ModelArtifact :=
  newArtifact sampleId path header (.observe version) 0

theorem observing_opened {path : PathBuf} {version : Version} {header : GgufHeader}
    {rest : Budgeted} {ok : Audit × Chronicle → AuditAction → Bool}
    (hinit : (system sha256).init (⟨store, fun _ => .idle, [], []⟩, empty))
    (hopening : (system sha256).runWhile ok (⟨store, fun _ => .idle, [], []⟩, empty)
      (opening 0 path) = some (openedAt store path version))
    (hok : ok (openedAt store path version) (.registry (.call 0 (.done none))) = true)
    (hparse : parse (Source.ofBytes version.bytes) = .ok header rest) :
    ReachableWhile (system sha256) (fun s action => ok s action = true)
      (observingAt store path version header) := by
  have hopened := reachableWhile_of_run (fun _ _ h => h) (.init hinit) hopening
  have hpoint : (openedAt store path version).1.store.calls 0 = .parsing path version :=
    calls_set_self ..
  exact hopened.step hok (step_parsed hpoint hparse)

theorem findByPath_single {artifact : ModelArtifact} {version : Version} {path : PathBuf}
    (hrecords : store.records = [⟨artifact.stored, version⟩])
    (hstored : artifact.path.stored = path.stored) :
    store.findByPath path = some ⟨artifact.stored, version⟩ := by
  have hrow : artifact.stored.path = path.stored := hstored
  simp [Store.findByPath, hrecords, hrow]

/-- A second registration, of a path with the same text. -/
theorem both_returned {first second : PathBuf} {s : Audit × Chronicle} {artifact : ModelArtifact}
    {version : Version}
    (hs : ReachableWhile (system sha256) (fun _ action => unforgotten action = true) s)
    (hcanonical : s.2.canonicals 0 = some first) (hcanonical' : s.2.canonicals 1 = some second)
    (hfirst : s.1.store.calls 0 = .registered (.ok (.registered artifact)))
    (hsecond : s.1.store.calls 1 = .finding second)
    (hrecords : s.1.store.records = [⟨artifact.stored, version⟩]) (hpath : artifact.path = first)
    (hstored : first.stored = second.stored) :
    ∃ s, ReachableWhile (system sha256) (fun _ action => unforgotten action = true) s ∧
      Returned s 0 first artifact ∧ Returned s 1 second artifact.stored := by
  obtain ⟨audit, chronicle⟩ := s
  have hfind : audit.store.findByPath second = some ⟨artifact.stored, version⟩ :=
    findByPath_single hrecords (by rw [hpath, hstored])
  have hkept (point : Call) : (audit.store.set 1 point).calls 0 = audit.store.calls 0 :=
    (calls_set ..).trans (if_neg (by decide))
  exact ⟨_, hs.step rfl (step_found hsecond hfind), ⟨hcanonical, _, (hkept _).trans hfirst, rfl⟩,
    hcanonical', _, calls_set_self .., rfl⟩

theorem register_identifies_untouched : ∃ s,
    ReachableWhile (system Audit.sampleSha256) (fun _ action => unforgotten action = true) s ∧
    (∃ artifact existing, Returned s 0 model artifact ∧ Returned s 1 model existing) ∧
    (Identifies s ↔ ∀ call canonical artifact, Returned s call canonical artifact →
      (Utf8.textOf canonical).isSome) := by
  obtain ⟨header, rest, hparse⟩ := container_parses
  have hobserving : ReachableWhile (system Audit.sampleSha256)
      (fun _ action => unforgotten action = true)
      (observingAt untouched model containerVersion header) :=
    observing_opened ⟨Audit.untouchedAudit_init, rfl⟩ rfl rfl hparse
  obtain ⟨s, hrun, hcanonical, hcanonical', hfirst, hsecond, hrecords⟩ : ∃ s,
      (system Audit.sampleSha256).runWhile (fun _ => unforgotten)
        (observingAt untouched model containerVersion header) (recording 0 ++ finding 1 model) =
          some s ∧
      s.2.canonicals 0 = some model ∧ s.2.canonicals 1 = some model ∧
      s.1.store.calls 0 = .registered (.ok (.registered (registeredAt model containerVersion header))) ∧
      s.1.store.calls 1 = .finding model ∧
      s.1.store.records = [⟨(registeredAt model containerVersion header).stored, containerVersion⟩] :=
    ⟨_, rfl, rfl, rfl, rfl, rfl, rfl⟩
  obtain ⟨s, hs, hreturned, hreturned'⟩ := both_returned
    (reachableWhile_of_run (fun _ _ h => h) hobserving hrun) hcanonical hcanonical' hfirst hsecond
    hrecords rfl rfl
  exact ⟨s, hs, ⟨_, _, hreturned, hreturned'⟩, register_identifies_iff hs⟩

/-- Two names that are not text, each with a container. -/
def garbled : PathBuf := [0x2f, 0xff]

def otherGarbled : PathBuf := [0x2f, 0xfe]

def garbledFiles : Store where
  files path := if path = garbled ∨ path = otherGarbled then some containerVersion else none
  serials := 1
  records := []
  calls _ := .idle

theorem garbled_init : (system sha256).init (⟨garbledFiles, fun _ => .idle, [], []⟩, empty) := by
  refine ⟨⟨⟨rfl, fun _ => rfl, ?_⟩, fun _ => rfl, rfl, rfl⟩, rfl⟩
  intro path version h
  simp only [garbledFiles, Option.ite_none_right_eq_some, Option.some.injEq] at h
  obtain ⟨-, rfl⟩ := h
  exact Nat.zero_lt_one

/-- Both names become `/\uFFFD`: the second file is taken for the first. -/
theorem register_identifies_garbled :
    ¬ ∀ sha256 s, ReachableWhile (system sha256) (fun _ action => unforgotten action = true) s →
      Identifies s := by
  intro hclaim
  obtain ⟨header, rest, hparse⟩ := container_parses
  have hobserving : ReachableWhile (system Audit.sampleSha256)
      (fun _ action => unforgotten action = true)
      (observingAt garbledFiles garbled containerVersion header) :=
    observing_opened garbled_init rfl rfl hparse
  obtain ⟨s, hrun, hcanonical, hcanonical', hfirst, hsecond, hrecords⟩ : ∃ s,
      (system Audit.sampleSha256).runWhile (fun _ => unforgotten)
        (observingAt garbledFiles garbled containerVersion header)
        (recording 0 ++ finding 1 otherGarbled) = some s ∧
      s.2.canonicals 0 = some garbled ∧ s.2.canonicals 1 = some otherGarbled ∧
      s.1.store.calls 0 = .registered (.ok (.registered (registeredAt garbled containerVersion header))) ∧
      s.1.store.calls 1 = .finding otherGarbled ∧
      s.1.store.records = [⟨(registeredAt garbled containerVersion header).stored, containerVersion⟩] :=
    ⟨_, rfl, rfl, rfl, rfl, rfl, rfl⟩
  have hstored : garbled.stored = otherGarbled.stored := by decide
  obtain ⟨s, hs, hreturned, hreturned'⟩ := both_returned
    (reachableWhile_of_run (fun _ _ h => h) hobserving hrun) hcanonical hcanonical' hfirst hsecond
    hrecords rfl hstored
  have hids := (hclaim _ s hs).ids 0 1 garbled otherGarbled _ _ hreturned hreturned'
  exact absurd (hids.mp rfl) (by decide)

end Chronicle
end MehoyRuntime.Registry
