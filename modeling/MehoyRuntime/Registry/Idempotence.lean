import MehoyRuntime.Registry.Provenance

/-!
# Registrations of one path

Any number of connections register one path at a time. The query and the insertion are one
step each, with the inspection of the file between them.
-/

namespace MehoyRuntime.Registry
open TransitionSystem Filesystem

/-- The canonical path that a registration is about, once it is known. -/
def Call.target : Call → Option PathBuf
  | .finding canonical | .opening canonical | .parsing canonical _ | .observing canonical _ _
  | .identifying canonical _ _ _ => some canonical
  | .inserting artifact _ => some artifact.path
  | _ => none

def Store.rows (store : Store) (path : PathBuf) : List Record :=
  store.records.filter fun record => record.artifact.path = path.stored

section Group
variable (path : PathBuf) (group : ℕ → Bool)

/-- A registration of the path that nothing but another registration can fail: the path leads
to a file whose header parses, the storage and the system answer, and no identifier is drawn
twice. -/
def healthyAnswer (store : Store) : Call → Answer → Bool
  | _, .register _ | _, .load _ => true
  | _, .inspected (.ok false) => true
  | _, .inspected _ => false
  | _, .canonicalized (.ok canonical) => canonical = path
  | _, .canonicalized (.error _) => false
  | _, .identified (.ok _) _ => true
  | _, .identified (.error _) _ => false
  | _, .done (some _) => false
  | .opening canonical, .done none | .observing canonical _ _, .done none =>
    (store.files canonical).isSome
  | .parsing _ version, .done none =>
    match parse (Source.ofBytes version.bytes) with
    | .ok _ _ => true
    | .error _ _ => false
  | .inserting artifact _, .done none => (store.get artifact.id).isNone
  | _, .done none => true

/-- The calls of the group are registrations of the path, and nothing else touches its row:
other calls are about other paths, and it is not forgotten. -/
def healthy (store : Store) : Action → Bool
  | .call call answer =>
    if group call then healthyAnswer path store (store.calls call) answer
    else
      match answer with
      | .canonicalized (.ok canonical) => canonical.stored ≠ path.stored
      | _ => true
  | .forget id => (store.rows path).all fun record => record.artifact.id ≠ id
  | .replace _ _ _ | .remove _ => true

/-- No other call has inserted the path between a call's query and its insertion. -/
def uncontended (store : Store) : Action → Bool
  | .call call (.done _) =>
    match store.calls call with
    | .inserting artifact _ => !group call || (store.findByPath artifact.path).isNone
    | _ => true
  | _ => true

/-- One call has registered the path; it has one row, and every other call that has returned
says so. -/
def Wins (store : Store) (first : ℕ) : Prop :=
  group first = true ∧ ∃ artifact, store.calls first = .registered (.ok (.registered artifact)) ∧
    (∃ record, store.rows path = [record] ∧ record.artifact.id = artifact.id) ∧
    ∀ call result, group call = true → call ≠ first → store.calls call = .registered result →
      ∃ existing, result = .ok (.alreadyRegistered existing) ∧ existing.id = artifact.id

def Idempotent (store : Store) : Prop :=
  ∀ call result, group call = true → store.calls call = .registered result →
    ∃ first, Wins path group store first

end Group

variable {path : PathBuf} {group : ℕ → Bool} {store store' : Store} {call : ℕ}
  {point point' : Call} {answer : Answer}

/-! ### One step of a call -/

/-- How many steps a call still takes at most. -/
def Call.remaining : Call → ℕ
  | .idle => 9
  | .inspecting _ => 8
  | .canonicalizing _ => 7
  | .finding _ => 6
  | .opening _ => 5
  | .parsing _ _ => 4
  | .observing _ _ _ => 3
  | .identifying _ _ _ _ | .getting _ => 2
  | .inserting _ _ | .checking _ _ => 1
  | .registered _ | .proceeding _ _ | .refused _ => 0

theorem resolved_remaining (id : String) (record : Record) (current : Except Fault Version) :
    (resolved id record current).remaining = 0 := by
  cases current with
  | error fault => rfl
  | ok version =>
    cases hdrift : detectDrift record.artifact (.ok (.observe version)) with
    | unchanged | missing | changed =>
      simp only [resolved, Except.map, hdrift, Runtime.resolve, Call.remaining]

theorem next_remaining (h : point.next store answer = some point') :
    point'.remaining < point.remaining := by
  unfold Call.next at h
  split at h
  case h_1 | h_2 => cases h; simp [Call.remaining]
  case h_3 =>
    cases h
    unfold inspected
    split <;> simp [Call.remaining]
  case h_4 =>
    cases h
    unfold canonicalized
    split <;> simp [Call.remaining]
  case h_5 =>
    cases h
    unfold found
    split <;> simp [Call.remaining]
  case h_6 =>
    cases h
    unfold opened
    split <;> simp [Call.remaining]
  case h_7 =>
    cases h
    unfold parsed
    split
    · simp [Call.remaining]
    · split <;> simp [Call.remaining]
  case h_8 =>
    cases h
    unfold observed
    split <;> simp [Call.remaining]
  case h_9 =>
    cases h
    unfold identified
    split <;> simp [Call.remaining]
  case h_10 =>
    cases h
    unfold gotten
    split <;> simp [Call.remaining]
  case h_11 =>
    cases h
    rw [resolved_remaining]
    exact Nat.one_pos
  case h_12 => cases h

/-- A registration on its way to a row; whatever else a call does, it has no path to find and
no artifact to return. -/
inductive Moves (store : Store) : Call → Answer → Call → Prop
  | inspecting (path : PathBuf) : Moves store .idle (.register path) (.inspecting path)
  | canonicalizing (path : PathBuf) :
      Moves store (.inspecting path) (.inspected (.ok false)) (.canonicalizing path)
  | finding (path canonical : PathBuf) :
      Moves store (.canonicalizing path) (.canonicalized (.ok canonical)) (.finding canonical)
  | found (canonical : PathBuf) (record : Record) : store.findByPath canonical = some record →
      Moves store (.finding canonical) (.done none)
        (.registered (.ok (.alreadyRegistered record.artifact)))
  | opening (canonical : PathBuf) : store.findByPath canonical = none →
      Moves store (.finding canonical) (.done none) (.opening canonical)
  | parsing (canonical : PathBuf) (version : Version) : store.files canonical = some version →
      Moves store (.opening canonical) (.done none) (.parsing canonical version)
  | observing (canonical : PathBuf) (version : Version) (header : GgufHeader) (rest : Budgeted) :
      parse (Source.ofBytes version.bytes) = .ok header rest →
      Moves store (.parsing canonical version) (.done none) (.observing canonical version header)
  | identifying (canonical : PathBuf) (version current : Version) (header : GgufHeader) :
      store.files canonical = some current →
      Moves store (.observing canonical version header) (.done none)
        (.identifying canonical version header (.observe current))
  | inserting (canonical : PathBuf) (version : Version) (header : GgufHeader)
      (fingerprint : ArtifactFingerprint) (bytes : List UInt8) (now : ℤ) :
      Moves store (.identifying canonical version header fingerprint) (.identified (.ok bytes) now)
        (.inserting (newArtifact (generateId bytes) canonical header fingerprint now) version)
  | other (point : Call) (answer : Answer) (point' : Call) : point'.target = none →
      (∀ registration, point' ≠ .registered (.ok registration)) → Moves store point answer point'

theorem Moves.failed (point : Call) (answer : Answer) (err : RegistryError) :
    Moves store point answer (.registered (.error err)) := by
  refine .other point answer _ rfl fun registration h => ?_
  cases h

theorem gotten_moves (point : Call) (answer : Answer) (id : String)
    (record : Except String (Option Record)) : Moves store point answer (gotten id record) := by
  refine .other point answer _ ?_ fun registration h => ?_
  · unfold gotten
    split <;> rfl
  · unfold gotten at h
    split at h <;> cases h

theorem resolved_moves (point : Call) (answer : Answer) (id : String) (record : Record)
    (current : Except Fault Version) : Moves store point answer (resolved id record current) := by
  refine .other point answer _ ?_ fun registration h => ?_
  · unfold resolved
    split <;> rfl
  · unfold resolved at h
    split at h <;> cases h

theorem inspected_moves (path : PathBuf) (isDir : Except Fault Bool) :
    Moves store (.inspecting path) (.inspected isDir) (inspected path isDir) := by
  unfold inspected
  split
  · exact .failed ..
  · exact .failed ..
  · exact .failed ..
  · exact .canonicalizing path

theorem found_moves (canonical : PathBuf) (failure : Option String) :
    Moves store (.finding canonical) (.done failure)
      (found canonical (queried (store.findByPath canonical) failure)) := by
  cases failure with
  | some err => exact .failed ..
  | none =>
    cases hfind : store.findByPath canonical with
    | none => exact .opening canonical hfind
    | some record => exact .found canonical record hfind

theorem opened_moves (canonical : PathBuf) (failure : Option String) :
    Moves store (.opening canonical) (.done failure)
      (opened canonical (attempt (store.current canonical) failure)) := by
  cases hopen : attempt (store.current canonical) failure with
  | error fault => exact .failed ..
  | ok version =>
    obtain ⟨rfl, hfile⟩ := current_ok hopen
    exact .parsing canonical version hfile

theorem parsed_moves (canonical : PathBuf) (version : Version) (failure : Option String) :
    Moves store (.parsing canonical version) (.done failure) (parsed canonical version failure) := by
  cases failure with
  | some err => exact .failed ..
  | none =>
    simp only [parsed]
    cases hparse : parse (Source.ofBytes version.bytes) with
    | error err rest => exact .failed ..
    | ok header rest => exact .observing canonical version header rest hparse

theorem observed_moves (canonical : PathBuf) (version : Version) (header : GgufHeader)
    (failure : Option String) :
    Moves store (.observing canonical version header) (.done failure)
      (observed canonical version header (attempt (store.current canonical) failure)) := by
  cases hobserve : attempt (store.current canonical) failure with
  | error fault => exact .failed ..
  | ok current =>
    obtain ⟨rfl, hfile⟩ := current_ok hobserve
    exact .identifying canonical version current header hfile

theorem next_moves (h : point.next store answer = some point') : Moves store point answer point' := by
  unfold Call.next at h
  split at h
  case h_1 => cases h; exact .inspecting _
  case h_2 =>
    cases h
    refine .other _ _ _ rfl fun registration h => ?_
    cases h
  case h_3 => cases h; exact inspected_moves ..
  case h_4 path canonical =>
    cases h
    cases canonical with
    | error fault => exact .failed ..
    | ok canonical => exact .finding path canonical
  case h_5 => cases h; exact found_moves ..
  case h_6 => cases h; exact opened_moves ..
  case h_7 => cases h; exact parsed_moves ..
  case h_8 => cases h; exact observed_moves ..
  case h_9 canonical version header fingerprint bytes now =>
    cases h
    cases bytes with
    | error fault => exact .failed ..
    | ok bytes => exact .inserting canonical version header fingerprint bytes now
  case h_10 => cases h; exact gotten_moves ..
  case h_11 => cases h; exact resolved_moves ..
  case h_12 => cases h

theorem next_target {canonical : PathBuf} (h : point.next store answer = some point')
    (htarget : point'.target = some canonical) :
    point.target = some canonical ∨ answer = .canonicalized (.ok canonical) := by
  cases next_moves h with
  | finding path canonical =>
    cases htarget
    exact .inr rfl
  | opening | parsing | observing | identifying | inserting => exact .inl htarget
  | inspecting | canonicalizing | found => cases htarget
  | other _ _ _ hnone =>
    rw [hnone] at htarget
    cases htarget

/-- A healthy registration that returns before its insertion has found the row. -/
theorem next_returned {result : Except RegistryError Registration}
    (h : point.next store answer = some (.registered result))
    (hok : healthyAnswer path store point answer = true) :
    ∃ canonical record, point = .finding canonical ∧ store.findByPath canonical = some record ∧
      result = .ok (.alreadyRegistered record.artifact) := by
  unfold Call.next at h
  split at h
  case h_1 | h_2 => cases h
  case h_3 isDir =>
    cases isDir with
    | error fault => cases hok
    | ok isDir =>
      cases isDir with
      | false => cases h
      | true => cases hok
  case h_4 canonical =>
    cases canonical with
    | error fault => cases hok
    | ok canonical => cases h
  case h_5 canonical failure =>
    cases failure with
    | some err => cases hok
    | none =>
      cases hfind : store.findByPath canonical with
      | none => simp [queried, hfind, found] at h
      | some record =>
        simp only [queried, hfind, found, Option.some.injEq, Call.registered.injEq] at h
        exact ⟨canonical, record, rfl, hfind, h.symm⟩
  case h_6 canonical failure =>
    cases failure with
    | some err => cases hok
    | none =>
      obtain ⟨version, hversion⟩ := Option.isSome_iff_exists.mp hok
      simp [attempt, Store.current, hversion, opened] at h
  case h_7 canonical version failure =>
    cases failure with
    | some err => cases hok
    | none =>
      cases hparse : parse (Source.ofBytes version.bytes) with
      | ok header s => simp [parsed, hparse] at h
      | error err s => simp [healthyAnswer, hparse] at hok
  case h_8 canonical version header failure =>
    cases failure with
    | some err => cases hok
    | none =>
      obtain ⟨current, hcurrent⟩ := Option.isSome_iff_exists.mp hok
      simp [attempt, Store.current, hcurrent, observed] at h
  case h_9 bytes now =>
    cases bytes with
    | error fault => cases hok
    | ok bytes => cases h
  case h_10 failure =>
    cases failure with
    | some err => cases hok
    | none =>
      simp only [Option.some.injEq] at h
      unfold gotten at h
      split at h <;> cases h
  case h_11 failure =>
    simp only [Option.some.injEq] at h
    unfold resolved at h
    split at h <;> cases h
  case h_12 => cases h

theorem findByPath_mem {record : Record} (h : store.findByPath path = some record) :
    record ∈ store.rows path := by
  refine List.mem_filter.mpr ⟨List.mem_of_find?_eq_some h, ?_⟩
  simpa using List.find?_some h

theorem findByPath_none : store.findByPath path = none ↔ store.rows path = [] := by
  rw [Store.findByPath, Store.rows, List.find?_eq_none, List.filter_eq_nil_iff]

/-! ### Every call of the group -/

/-- The calls of the group are about the path and the others are not, and either the path has
no row and no call of the group has returned, or one has registered it. -/
structure Agreed (path : PathBuf) (group : ℕ → Bool) (store : Store) : Prop where
  mine : ∀ call canonical, group call = true → (store.calls call).target = some canonical →
    canonical = path
  others : ∀ call canonical, group call = false → (store.calls call).target = some canonical →
    canonical.stored ≠ path.stored
  outcome : (store.rows path = [] ∧
      ∀ call result, group call = true → store.calls call ≠ .registered result) ∨
    ∃ first, Wins path group store first

theorem Agreed.idempotent (h : Agreed path group store) : Idempotent path group store := by
  intro call result hgroup hcall
  rcases h.outcome with ⟨-, hnone⟩ | hwins
  · exact absurd hcall (hnone call result hgroup)
  · exact hwins

theorem agreed_init (h : system.init store) : Agreed path group store := by
  obtain ⟨hrecords, hcalls, -⟩ := h
  refine ⟨?_, ?_, .inl ⟨by simp [Store.rows, hrecords], ?_⟩⟩
  · intro call canonical _ htarget
    rw [hcalls] at htarget
    cases htarget
  · intro call canonical _ htarget
    rw [hcalls] at htarget
    cases htarget
  · intro call result _ hcall
    rw [hcalls] at hcall
    cases hcall

/-- Changes of the files, and of rows that are not the path's, are nothing to the group. -/
theorem Agreed.frame (h : Agreed path group store) (hcalls : store'.calls = store.calls)
    (hrows : store'.rows path = store.rows path) : Agreed path group store' := by
  refine ⟨?_, ?_, ?_⟩
  · rw [hcalls]
    exact h.mine
  · rw [hcalls]
    exact h.others
  · unfold Wins
    rw [hcalls, hrows]
    exact h.outcome

/-- A call that goes on to a point of its own; one of the group that returns has found the row. -/
theorem Agreed.set (h : Agreed path group store)
    (hactive : ∀ result, store.calls call ≠ .registered result)
    (hmine : group call = true → ∀ canonical, point.target = some canonical → canonical = path)
    (hothers : group call = false → ∀ canonical, point.target = some canonical →
      canonical.stored ≠ path.stored)
    (hfound : group call = true → ∀ result, point = .registered result →
      ∃ record ∈ store.rows path, result = .ok (.alreadyRegistered record.artifact)) :
    Agreed path group (store.set call point) where
  mine := by
    intro other canonical hgroup htarget
    rw [calls_set] at htarget
    split at htarget
    · subst_vars
      exact hmine hgroup canonical htarget
    · exact h.mine other canonical hgroup htarget
  others := by
    intro other canonical hgroup htarget
    rw [calls_set] at htarget
    split at htarget
    · subst_vars
      exact hothers hgroup canonical htarget
    · exact h.others other canonical hgroup htarget
  outcome := by
    rcases h.outcome with
      ⟨hrows, hnone⟩ | ⟨first, hfirst, artifact, hwon, ⟨record, hrows, hid⟩, hrest⟩
    · refine .inl ⟨hrows, fun other result hgroup hother => ?_⟩
      rw [calls_set] at hother
      split at hother
      · subst_vars
        obtain ⟨record, hrecord, -⟩ := hfound hgroup result rfl
        rw [hrows] at hrecord
        cases hrecord
      · exact hnone other result hgroup hother
    · have hne : first ≠ call := by
        rintro rfl
        exact hactive _ hwon
      refine .inr ⟨first, hfirst, artifact, ?_, ⟨record, hrows, hid⟩,
        fun other result hgroup hother hcall => ?_⟩
      · rw [calls_set, if_neg hne, hwon]
      · rw [calls_set] at hcall
        split at hcall
        · subst_vars
          obtain ⟨existing, hexisting, rfl⟩ := hfound hgroup result rfl
          rw [hrows, List.mem_singleton] at hexisting
          exact ⟨existing.artifact, rfl, hexisting ▸ hid⟩
        · exact hrest other result hgroup hother hcall

theorem agreed_next (h : Agreed path group store)
    (hok : healthy path group store (.call call answer) = true)
    (hnext : (store.calls call).next store answer = some point) :
    Agreed path group (store.set call point) := by
  refine h.set ?_ ?_ ?_ ?_
  · intro result hcall
    rw [hcall] at hnext
    cases hnext
  · intro hgroup canonical htarget
    simp only [healthy, hgroup, if_true] at hok
    rcases next_target hnext htarget with hbefore | rfl
    · exact h.mine call canonical hgroup hbefore
    · simpa [healthyAnswer] using hok
  · intro hgroup canonical htarget
    simp only [healthy, hgroup, Bool.false_eq_true, if_false] at hok
    rcases next_target hnext htarget with hbefore | rfl
    · exact h.others call canonical hgroup hbefore
    · simpa using hok
  · rintro hgroup result rfl
    simp only [healthy, hgroup, if_true] at hok
    obtain ⟨canonical, record, hpoint, hfind, rfl⟩ := next_returned hnext hok
    have hpath : canonical = path := h.mine call canonical hgroup (by rw [hpoint]; rfl)
    exact ⟨record, findByPath_mem (hpath ▸ hfind), rfl⟩

theorem rows_cons (store : Store) (path : PathBuf) (artifact : ModelArtifact) (version : Version) :
    { store with records := ⟨artifact.stored, version⟩ :: store.records }.rows path =
      if artifact.path.stored = path.stored then ⟨artifact.stored, version⟩ :: store.rows path
      else store.rows path := by
  simp only [Store.rows, List.filter_cons, decide_eq_true_eq]
  rfl

theorem agreed_wins {artifact : ModelArtifact} {version : Version} (h : Agreed path group store)
    (hpoint : store.calls call = .inserting artifact version) (hgroup : group call = true)
    (hfree : store.findByPath artifact.path = none) :
    Agreed path group
      ({ store with records := ⟨artifact.stored, version⟩ :: store.records }.set call
        (.registered (.ok (.registered artifact)))) := by
  have hpath : artifact.path = path := h.mine call artifact.path hgroup (by rw [hpoint]; rfl)
  have hrows : store.rows path = [] := findByPath_none.mp (hpath ▸ hfree)
  have hnone : ∀ other result, group other = true → store.calls other ≠ .registered result := by
    rcases h.outcome with ⟨-, hnone⟩ | ⟨first, -, artifact, -, ⟨record, hrecord, -⟩, -⟩
    · exact hnone
    · rw [hrows] at hrecord
      cases hrecord
  refine ⟨?_, ?_, .inr ⟨call, hgroup, artifact, calls_set_self ..,
    ⟨⟨artifact.stored, version⟩, ?_, rfl⟩, ?_⟩⟩
  · intro other canonical hother htarget
    rw [calls_set] at htarget
    split at htarget
    · cases htarget
    · exact h.mine other canonical hother htarget
  · intro other canonical hother htarget
    rw [calls_set] at htarget
    split at htarget
    · cases htarget
    · exact h.others other canonical hother htarget
  · show { store with records := ⟨artifact.stored, version⟩ :: store.records }.rows path = _
    rw [rows_cons, if_pos (by rw [hpath]), hrows]
  · intro other result hother hne hcall
    rw [calls_set, if_neg hne] at hcall
    exact absurd hcall (hnone other result hother)

theorem agreed_inserted {artifact : ModelArtifact} {version : Version} {failure : Option String}
    (h : Agreed path group store) (hpoint : store.calls call = .inserting artifact version)
    (hok : healthy path group store (.call call (.done failure)) = true)
    (hfree : uncontended group store (.call call (.done failure)) = true) :
    Agreed path group (store.inserted call artifact version failure) := by
  have hactive : ∀ result, store.calls call ≠ .registered result := by
    intro result hcall
    rw [hpoint] at hcall
    cases hcall
  cases hgroup : group call with
  | true =>
    rcases inserted_cases store call artifact version failure with ⟨hfails, -⟩ | ⟨-, hnew, heq⟩
    · exfalso
      simp only [healthy, hgroup, if_true, hpoint] at hok
      simp only [uncontended, hpoint, hgroup, Bool.not_true, Bool.false_or] at hfree
      cases failure with
      | some err => cases hok
      | none =>
        have hid : store.get artifact.id = none := Option.isNone_iff_eq_none.mp hok
        have hpath : store.findByPath artifact.path = none := Option.isNone_iff_eq_none.mp hfree
        simp [hid, hpath] at hfails
    · rw [heq]
      exact agreed_wins h hpoint hgroup hnew
  | false =>
    have hother := h.others call artifact.path hgroup (by rw [hpoint]; rfl)
    have hno : group call = true → False := fun htrue => by
      rw [hgroup] at htrue
      cases htrue
    rcases inserted_cases store call artifact version failure with ⟨-, err, heq⟩ | ⟨-, -, heq⟩
    · rw [heq]
      exact h.set hactive (fun hmine => (hno hmine).elim) (fun _ _ htarget => by cases htarget)
        fun hmine => (hno hmine).elim
    · rw [heq]
      have hrows := rows_cons store path artifact version
      rw [if_neg hother] at hrows
      have hgrown : Agreed path group
          { store with records := ⟨artifact.stored, version⟩ :: store.records } := h.frame rfl hrows
      exact hgrown.set hactive (fun hmine => (hno hmine).elim) (fun _ _ htarget => by cases htarget)
        fun hmine => (hno hmine).elim

theorem agreed_step {action : Action} (h : Agreed path group store)
    (hok : healthy path group store action = true) (hfree : uncontended group store action = true)
    (hstep : step store action = some store') : Agreed path group store' := by
  cases action with
  | call call answer =>
    simp only [step] at hstep
    split at hstep
    · rename_i hpoint
      cases hstep
      exact agreed_inserted h hpoint hok hfree
    · obtain ⟨point, hnext, rfl⟩ := Option.map_eq_some_iff.mp hstep
      exact agreed_next h hok hnext
  | forget id =>
    cases hstep
    refine h.frame rfl ?_
    simp only [Store.rows, List.filter_filter]
    refine List.filter_congr fun record hrecord => ?_
    by_cases hpath : record.artifact.path = path.stored
    · have hrow : record ∈ store.rows path := List.mem_filter.mpr ⟨hrecord, by simpa using hpath⟩
      have hkept := List.all_eq_true.mp hok record hrow
      rw [hkept, Bool.and_true]
    · simp [hpath]
  | replace path bytes modified =>
    simp only [step] at hstep
    split at hstep <;> cases hstep
    exact h.frame rfl rfl
  | remove path =>
    cases hstep
    exact h.frame rfl rfl

/-- An insertion of the group that comes after another returns an error. -/
theorem not_idempotent_of_contended {action : Action} (hstep : step store action = some store')
    (hcontended : uncontended group store action = false) : ¬ Idempotent path group store' := by
  unfold uncontended at hcontended
  split at hcontended
  · rename_i call failure
    split at hcontended
    · rename_i artifact version hpoint
      simp only [Bool.or_eq_false_iff, Bool.not_eq_false', Option.isNone_eq_false_iff] at hcontended
      obtain ⟨hgroup, hrow⟩ := hcontended
      simp only [step, hpoint] at hstep
      cases hstep
      intro hclaim
      rcases inserted_cases store call artifact version failure with ⟨-, err, heq⟩ | ⟨-, hfree, -⟩
      · rw [heq] at hclaim
        have hself := calls_set_self store call (.registered (.error (.storage err)))
        obtain ⟨first, -, winner, hwon, -, hrest⟩ := hclaim call _ hgroup hself
        by_cases hfirst : call = first
        · subst hfirst
          rw [hself] at hwon
          cases hwon
        · obtain ⟨existing, hexisting, -⟩ := hrest call _ hgroup hfirst hself
          cases hexisting
      · rw [hfree] at hrow
        cases hrow
    · cases hcontended
  · cases hcontended

theorem call_remaining (hstep : step store (.call call answer) = some store') :
    (store'.calls call).remaining < (store.calls call).remaining := by
  simp only [step] at hstep
  split at hstep
  · rename_i artifact version failure hpoint
    cases hstep
    rw [hpoint]
    rcases inserted_cases store call artifact version failure with ⟨-, err, heq⟩ | ⟨-, -, heq⟩
    · rw [heq, calls_set_self]
      exact Nat.one_pos
    · rw [heq, calls_set_self]
      exact Nat.one_pos
  · obtain ⟨point, hnext, rfl⟩ := Option.map_eq_some_iff.mp hstep
    rw [calls_set_self]
    exact next_remaining hnext

/-- The registrations of one path agree on one identifier and one row, which one of them has
made, as long as none of them inserts between the query and the insertion of another; the
first step at which one does is where they cease to. Each step of a call brings it closer
to its return. -/
theorem register_idempotent
    (h : ReachableWhile system (fun store action =>
      healthy path group store action = true ∧ uncontended group store action = true) store) :
    Idempotent path group store ∧
      (∀ action store', healthy path group store action = true → step store action = some store' →
        (Idempotent path group store' ↔ uncontended group store action = true)) ∧
      ∀ call answer store', step store (.call call answer) = some store' →
        (store'.calls call).remaining < (store.calls call).remaining := by
  have hagreed : Agreed path group store := h.invariant (I := Agreed path group) (fun _ => agreed_init)
    fun _ _ _ _ h hok hstep => agreed_step h hok.1 hok.2 hstep
  refine ⟨hagreed.idempotent, fun action store' hok hstep => ⟨fun hclaim => ?_, fun hfree => ?_⟩, ?_⟩
  · by_contra hcontended
    exact not_idempotent_of_contended hstep (Bool.eq_false_iff.mpr hcontended) hclaim
  · exact (agreed_step hagreed hok hfree hstep).idempotent
  · exact fun call answer store' hstep => call_remaining hstep

/-! ### Two registrations of one container -/

theorem step_parsing (path : PathBuf) (group : ℕ → Bool) {canonical : PathBuf} {version : Version}
    {header : GgufHeader} {s : Budgeted}
    (hpoint : store.calls call = .parsing canonical version)
    (hparse : parse (Source.ofBytes version.bytes) = .ok header s) :
    healthy path group store (.call call (.done none)) = true ∧
      uncontended group store (.call call (.done none)) = true ∧
      step store (.call call (.done none)) = some (store.set call (.observing canonical version header)) := by
  refine ⟨?_, ?_, ?_⟩
  · simp [healthy, healthyAnswer, hpoint, hparse]
  · simp only [uncontended, hpoint]
  · exact step_parses hpoint hparse

theorem findByPath_recordOf {header : GgufHeader} {version : Version}
    (hrecords : store.records = [recordOf header version]) :
    store.findByPath model = some (recordOf header version) := by
  have hstored : model.stored = model := PathBuf.stored_of_text (Utf8.textOf_bytesOf "/m")
  simp [Store.findByPath, hrecords, recordOf_path, hstored]

theorem step_finding (path : PathBuf) (group : ℕ → Bool) {canonical : PathBuf} {record : Record}
    (hpoint : store.calls call = .finding canonical)
    (hfind : store.findByPath canonical = some record) :
    healthy path group store (.call call (.done none)) = true ∧
      uncontended group store (.call call (.done none)) = true ∧
      step store (.call call (.done none)) =
        some (store.set call (.registered (.ok (.alreadyRegistered record.artifact)))) := by
  refine ⟨?_, ?_, ?_⟩
  · simp [healthy, healthyAnswer, hpoint]
  · simp only [uncontended, hpoint]
  · simp only [step, hpoint, Call.next, hfind, queried, found, Option.map_some]

def everyCall : ℕ → Bool := fun _ => true

def mayProceed (store : Store) (action : Action) : Bool :=
  healthy model everyCall store action && uncontended everyCall store action

/-- One after the other. -/
theorem register_idempotent_sequential : ∃ store,
    ReachableWhile system (fun store action =>
      healthy model everyCall store action = true ∧ uncontended everyCall store action = true) store ∧
    (∃ artifact existing, store.calls 0 = .registered (.ok (.registered artifact)) ∧
      store.calls 1 = .registered (.ok (.alreadyRegistered existing))) ∧
    Idempotent model everyCall store := by
  have hproceed (store : Store) (action : Action) (h : mayProceed store action = true) :
      healthy model everyCall store action = true ∧ uncontended everyCall store action = true := by
    simpa [mayProceed] using h
  obtain ⟨header, s, hparse⟩ := container_parses
  have hinspected : system.runWhile mayProceed untouched
      (querying 0 ++ [.call 0 (.done none), .call 0 (.done none)]) = some atParsing := rfl
  have hparsing := reachableWhile_of_run hproceed (.init untouched_init) hinspected
  obtain ⟨hhealthy, hfree, hstep⟩ := step_parsing model everyCall
    (show atParsing.calls 0 = .parsing model ⟨0, container, some 5⟩ from rfl) hparse
  have hobserving := hparsing.step ⟨hhealthy, hfree⟩ hstep
  obtain ⟨store, hrun, hwon, hpoint, hrecords⟩ : ∃ store,
      system.runWhile mayProceed (atParsing.set 0 (.observing model ⟨0, container, some 5⟩ header))
        ([.call 0 (.done none), .call 0 (.identified (.ok (List.replicate 16 0)) 0),
          .call 0 (.done none)] ++ querying 1) = some store ∧
      (∃ artifact, store.calls 0 = .registered (.ok (.registered artifact))) ∧
      store.calls 1 = .finding model ∧ store.records = [recordOf header ⟨0, container, some 5⟩] :=
    ⟨_, rfl, ⟨_, rfl⟩, rfl, rfl⟩
  have hquerying := reachableWhile_of_run hproceed hobserving hrun
  obtain ⟨hhealthy, hfree, hstep⟩ :=
    step_finding model everyCall hpoint (findByPath_recordOf hrecords)
  have hstore := hquerying.step ⟨hhealthy, hfree⟩ hstep
  obtain ⟨artifact, hwon⟩ := hwon
  refine ⟨_, hstore, ⟨artifact, _, ?_, calls_set_self ..⟩, (register_idempotent hstore).1⟩
  rw [calls_set, if_neg (by decide), hwon]

/-- Two registrations that have both looked before either has inserted. -/
def bothParsing : Store :=
  ((((atParsing.set 1 (.inspecting model)).set 1 (.canonicalizing model)).set 1
    (.finding model)).set 1 (.opening model)).set 1 (.parsing model ⟨0, container, some 5⟩)

/-- Both find no row, and the second insertion violates the constraint. -/
theorem register_contended :
    ¬ ∀ path group store,
      ReachableWhile system (fun store action => healthy path group store action = true) store →
        Idempotent path group store := by
  intro hclaim
  obtain ⟨header, s, hparse⟩ := container_parses
  have hinspected : system.runWhile (healthy model everyCall) untouched
      (querying 0 ++ [.call 0 (.done none), .call 0 (.done none)] ++
        (querying 1 ++ [.call 1 (.done none), .call 1 (.done none)])) = some bothParsing := rfl
  have hparsing := reachableWhile_of_run (fun _ _ h => h) (.init untouched_init) hinspected
  obtain ⟨hhealthy, -, hstep⟩ := step_parsing model everyCall
    (show bothParsing.calls 0 = .parsing model ⟨0, container, some 5⟩ from rfl) hparse
  have hfirst := hparsing.step hhealthy hstep
  obtain ⟨hhealthy, -, hstep⟩ := step_parsing model everyCall
    (show (bothParsing.set 0 (.observing model ⟨0, container, some 5⟩ header)).calls 1 =
      .parsing model ⟨0, container, some 5⟩ from rfl) hparse
  have hboth := hfirst.step hhealthy hstep
  obtain ⟨store, hrun, hpoint, hrecords⟩ : ∃ store,
      system.runWhile (healthy model everyCall)
        ((bothParsing.set 0 (.observing model ⟨0, container, some 5⟩ header)).set 1
          (.observing model ⟨0, container, some 5⟩ header))
        [.call 0 (.done none), .call 0 (.identified (.ok (List.replicate 16 0)) 0),
          .call 1 (.done none), .call 1 (.identified (.ok (List.replicate 16 1)) 0),
          .call 0 (.done none)] = some store ∧
      store.calls 1 = .inserting (newArtifact (generateId (List.replicate 16 1)) model header
        (.observe ⟨0, container, some 5⟩) 0) ⟨0, container, some 5⟩ ∧
      store.records = [recordOf header ⟨0, container, some 5⟩] := ⟨_, rfl, rfl, rfl⟩
  have hinserting := reachableWhile_of_run (fun _ _ h => h) hboth hrun
  obtain ⟨store', hstep⟩ : ∃ store', step store (.call 1 (.done none)) = some store' := by
    simp only [step, hpoint]
    exact ⟨_, rfl⟩
  have hcontended : uncontended everyCall store (.call 1 (.done none)) = false := by
    simp only [uncontended, hpoint, newArtifact, findByPath_recordOf hrecords]
    rfl
  have hhealthy : healthy model everyCall store (.call 1 (.done none)) = true := by
    simp only [healthy, hpoint, healthyAnswer, newArtifact, Store.get, hrecords]
    rfl
  exact not_idempotent_of_contended hstep hcontended
    (hclaim model everyCall _ (hinserting.step hhealthy hstep))

end MehoyRuntime.Registry
