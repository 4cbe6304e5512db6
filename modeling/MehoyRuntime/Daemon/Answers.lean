import MehoyRuntime.Daemon.Server

/-!
# What the calls of the clients return

Each call has a connection of its own, and what is on it is its own request or the response to
it. A call that returns without an answer says what has become of its connection.
-/

namespace MehoyRuntime.Daemon
open TransitionSystem
open MehoyRuntime.Transport.Pipe (IoError)

/-- What a call may have returned, with its evidence. -/
inductive Outcome (ext : Externals) (address : String) (site : Site) (c : ℕ) (call : Call) :
    Except ClientError Answer → Prop
  | answered (result : Except ClientError Answer) : Answers ext call result →
      Outcome ext address site c call result
  | unreachable (err : IoError) : Outcome ext address site c call (.error (.transport (.io err)))
  | notRunning : site.serving.isReturned = true →
      Outcome ext address site c call (.error (.transport (.notRunning address)))
  | unsent (detail : String) : ext.uri call.path = .error detail →
      Outcome ext address site c call (.error (.protocol detail))
  | lost (detail : String) (k : ℕ) (connection : Connection) :
      site.connections[k]? = some connection → connection.client = c →
      connection.task.isOver = true → connection.response = none →
      Outcome ext address site c call (.error (.protocol detail))

/-- Where a call is against its connection. -/
def Belongs (ext : Externals) (address : String) (site : Site) (c : ℕ) : ClientState → Prop
  | .idle => True
  | .connected k _ => ∃ connection, site.connections[k]? = some connection ∧
      connection.client = c ∧ connection.request = none ∧ connection.response = none
  | .awaiting k call => ∃ connection path, site.connections[k]? = some connection ∧
      connection.client = c ∧ ext.uri call.path = .ok path ∧
      (connection.request = some (.GET, path) ∧ connection.response = none ∨
        connection.request = none ∧ connection.response = some (route ext .GET path))
  | .returned call result => Outcome ext address site c call result

/-- What a step makes of a connection when its client does not send. -/
inductive Moves (ext : Externals) (connection : Connection) : Connection → Prop
  | task (task : Task) : (connection.task.isOver = true → task.isOver = true) →
      Moves ext connection { connection with task }
  | responded (method : Method) (path : String) : connection.request = some (method, path) →
      connection.task.isOver = false →
      Moves ext connection
        { connection with request := none, response := some (route ext method path) }

variable {ext : Externals} {address : String} {site after : Site} {k c : ℕ}
  {connection connection' : Connection} {call : Call} {result : Except ClientError Answer}

/-! ### What a step does to the connections -/

theorem Moves.refl (ext : Externals) (connection : Connection) : Moves ext connection connection :=
  .task connection.task id

theorem moves_setConnection {j : ℕ} {changed : Connection}
    (hj : site.connections[j]? = some connection) (hmoves : Moves ext connection changed)
    {other : Connection} (hk : site.connections[k]? = some other) :
    ∃ other', (site.setConnection j changed).connections[k]? = some other' ∧
      Moves ext other other' := by
  by_cases hkj : k = j
  · subst hkj
    obtain rfl := Option.some.inj (hj.symm.trans hk)
    exact ⟨changed, Slots.get_set_self hj changed, hmoves⟩
  · refine ⟨other, ?_, .refl ext other⟩
    show (site.connections.set j changed)[k]? = some other
    rw [List.getElem?_set_ne (Ne.symm hkj)]
    exact hk

theorem moves_mapTasks {change : Task → Task}
    (hover : ∀ task : Task, task.isOver = true → (change task).isOver = true)
    (hk : site.connections[k]? = some connection) :
    ∃ connection', (site.mapTasks change).connections[k]? = some connection' ∧
      Moves ext connection connection' := by
  refine ⟨{ connection with task := change connection.task }, ?_, .task _ (hover _)⟩
  simp only [Site.mapTasks, List.getElem?_map, hk, Option.map_some]

theorem abort_isOver (task : Task) (h : task.isOver = true) : task.abort.isOver = true := by
  cases task <;> exact h

theorem refuse_isOver (task : Task) (h : task.isOver = true) : task.refuse.isOver = true := by
  cases task <;> first | exact h | cases h

theorem polled_isOver {task : Task} (h : task.polled = true) : task.isOver = false := by
  cases task <;> first | rfl | cases h

theorem serve_moves {branch : Branch} (hstep : stepServe site branch = some after)
    (hk : site.connections[k]? = some connection) :
    ∃ connection', after.connections[k]? = some connection' ∧ Moves ext connection connection' := by
  have hsame : ∃ connection', site.connections[k]? = some connection' ∧
      Moves ext connection connection' := ⟨connection, hk, .refl ext connection⟩
  cases branch with
  | leave =>
    simp only [stepServe] at hstep
    split at hstep
    · split at hstep <;> cases hstep
      exact hsame
    · cases hstep
  | accept j =>
    simp only [stepServe] at hstep
    split at hstep
    · rename_i queued hserving hj
      split at hstep <;> cases hstep
      rename_i htask
      refine moves_setConnection hj (.task _ fun hover => ?_) hk
      rw [htask] at hover
      cases hover
    · cases hstep
  | acceptFailed err =>
    simp only [stepServe] at hstep
    split at hstep
    · split at hstep <;> cases hstep
      · exact hsame
      · have hcomposed : ∀ task : Task, task.isOver = true → task.abort.refuse.isOver = true :=
          fun task hover => refuse_isOver _ (abort_isOver task hover)
        refine ⟨{ connection with task := connection.task.abort.refuse }, ?_, .task _ (hcomposed _)⟩
        simp only [Site.mapTasks, List.getElem?_map, hk, Option.map_some]
    · cases hstep
  | join j =>
    simp only [stepServe] at hstep
    split at hstep
    case h_4 => cases hstep
    all_goals
      rename_i finished hserving hj
      split at hstep <;> cases hstep
      exact moves_setConnection hj (.task _ fun _ => rfl) hk
  | deadline =>
    simp only [stepServe] at hstep
    split at hstep
    · split at hstep <;> cases hstep
      exact moves_mapTasks abort_isOver hk
    · cases hstep
  | drained =>
    simp only [stepServe] at hstep
    split at hstep
    case h_3 => cases hstep
    all_goals
      split at hstep <;> cases hstep
      exact hsame
  | drop =>
    simp only [stepServe] at hstep
    split at hstep
    · cases hstep
      exact moves_mapTasks refuse_isOver hk
    · cases hstep

theorem task_moves {poll : Poll} {j : ℕ} {polled : Connection}
    (hj : site.connections[j]? = some polled)
    (hstep : stepTask ext site j polled poll = some after)
    (hk : site.connections[k]? = some connection) :
    ∃ connection', after.connections[k]? = some connection' ∧ Moves ext connection connection' := by
  cases poll with
  | respond =>
    simp only [stepTask] at hstep
    split at hstep
    · rename_i method path hrequest
      split at hstep <;> cases hstep
      exact moves_setConnection hj (.responded method path hrequest (polled_isOver ‹_›)) hk
    · cases hstep
  | finish =>
    simp only [stepTask] at hstep
    split at hstep <;> cases hstep
    exact moves_setConnection hj (.task _ fun _ => rfl) hk
  | cancel =>
    simp only [stepTask] at hstep
    split at hstep <;> cases hstep
    exact moves_setConnection hj (.task _ fun _ => rfl) hk

/-- A client moves no connection but that of its own call. -/
theorem client_moves {move : Move} (hstep : stepClient ext address site c move = some after)
    (hk : site.connections[k]? = some connection)
    (hother : ∀ call, site.clients c ≠ .connected k call) :
    after.connections[k]? = some connection := by
  unfold stepClient at hstep
  split at hstep
  · cases hstep
    unfold dial
    split
    · exact hk
    · split
      · exact hk
      · exact Slots.get_push_of_get hk _
  · rename_i j call hc
    obtain ⟨sent, hj, rfl⟩ := Option.map_eq_some_iff.mp hstep
    unfold send
    split
    · exact hk
    · rename_i path hpath
      have hne : j ≠ k := by
        rintro rfl
        exact hother call hc
      show (site.connections.set j _)[k]? = some connection
      rw [List.getElem?_set_ne hne]
      exact hk
  · obtain ⟨sent, -, hstep⟩ := Option.bind_eq_some_iff.mp hstep
    obtain ⟨response, -, hstep⟩ := Option.bind_eq_some_iff.mp hstep
    cases hstep
    exact hk
  all_goals
    first
    | cases hstep
    | obtain ⟨sent, -, hstep⟩ := Option.bind_eq_some_iff.mp hstep
      unfold lose at hstep
      split at hstep <;> cases hstep
      exact hk

/-! ### What a step does to the clients -/

theorem serve_clients {branch : Branch} (hstep : stepServe site branch = some after) :
    after.clients = site.clients ∧ site.serving.isReturned = false := by
  cases branch with
  | leave | acceptFailed err | deadline | drained =>
    simp only [stepServe] at hstep
    split at hstep
    all_goals
      first
      | cases hstep
      | rename_i hserving
        split at hstep <;> cases hstep
        all_goals exact ⟨rfl, by rw [hserving]; rfl⟩
  | accept j =>
    simp only [stepServe] at hstep
    split at hstep
    · rename_i hserving hj
      split at hstep <;> cases hstep
      exact ⟨rfl, by rw [hserving]; rfl⟩
    · cases hstep
  | join j =>
    simp only [stepServe] at hstep
    split at hstep
    case h_4 => cases hstep
    all_goals
      rename_i hserving hj
      split at hstep <;> cases hstep
      exact ⟨rfl, by rw [hserving]; rfl⟩
  | drop =>
    simp only [stepServe] at hstep
    split at hstep
    · rename_i hserving
      cases hstep
      exact ⟨rfl, by rw [hserving]; rfl⟩
    · cases hstep

theorem task_clients {poll : Poll} (hstep : stepTask ext site k connection poll = some after) :
    after.clients = site.clients ∧ after.serving = site.serving := by
  cases poll with
  | respond =>
    simp only [stepTask] at hstep
    split at hstep
    · split at hstep <;> cases hstep
      exact ⟨rfl, rfl⟩
    · cases hstep
  | finish | cancel =>
    simp only [stepTask] at hstep
    split at hstep <;> cases hstep
    exact ⟨rfl, rfl⟩

theorem client_others {move : Move} (hstep : stepClient ext address site c move = some after)
    {other : ℕ} (hne : other ≠ c) :
    after.serving = site.serving ∧ after.clients other = site.clients other := by
  have hclients (state : ClientState) (s : Site) :
      (s.setClient c state).clients other = s.clients other := Function.update_of_ne hne ..
  unfold stepClient at hstep
  split at hstep
  · cases hstep
    unfold dial
    split
    · exact ⟨rfl, hclients ..⟩
    · split <;> exact ⟨rfl, hclients ..⟩
  · obtain ⟨sent, -, rfl⟩ := Option.map_eq_some_iff.mp hstep
    unfold send
    split <;> exact ⟨rfl, hclients ..⟩
  · obtain ⟨sent, -, hstep⟩ := Option.bind_eq_some_iff.mp hstep
    obtain ⟨response, -, hstep⟩ := Option.bind_eq_some_iff.mp hstep
    cases hstep
    exact ⟨rfl, hclients ..⟩
  all_goals
    first
    | cases hstep
    | obtain ⟨sent, -, hstep⟩ := Option.bind_eq_some_iff.mp hstep
      unfold lose at hstep
      split at hstep <;> cases hstep
      exact ⟨rfl, hclients ..⟩

/-! ### Every run -/

/-- Where a call is stays true of it while others move. -/
theorem Belongs.frame {state : ClientState} (h : Belongs ext address site c state)
    (hreturned : site.serving.isReturned = true → after.serving.isReturned = true)
    (hmoves : ∀ (k : ℕ) connection, site.connections[k]? = some connection → connection.client = c →
      ∃ connection', after.connections[k]? = some connection' ∧ Moves ext connection connection') :
    Belongs ext address after c state := by
  cases state with
  | idle => trivial
  | connected k call =>
    obtain ⟨connection, hk, hclient, hrequest, hresponse⟩ := h
    obtain ⟨connection', hk', hmove⟩ := hmoves k connection hk hclient
    cases hmove with
    | task task hover => exact ⟨_, hk', hclient, hrequest, hresponse⟩
    | responded method path hsome =>
      rw [hrequest] at hsome
      cases hsome
  | awaiting k call =>
    obtain ⟨connection, path, hk, hclient, hpath, hboth⟩ := h
    obtain ⟨connection', hk', hmove⟩ := hmoves k connection hk hclient
    cases hmove with
    | task task hover => exact ⟨_, path, hk', hclient, hpath, hboth⟩
    | responded method target hsome =>
      refine ⟨_, path, hk', hclient, hpath, .inr ⟨rfl, ?_⟩⟩
      rcases hboth with ⟨hrequest, -⟩ | ⟨hrequest, -⟩
      · rw [hrequest] at hsome
        cases hsome
        rfl
      · rw [hrequest] at hsome
        cases hsome
  | returned call result =>
    cases h with
    | answered _ hanswers => exact .answered _ hanswers
    | unreachable err => exact .unreachable err
    | notRunning hclosed => exact .notRunning (hreturned hclosed)
    | unsent detail hpath => exact .unsent detail hpath
    | lost detail k connection hk hclient hover hresponse =>
      obtain ⟨connection', hk', hmove⟩ := hmoves k connection hk hclient
      cases hmove with
      | task task hkept => exact .lost detail k _ hk' hclient (hkept hover) hresponse
      | responded method path _ hopen =>
        rw [hover] at hopen
        cases hopen

/-- The state that a client has moved to. -/
theorem client_belongs (hext : ext.Faithful) {move : Move}
    (h : Belongs ext address site c (site.clients c))
    (hstep : stepClient ext address site c move = some after) :
    Belongs ext address after c (after.clients c) := by
  have hself (state : ClientState) (s : Site) : (s.setClient c state).clients c = state :=
    Function.update_self ..
  unfold stepClient at hstep
  split at hstep
  · rename_i call failure hc
    cases hstep
    unfold dial
    split
    · rw [hself]
      exact .unreachable _
    · split
      · rename_i hreturned
        rw [hself]
        exact .notRunning hreturned
      · rw [hself]
        refine ⟨⟨c, .queued, none, none⟩, ?_, rfl, rfl, rfl⟩
        show (site.connections ++ [_])[site.connections.length]? = _
        rw [List.getElem?_append_right (Nat.le_refl _), Nat.sub_self]
        rfl
  · rename_i k call hc
    obtain ⟨connection, hk, rfl⟩ := Option.map_eq_some_iff.mp hstep
    rw [hc] at h
    obtain ⟨connection', hk', hclient, hrequest, hresponse⟩ := h
    obtain rfl := Option.some.inj (hk.symm.trans hk')
    unfold send
    split
    · rename_i detail hpath
      rw [hself]
      exact .unsent detail hpath
    · rename_i path hpath
      rw [hself]
      exact ⟨_, path, Slots.get_set_self hk _, hclient, hpath, .inl ⟨rfl, hresponse⟩⟩
  · rename_i k call hc
    obtain ⟨connection, hk, hstep⟩ := Option.bind_eq_some_iff.mp hstep
    obtain ⟨response, hsome, hstep⟩ := Option.bind_eq_some_iff.mp hstep
    cases hstep
    rw [hc] at h
    obtain ⟨connection', path, hk', hclient, hpath, hboth⟩ := h
    obtain rfl := Option.some.inj (hk.symm.trans hk')
    rw [hself]
    rcases hboth with ⟨-, hnone⟩ | ⟨-, hresponse⟩
    · rw [hnone] at hsome
      cases hsome
    · rw [hresponse] at hsome
      cases hsome
      exact .answered _ (concluded_route hext hpath)
  · rename_i k call detail hc
    obtain ⟨connection, hk, hstep⟩ := Option.bind_eq_some_iff.mp hstep
    unfold lose at hstep
    split at hstep <;> cases hstep
    rename_i hlost
    rw [hc] at h
    obtain ⟨connection', hk', hclient, -⟩ := h
    obtain rfl := Option.some.inj (hk.symm.trans hk')
    rw [hself]
    exact .lost detail k connection hk hclient hlost.1 hlost.2
  · rename_i k call detail hc
    obtain ⟨connection, hk, hstep⟩ := Option.bind_eq_some_iff.mp hstep
    unfold lose at hstep
    split at hstep <;> cases hstep
    rename_i hlost
    rw [hc] at h
    obtain ⟨connection', path, hk', hclient, -⟩ := h
    obtain rfl := Option.some.inj (hk.symm.trans hk')
    rw [hself]
    exact .lost detail k connection hk hclient hlost.1 hlost.2
  · cases hstep

theorem step_belongs (hext : ext.Faithful) {action : Action}
    (h : ∀ c, Belongs ext address site c (site.clients c))
    (hstep : step ext address site action = some after) (c : ℕ) :
    Belongs ext address after c (after.clients c) := by
  cases action with
  | tick elapsed | shutdown =>
    cases hstep
    exact (h c).frame id fun k connection hk _ => ⟨connection, hk, .refl ext connection⟩
  | serve branch =>
    obtain ⟨hclients, hopen⟩ := serve_clients hstep
    rw [hclients]
    refine (h c).frame (fun hreturned => ?_) fun k connection hk _ => serve_moves hstep hk
    rw [hopen] at hreturned
    cases hreturned
  | task j poll =>
    obtain ⟨polled, hj, hstep⟩ := Option.bind_eq_some_iff.mp hstep
    obtain ⟨hclients, hserving⟩ := task_clients hstep
    rw [hclients]
    refine (h c).frame (fun hreturned => ?_) fun k connection hk _ => task_moves hj hstep hk
    rw [hserving]
    exact hreturned
  | client d move =>
    by_cases hcd : c = d
    · subst hcd
      exact client_belongs hext (h c) hstep
    · obtain ⟨hserving, hclients⟩ := client_others hstep hcd
      rw [hclients]
      refine (h c).frame (fun hreturned => ?_) fun k connection hk hclient => ?_
      · rw [hserving]
        exact hreturned
      · refine ⟨connection, client_moves hstep hk fun call hd => ?_, .refl ext connection⟩
        -- The connection that the other client sends on is its own.
        have hbelongs := h d
        rw [hd] at hbelongs
        obtain ⟨connection', hk', hclient', -⟩ := hbelongs
        obtain rfl := Option.some.inj (hk.symm.trans hk')
        exact hcd (hclient.symm.trans hclient')

theorem belongs_of_reachable (hext : ext.Faithful) (h : Reachable (system ext address) site)
    (c : ℕ) : Belongs ext address site c (site.clients c) := by
  refine h.invariant (I := fun site => ∀ c, Belongs ext address site c (site.clients c)) ?_ ?_ c
  · rintro s ⟨-, -, -, hclients, -⟩ c
    rw [hclients c]
    trivial
  · exact fun _ _ _ _ h _ hstep => step_belongs hext h hstep

/-- How a connection ends without a response: it fails, its task is cut off by a drain that has
run for its whole deadline or by an accept that has failed for good, or it is never accepted. -/
def Ended (site : Site) (connection : Connection) : Prop :=
  connection.task = .finished false ∨ connection.task = .joined false ∨
    (connection.task.cut = true ∧ site.Overran) ∨
    (connection.task = .refused ∧ site.serving.isReturned = true)

theorem ended_of_over (h : Sound site) (hmem : connection ∈ site.connections)
    (hover : connection.task.isOver = true) : Ended site connection := by
  have hfits := h.tasks connection hmem
  unfold Ended
  cases htask : connection.task with
  | queued | running | aborting =>
    rw [htask] at hover
    cases hover
  | refused => exact .inr (.inr (.inr ⟨rfl, hfits.refused htask⟩))
  | finished cancelled =>
    cases cancelled with
    | false => exact .inl rfl
    | true => exact .inr (.inr (.inl ⟨rfl, hfits.cut (by rw [htask]; rfl)⟩))
  | joined cancelled =>
    cases cancelled with
    | false => exact .inr (.inl rfl)
    | true => exact .inr (.inr (.inl ⟨rfl, hfits.cut (by rw [htask]; rfl)⟩))

/-- In every interleaving of the daemon, its tasks and any number of clients, a call that returns
has the answer of the route that it asked for, or it says truly why it has none. -/
theorem calls_are_answered (hext : ext.Faithful) (hsite : Reachable (system ext address) site)
    (hc : site.clients c = .returned call result) :
    (Answers ext call result ∨ (∃ err, result = .error (.transport (.io err))) ∨
      (result = .error (.transport (.notRunning address)) ∧ site.serving.isReturned = true) ∨
      ∃ detail, result = .error (.protocol detail) ∧ (ext.uri call.path = .error detail ∨
        ∃ connection ∈ site.connections, connection.client = c ∧ connection.response = none ∧
          Ended site connection)) ∧
    (exitCode result = EXIT_NOT_RUNNING → site.serving.isReturned = true) := by
  have hbelongs := belongs_of_reachable hext hsite c
  rw [hc] at hbelongs
  cases hbelongs with
  | answered _ hanswers =>
    refine ⟨.inl hanswers, fun hexit => ?_⟩
    cases hanswers <;> cases hexit
  | unreachable err =>
    refine ⟨.inr (.inl ⟨err, rfl⟩), fun hexit => ?_⟩
    cases hexit
  | notRunning hclosed => exact ⟨.inr (.inr (.inl ⟨rfl, hclosed⟩)), fun _ => hclosed⟩
  | unsent detail hpath =>
    refine ⟨.inr (.inr (.inr ⟨detail, rfl, .inl hpath⟩)), fun hexit => ?_⟩
    cases hexit
  | lost detail k connection hk hclient hover hresponse =>
    have hmem := List.mem_of_getElem? hk
    have hended := ended_of_over (sound_of_reachable hsite) hmem hover
    refine ⟨.inr (.inr (.inr ⟨detail, rfl, .inr ⟨connection, hmem, hclient, hresponse, hended⟩⟩)), ?_⟩
    intro hexit
    cases hexit

/-- One client asks for its health while another asks for a path that is not there. -/
def both : List Action :=
  [.client 0 (.dial .health none), .client 1 (.dial (.rawGet "/nope") none), .serve (.accept 1),
    .serve (.accept 0), .client 0 .send, .client 1 .send, .task 1 .respond, .task 0 .respond,
    .shutdown, .serve .leave, .client 1 .receive, .client 0 .receive]

theorem calls_are_answered_both : ∃ site : Site,
    site.clients 0 = .returned .health (.ok (.health ⟨.ok⟩)) ∧
    site.clients 1 = .returned (.rawGet "/nope")
      (.error (.daemon 404 "not_found" "no route for /nope")) ∧
    Answers sampleExternals (.rawGet "/nope")
      (.error (.daemon 404 "not_found" "no route for /nope")) := by
  obtain ⟨site, hrun, hfirst, hsecond⟩ : ∃ site,
      (system sampleExternals "mehoyd").run untouched both = some site ∧
      site.clients 0 = .returned .health (.ok (.health ⟨.ok⟩)) ∧
      site.clients 1 = .returned (.rawGet "/nope")
        (.error (.daemon 404 "not_found" "no route for /nope")) := ⟨_, rfl, rfl, rfl⟩
  have hreach := reachable_of_run (.init (untouched_init sampleExternals "mehoyd")) hrun
  refine ⟨site, hfirst, hsecond, ?_⟩
  rcases (calls_are_answered sampleExternals_faithful hreach hsecond).1 with
    hanswers | ⟨err, herr⟩ | ⟨herr, -⟩ | ⟨detail, hdetail, -⟩
  · exact hanswers
  · cases herr
  · cases herr
  · cases hdetail

end MehoyRuntime.Daemon
