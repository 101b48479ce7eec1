import OffloadCheck.Proofs.Activity
import OffloadCheck.Proofs.Operations

/-! # The life of a session

A noted session enters every call that it makes on its cluster, its servers and its filesystems into
a log, with whether the call succeeded; otherwise it is and does what the session does. The log of a
launch has one of four forms, told apart by how far the launch came. After a launch that succeeded,
no operation but the first close adds to the calls that start and stop things, and that close stops
the servers and then the cluster. So a life that ends in a drop stops once what was started, and
nothing else. -/
namespace OffloadCheck

open OffloadCheck.Action

variable {σ α ε : Type}

/-! ## Calls that are noted -/

/-- A call that a session makes, with whether it succeeded. -/
inductive Event
  | clusterStart (ok : Bool)
  | store (config : ServerConfig) (ok : Bool)
  | serversStart (ok : Bool)
  | serversStop (ok : Bool)
  | clusterStop (ok : Bool)
  | submission (ok : Bool)
  /-- A call on one of the filesystems. -/
  | storage

namespace Event

/-- Whether the call sets something up or stops it. -/
def isLifecycle : Event → Bool
  | .submission _ | .storage => false
  | _ => true

/-- The calls of a log that set things up and stop them. -/
def lifecycle (log : List Event) : List Event := log.filter isLifecycle

theorem lifecycle_append (early late : List Event) :
    lifecycle (early ++ late) = lifecycle early ++ lifecycle late := List.filter_append ..

theorem lifecycle_storage (n : Nat) : lifecycle (List.replicate n .storage) = [] := by
  rw [lifecycle, List.filter_replicate_of_neg (by decide)]

/-- What the calls of a log stop: what one close stops, or nothing. They start nothing. -/
inductive Stops : Bool → List Event → Prop
  | nothing {log : List Event} : lifecycle log = [] → Stops false log
  | everything {log : List Event} {stopped halted : Bool} :
      lifecycle log = [.serversStop stopped, .clusterStop halted] → Stops true log

theorem Stops.append {a b : Bool} {early late : List Event} (hearly : Stops a early)
    (hlate : Stops b late) (hab : (a && b) = false) : Stops (a || b) (early ++ late) := by
  cases hearly with
  | nothing hearly =>
    cases hlate with
    | nothing hlate => exact .nothing (by rw [lifecycle_append, hearly, hlate]; rfl)
    | everything hlate => exact .everything (by rw [lifecycle_append, hearly, hlate]; rfl)
  | everything hearly =>
    cases hlate with
    | nothing hlate => exact .everything (by rw [lifecycle_append, hearly, hlate]; rfl)
    | everything _ => cases hab

end Event

/-- The step, entered into a log once it has ended. -/
def Action.noting (event : Bool → Event) (x : Action σ ε α) : Action (σ × List Event) ε α :=
  fun s =>
    let (r, w) := x s.1
    (r, (w, s.2 ++ [event r.isOk]))

theorem Action.run_noting (event : Bool → Event) (x : Action σ ε α) (w : σ) (log : List Event) :
    (x.noting event).run (w, log) = ((x.run w).1, ((x.run w).2, log ++ [event (x.run w).1.isOk])) :=
  rfl

theorem Action.follows_noting (event : Bool → Event) (x : Action σ ε α) :
    Follows Prod.fst Eq (x.noting event) x :=
  follows_of_run_eq fun _ => rfl

/-- The filesystem with something done to the world before each of its calls. -/
def FileSystem.touching (touch : σ → σ) (fs : FileSystem σ) : FileSystem σ where
  list p := do
    Action.change touch
    fs.list p
  openFile p := do
    Action.change touch
    fs.openFile p
  create p := do
    Action.change touch
    fs.create p
  copy src dst := do
    Action.change touch
    fs.copy src dst
  delete p recursive := do
    Action.change touch
    fs.delete p recursive
  isPresent := fs.isPresent

theorem FileSystem.Follows.touching {τ : Type} {f : σ → τ} {fs : FileSystem σ} {gs : FileSystem τ}
    (h : fs.Follows f gs) {touch : σ → σ} (htouch : ∀ s, f (touch s) = f s) :
    (fs.touching touch).Follows f gs where
  list p := (h.list p).after_change htouch
  openFile p := (h.openFile p).after_change htouch
  create p := (h.create p).after_change htouch
  isPresent := h.isPresent

theorem FileSystem.Sustains.touching {fs : FileSystem σ} {P : σ → Prop} (h : fs.Sustains P)
    {touch : σ → σ} (htouch : ∀ s, P s → P (touch s)) : (fs.touching touch).Sustains P where
  list p := (preserves_change htouch).bind fun _ => h.list p
  openFile p := (preserves_change htouch).bind fun _ => h.openFile p
  create p := (preserves_change htouch).bind fun _ => h.create p
  writeAt {_ s _ _} hcreate := h.writeAt ((run_bind_of_ok (run_change touch s)).symm.trans hcreate)

/-- The filesystem whose calls are noted. -/
def FileSystem.noted (fs : FileSystem σ) : FileSystem (σ × List Event) :=
  fs.beside.touching fun s => (s.1, s.2 ++ [.storage])

def Cluster.noted (cluster : Cluster σ) : Cluster (σ × List Event) where
  start properties := (cluster.start properties).noting .clusterStart
  stop := cluster.stop.noting .clusterStop
  baseProperties s := cluster.baseProperties s.1
  submit properties workload := (cluster.submit properties workload).noting .submission

def Servers.noted (servers : Servers σ) : Servers (σ × List Event) where
  store config := (servers.store config).noting (.store config)
  start randomizedPorts := (servers.start randomizedPorts).noting .serversStart
  quorum s := servers.quorum s.1
  stop := servers.stop.noting .serversStop

namespace Session

/-- The session whose calls are noted. -/
def noted (session : Session σ) : Session (σ × List Event) where
  id := session.id
  settings := session.settings
  host := session.host.beside
  cluster := session.cluster.noted
  servers := session.servers.noted
  clusterFs := session.clusterFs.noted
  buildFs := session.buildFs.noted
  quorum := session.quorum

def Parts.noted (parts : Parts σ) : Parts (σ × List Event) where
  settings := parts.settings
  cluster := parts.cluster.map Cluster.noted
  servers := parts.servers.map Servers.noted
  clusterFs := parts.clusterFs.map FileSystem.noted
  buildFs := parts.buildFs.map FileSystem.noted
  coordinator := parts.coordinator
  serverOverrides := parts.serverOverrides

/-! ## Setting up -/

/-- The calls by which servers are set up, and whether all of them succeeded. -/
inductive SetUp (configs : List ServerConfig) : List Event → Bool → Prop
  | storeFailed {before after : List ServerConfig} {config : ServerConfig} :
      configs = before ++ config :: after →
      SetUp configs (before.map (.store · true) ++ [.store config false]) false
  | startFailed : SetUp configs (configs.map (.store · true) ++ [.serversStart false]) false
  | started : SetUp configs (configs.map (.store · true) ++ [.serversStart true]) true

theorem noted_storeAll (servers : Servers σ) (configs : List ServerConfig) (w : σ)
    (log : List Event) :
    ∃ events, (servers.noted.storeAll configs).run (w, log) =
        (((servers.storeAll configs).run w).1, ((servers.storeAll configs).run w).2,
          log ++ events) ∧
      (((servers.storeAll configs).run w).1 = .ok () ∧ events = configs.map (.store · true) ∨
        ∃ before config after e, ((servers.storeAll configs).run w).1 = .error e ∧
          configs = before ++ config :: after ∧
          events = before.map (.store · true) ++ [.store config false]) := by
  induction configs generalizing w log with
  | nil => exact ⟨[], by rw [List.append_nil]; rfl, .inl ⟨rfl, rfl⟩⟩
  | cons config configs ih =>
    have hnoted := run_noting (.store config) (servers.store config) w log
    rcases hstore : (servers.store config).run w with ⟨e | _, v⟩
    · rw [hstore] at hnoted
      have hall : (servers.storeAll (config :: configs)).run w = (.error e, v) :=
        run_bind_of_error hstore
      rw [hall]
      refine ⟨[.store config false], run_bind_of_error hnoted, .inr ?_⟩
      exact ⟨[], config, configs, e, rfl, rfl, rfl⟩
    · rw [hstore] at hnoted
      have hall : (servers.storeAll (config :: configs)).run w = (servers.storeAll configs).run v :=
        run_bind_of_ok hstore
      obtain ⟨events, hrun, hend⟩ := ih v (log ++ [.store config true])
      rw [hall]
      refine ⟨.store config true :: events, ?_, ?_⟩
      · rw [List.append_assoc] at hrun
        exact (run_bind_of_ok hnoted).trans hrun
      · rcases hend with ⟨hok, rfl⟩ | ⟨before, failed, after, e, herror, rfl, rfl⟩
        · exact .inl ⟨hok, rfl⟩
        · exact .inr ⟨config :: before, failed, after, e, herror, rfl, rfl⟩

theorem noted_setUp (servers : Servers σ) (coordinator : Properties)
    (overrides : Option Properties) (w : σ) (log : List Event) :
    ∃ events, (servers.noted.setUp coordinator overrides).run (w, log) =
        (((servers.setUp coordinator overrides).run w).1,
          ((servers.setUp coordinator overrides).run w).2, log ++ events) ∧
      SetUp (ServerConfig.ensemble coordinator overrides) events
        ((servers.setUp coordinator overrides).run w).1.isOk := by
  obtain ⟨events, hnoted, hend⟩ :=
    noted_storeAll servers (ServerConfig.ensemble coordinator overrides) w log
  rcases hstore : (servers.storeAll (ServerConfig.ensemble coordinator overrides)).run w with
    ⟨e | _, v⟩
  · rw [hstore] at hnoted hend
    have hall : (servers.setUp coordinator overrides).run w = (.error e, v) :=
      run_bind_of_error hstore
    rw [hall]
    refine ⟨events, run_bind_of_error hnoted, ?_⟩
    rcases hend with ⟨⟨⟩, _⟩ | ⟨before, config, after, _, _, hconfigs, rfl⟩
    exact .storeFailed hconfigs
  · rw [hstore] at hnoted hend
    obtain rfl : events = _ := by
      rcases hend with ⟨_, hevents⟩ | ⟨_, _, _, _, ⟨⟩, _⟩
      exact hevents
    have hstart := run_noting .serversStart (servers.start true) v
      (log ++ (ServerConfig.ensemble coordinator overrides).map (.store · true))
    rcases hrun : (servers.start true).run v with ⟨e | _, u⟩
    · rw [hrun, List.append_assoc] at hstart
      have hall : (servers.setUp coordinator overrides).run w = (.error e, u) :=
        (run_bind_of_ok hstore).trans (run_bind_of_error hrun)
      rw [hall]
      refine ⟨_, (run_bind_of_ok hnoted).trans (run_bind_of_error hstart), .startFailed⟩
    · rw [hrun, List.append_assoc] at hstart
      have hall : (servers.setUp coordinator overrides).run w = (.ok (servers.quorum u), u) :=
        (run_bind_of_ok hstore).trans (run_bind_of_ok hrun)
      rw [hall]
      exact ⟨_, (run_bind_of_ok hnoted).trans (run_bind_of_ok hstart), .started⟩

/-! ## Shutting down -/

/-- Clearing a path makes one call or none, apart from looking whether something is there. -/
theorem noted_clear (fs : FileSystem σ) (path : Path) (w : σ) (log : List Event) :
    ∃ n, fs.noted.clear path (w, log) = (fs.clear path w, log ++ List.replicate n .storage) := by
  unfold FileSystem.clear
  by_cases hpresent : fs.isPresent path w = true
  · refine ⟨1, ?_⟩
    rw [if_pos hpresent]
    exact if_pos hpresent
  · refine ⟨0, ?_⟩
    rw [if_neg hpresent, List.replicate_zero, List.append_nil]
    exact if_neg hpresent

theorem noted_clusterShutDown (cluster : Cluster σ) (fs : FileSystem σ) (dir : Path) (w : σ)
    (log : List Event) :
    ∃ ok n, cluster.noted.shutDown fs.noted dir (w, log) =
      (cluster.shutDown fs dir w, log ++ .clusterStop ok :: List.replicate n .storage) := by
  obtain ⟨n, hclear⟩ := noted_clear fs dir (cluster.stop.run w).2
    (log ++ [.clusterStop (cluster.stop.run w).1.isOk])
  rw [List.append_assoc] at hclear
  exact ⟨_, n, hclear⟩

theorem noted_shutDown (session : Session σ) {s : State σ} (hopen : s.closed = false)
    (log : List Event) :
    ∃ stopped halted n, session.noted.shutDown (s.beside log) =
      (session.shutDown s,
        log ++ .serversStop stopped :: .clusterStop halted :: List.replicate n .storage) := by
  let stopped := (session.servers.stop.run s.world).1.isOk
  let w := session.servers.shutDown s.world
  obtain ⟨halted, m, hcluster⟩ := noted_clusterShutDown session.cluster session.buildFs
    session.settings.resourcesDir w (log ++ [.serversStop stopped])
  obtain ⟨n, hclear⟩ := noted_clear session.clusterFs session.settings.sharedArtifactDir
    (session.cluster.shutDown session.buildFs session.settings.resourcesDir w)
    (log ++ [.serversStop stopped] ++ .clusterStop halted :: List.replicate m .storage)
  refine ⟨stopped, halted, m + n, ?_⟩
  have hservers : session.noted.servers.shutDown (s.world, log) =
      (w, log ++ [.serversStop stopped]) := rfl
  rw [session.shutDown_of_open hopen]
  calc session.noted.shutDown (s.beside log)
    _ = session.clusterFs.noted.clear session.settings.sharedArtifactDir
          (session.cluster.noted.shutDown session.buildFs.noted session.settings.resourcesDir
            (session.noted.servers.shutDown (s.world, log))) :=
        session.noted.shutDown_of_open hopen
    _ = _ := by
      rw [hservers, hcluster, hclear]
      refine Prod.ext rfl ?_
      simp only [List.append_assoc, List.cons_append, List.replicate_append_replicate,
        List.nil_append]

/-! ## Launching -/

theorem validate_eq_error {settings : Settings} {e : Failure}
    (h : settings.validate = .error e) : e.IsConfiguration := by
  unfold Settings.validate at h
  split at h
  · cases h
    exact ⟨_, rfl⟩
  · cases h

namespace Parts

/-- The settings are accepted, and nothing that a session cannot do without is missing. -/
structure Complete (parts : Parts σ) : Prop where
  settings : (parts.settings.getD .default).validate = .ok ()
  cluster : parts.cluster.isSome
  servers : parts.servers.isSome
  clusterFs : parts.clusterFs.isSome

/-- What a session cannot do without. -/
def check (parts : Parts σ) : Except Failure (Cluster σ × Servers σ × FileSystem σ) := do
  (parts.settings.getD .default).validate
  return (← required "a cluster" parts.cluster, ← required "shuffle servers" parts.servers,
    ← required "a cluster filesystem" parts.clusterFs)

/-- The configurations of the servers that belong to a session. -/
def ensemble (parts : Parts σ) : List ServerConfig :=
  ServerConfig.ensemble (parts.coordinator.getD (defaultCoordinatorProperties
    (parts.settings.getD .default).remoteStorageUri)) parts.serverOverrides

/-- Either all that is needed is there, or a configuration error tells what is missing. -/
theorem check_cases (parts : Parts σ) :
    (parts.Complete ∧ ∃ cluster servers clusterFs,
        parts.check = .ok (cluster, servers, clusterFs)) ∨
      ¬ parts.Complete ∧ ∃ reason, parts.check = .error (.configuration reason) := by
  unfold check
  rcases hvalid : (parts.settings.getD .default).validate with e | _
  · obtain ⟨reason, rfl⟩ := validate_eq_error hvalid
    refine .inr ⟨fun h => ?_, reason, rfl⟩
    rw [h.settings] at hvalid
    cases hvalid
  rcases hcluster : parts.cluster with _ | cluster
  · exact .inr ⟨fun h => by simpa [hcluster] using h.cluster, _, rfl⟩
  rcases hservers : parts.servers with _ | servers
  · exact .inr ⟨fun h => by simpa [hservers] using h.servers, _, rfl⟩
  rcases hclusterFs : parts.clusterFs with _ | clusterFs
  · exact .inr ⟨fun h => by simpa [hclusterFs] using h.clusterFs, _, rfl⟩
  · exact .inl ⟨⟨hvalid, by rw [hcluster]; rfl, by rw [hservers]; rfl, by rw [hclusterFs]; rfl⟩,
      cluster, servers, clusterFs, rfl⟩

theorem check_noted (parts : Parts σ) :
    parts.noted.check = parts.check.map fun (cluster, servers, clusterFs) =>
      (cluster.noted, servers.noted, clusterFs.noted) := by
  obtain ⟨settings, cluster, servers, clusterFs, _, _, _⟩ := parts
  unfold check noted
  dsimp only
  rcases (settings.getD .default).validate with e | _
  · rfl
  · cases cluster <;> cases servers <;> cases clusterFs <;> rfl

end Parts

theorem launch_eq_bringUp (parts : Parts σ) (host : Host σ) (id : String) :
    launch parts host id = Action.ofExcept parts.check >>= fun (cluster, servers, clusterFs) =>
      bringUp parts host id cluster servers clusterFs := by
  obtain ⟨settings, cluster, servers, clusterFs, _, _, _⟩ := parts
  unfold launch Parts.check
  dsimp only
  rcases (settings.getD .default).validate with e | _
  · rfl
  · cases cluster <;> cases servers <;> cases clusterFs <;> rfl

/-- What a launch gave and left and the calls that it made, by how far it came. -/
inductive Launched (parts : Parts σ) (w : σ) :
    Except Failure (Session σ) → σ → List Event → Prop
  | refused {reason : String} : ¬ parts.Complete →
      Launched parts w (.error (.configuration reason)) w []
  | clusterFailed {e : Failure} {v : σ} : parts.Complete →
      Launched parts w (.error e) v [.clusterStart false]
  /-- The cluster is stopped again, and its directory of resources is removed. -/
  | serversFailed {e : Failure} {v : σ} {calls : List Event} {halted : Bool} {removals : Nat} :
      parts.Complete → SetUp parts.ensemble calls false →
      Launched parts w (.error e) v
        (.clusterStart true :: calls ++ .clusterStop halted :: List.replicate removals .storage)
  | opened {session : Session σ} {v : σ} {calls : List Event} :
      parts.Complete → SetUp parts.ensemble calls true →
      Launched parts w (.ok session) v (.clusterStart true :: calls)

theorem noted_bringUp {parts : Parts σ} (hcomplete : parts.Complete) (host : Host σ) (id : String)
    (cluster : Cluster σ) (servers : Servers σ) (clusterFs : FileSystem σ) (w : σ) :
    let bringing := bringUp parts host id cluster servers clusterFs
    ∃ opening,
      (bringUp parts.noted host.beside id cluster.noted servers.noted clusterFs.noted).run (w, []) =
        ((bringing.run w).1.map noted, (bringing.run w).2, opening) ∧
      Launched parts w (bringing.run w).1 (bringing.run w).2 opening := by
  intro bringing
  let settings := parts.settings.getD .default
  let buildFs := parts.buildFs.getD clusterFs
  let coordinator :=
    parts.coordinator.getD (defaultCoordinatorProperties settings.remoteStorageUri)
  have hbuildFs : parts.noted.buildFs.getD clusterFs.noted = buildFs.noted := by
    change (parts.buildFs.map _).getD clusterFs.noted = (parts.buildFs.getD clusterFs).noted
    cases parts.buildFs <;> rfl
  have hstart := run_noting .clusterStart (cluster.start settings.startProperties) w []
  rcases hrun : (cluster.start settings.startProperties).run w with ⟨e | _, v⟩
  · rw [hrun] at hstart
    have hfail : bringing.run w = (.error e, v) :=
      run_bind_of_error (ClusterFixture.run_start_of_error hrun)
    rw [hfail]
    exact ⟨_, run_bind_of_error (ClusterFixture.run_start_of_error hstart),
      .clusterFailed hcomplete⟩
  · rw [hrun] at hstart
    obtain ⟨calls, hsetUp, hcalls⟩ :=
      noted_setUp servers coordinator parts.serverOverrides v [.clusterStart true]
    rcases hready : (servers.setUp coordinator parts.serverOverrides).run v with ⟨e | quorum, u⟩
    · -- The servers are not up, so it is only the cluster that is stopped.
      rw [hready] at hsetUp hcalls
      have hfail : bringing.run w = (.error e, cluster.shutDown buildFs settings.resourcesDir u) :=
        (run_bind_of_ok (ClusterFixture.run_start_of_ok hrun)).trans
          (run_bind_of_ok (run_attempt_of_run (ServersFixture.run_start_of_error hready)))
      obtain ⟨halted, removals, hshutDown⟩ := noted_clusterShutDown cluster buildFs
        settings.resourcesDir u ([.clusterStart true] ++ calls)
      rw [hfail]
      refine ⟨_, ?_, @Launched.serversFailed _ parts w e _ calls halted removals hcomplete hcalls⟩
      refine (run_bind_of_ok (ClusterFixture.run_start_of_ok hstart)).trans
        ((run_bind_of_ok (run_attempt_of_run (ServersFixture.run_start_of_error hsetUp))).trans ?_)
      change ((Except.error e : Except Failure _),
        cluster.noted.shutDown (parts.noted.buildFs.getD clusterFs.noted) settings.resourcesDir
          (u, [.clusterStart true] ++ calls)) = _
      rw [hbuildFs, hshutDown]
      rfl
    · rw [hready] at hsetUp hcalls
      have hopen : bringing.run w =
          (.ok ⟨id, settings, host, cluster, servers, clusterFs, buildFs, quorum⟩, u) :=
        (run_bind_of_ok (ClusterFixture.run_start_of_ok hrun)).trans
          (run_bind_of_ok (run_attempt_of_run (ServersFixture.run_start_of_ok hready)))
      rw [hopen]
      refine ⟨_, ?_, .opened hcomplete hcalls⟩
      refine (run_bind_of_ok (ClusterFixture.run_start_of_ok hstart)).trans
        ((run_bind_of_ok (run_attempt_of_run (ServersFixture.run_start_of_ok hsetUp))).trans ?_)
      change ((Except.ok (Session.mk id settings host.beside cluster.noted servers.noted
        clusterFs.noted (parts.noted.buildFs.getD clusterFs.noted) quorum) : Except Failure _),
        (u, [.clusterStart true] ++ calls)) = _
      rw [hbuildFs]
      rfl

/-- A noted launch comes to what the launch comes to, and its log tells how far the launch came. -/
theorem noted_launch (parts : Parts σ) (host : Host σ) (id : String) (w : σ) :
    let launched := (launch parts host id).run w
    ∃ opening, (launch parts.noted host.beside id).run (w, []) =
        (launched.1.map noted, launched.2, opening) ∧
      Launched parts w launched.1 launched.2 opening := by
  intro launched
  subst launched
  rw [launch_eq_bringUp, launch_eq_bringUp, parts.check_noted]
  rcases parts.check_cases with ⟨hcomplete, cluster, servers, clusterFs, hcheck⟩ |
    ⟨hcomplete, reason, hcheck⟩
  · rw [hcheck]
    exact noted_bringUp hcomplete host id cluster servers clusterFs w
  · rw [hcheck]
    exact ⟨[], rfl, .refused hcomplete⟩

/-! ## Afterwards -/

/-- The same is done where something else is next to the world. -/
def Operation.beside {κ : Type} : Operation σ → Operation (σ × κ)
  | .preflight => .preflight
  | .locateArtifact => .locateArtifact
  | .planBaseline base => .planBaseline base
  | .planOffload base transport remoteMerge remoteSpill =>
    .planOffload base transport remoteMerge remoteSpill
  | .submit properties workload => .submit properties workload
  | .runPoint workload point => .runPoint workload point
  | .runMatrix workload points => .runMatrix workload points
  | .close => .close
  | .elsewhere change => .elsewhere fun s => (change s.1, s.2)

theorem isClose_beside {κ : Type} (operation : Operation σ) :
    (operation.beside : Operation (σ × κ)).isClose = operation.isClose := by
  cases operation <;> rfl

theorem mirrored_noted (session : Session σ) : session.noted.Mirrored Prod.fst session where
  id := rfl
  settings := rfl
  quorum := rfl
  isSet _ _ := rfl
  now _ := rfl
  runId := rfl
  baseProperties _ := rfl
  clusterFs := session.clusterFs.follows_fst.touching fun _ => rfl
  buildFs := session.buildFs.follows_fst.touching fun _ => rfl

/-- Apart from the log, an operation of a noted session leaves what the operation leaves. -/
theorem map_carryOut_noted (session : Session σ) {operation : Operation σ}
    (hclose : operation.isClose = false) (s : State (σ × List Event)) :
    (session.noted.carryOut operation.beside s).map Prod.fst =
      session.carryOut operation (s.map Prod.fst) := by
  have hmirrored := session.mirrored_noted
  have hsubmit (properties : Properties) (workload : Workload) :
      Follows Prod.fst Eq (session.noted.cluster.submit properties workload)
        (session.cluster.submit properties workload) := follows_noting _ _
  have of_follows {α : Type} {x : Step (σ × List Event) α} {y : Step σ α}
      (h : Follows (State.map Prod.fst) Eq x y) :
      (x.run s).2.map Prod.fst = (y.run (s.map Prod.fst)).2 := by rw [h.run_eq]
  cases operation with
  | preflight => exact of_follows hmirrored.preflight
  | locateArtifact => exact of_follows (follows_onWorld hmirrored.locateArtifact)
  | planBaseline base => exact of_follows (hmirrored.planBaseline base)
  | planOffload base transport remoteMerge remoteSpill =>
    exact of_follows (hmirrored.planOffload base transport remoteMerge remoteSpill)
  | submit properties workload => exact of_follows (follows_onWorld (hsubmit properties workload))
  | runPoint workload point => exact of_follows (hmirrored.runPoint hsubmit workload point)
  | runMatrix workload points => exact of_follows (hmirrored.runMatrix hsubmit workload points)
  | close => cases hclose
  | elsewhere change => rfl

/-- Nothing has been started or stopped since the log was as given. -/
def Idle (log : List Event) (s : σ × List Event) : Prop :=
  ∃ later, s.2 = log ++ later ∧ Event.lifecycle later = []

theorem Idle.note {log : List Event} {s : σ × List Event} (h : Idle log s) (w : σ) {event : Event}
    (hevent : event.isLifecycle = false) : Idle log (w, s.2 ++ [event]) := by
  obtain ⟨later, hlog, hlater⟩ := h
  refine ⟨later ++ [event], by rw [hlog, List.append_assoc], ?_⟩
  rw [Event.lifecycle_append, hlater, Event.lifecycle, List.filter_cons, hevent]
  rfl

theorem sustains_idle_noted (fs : FileSystem σ) (log : List Event) :
    fs.noted.Sustains (Idle log) := by
  have hbeside : fs.beside.Sustains (Idle (σ := σ) log) :=
    fs.sustains_true.part Part.beside (fun _ _ => trivial) fun _ _ hs _ => hs
  exact hbeside.touching fun s hs => hs.note s.1 rfl

theorem sustains_idle (session : Session σ) (log : List Event) :
    session.noted.Sustains (Idle log) where
  clusterFs := sustains_idle_noted session.clusterFs log
  buildFs := sustains_idle_noted session.buildFs log
  submit _ _ := sustains_of_state fun _ hs => hs.note _ rfl

/-- The first close stops the servers and then the cluster; a later one calls nothing. -/
theorem noted_close (session : Session σ) (s : State σ) (log : List Event) :
    ∃ later, session.noted.close (s.beside log) = (session.close s).beside (log ++ later) ∧
      Event.Stops (!s.closed) later := by
  unfold close
  rcases hclosed : s.closed with _ | _
  · obtain ⟨stopped, halted, n, hshutDown⟩ := session.noted_shutDown hclosed log
    refine ⟨.serversStop stopped :: .clusterStop halted :: List.replicate n .storage, ?_, ?_⟩
    · rw [if_neg Bool.false_ne_true]
      refine (if_neg (ne_true_of_eq_false hclosed)).trans ?_
      change (⟨session.noted.shutDown (s.beside log), none, true, s.planned⟩ : State _) = _
      rw [hshutDown]
      rfl
    · have hremovals := congrArg ([.serversStop stopped, .clusterStop halted] ++ ·)
        (Event.lifecycle_storage n)
      exact .everything hremovals
  · refine ⟨[], ?_, .nothing rfl⟩
    rw [if_pos rfl, List.append_nil]
    exact if_pos hclosed

/-- What an operation adds to the log stops something only if it is the first close. -/
theorem noted_carryOut (session : Session σ) (operation : Operation σ) (s : State σ)
    (log : List Event) :
    (session.carryOut operation s).closed = (s.closed || operation.isClose) ∧
      ∃ later, session.noted.carryOut operation.beside (s.beside log) =
          (session.carryOut operation s).beside (log ++ later) ∧
        Event.Stops (!s.closed && operation.isClose) later := by
  -- An operation that is no close leaves the log idle; the world it leaves is that of the plain one.
  rcases hclose : operation.isClose with _ | _
  · have hmap := session.map_carryOut_noted hclose (s.beside log)
    have hkept : Keeping (Idle log) s.closed
        (session.noted.carryOut operation.beside (s.beside log)) := by
      refine (session.sustains_idle log).carryOut ?_ ?_
        ⟨⟨[], (List.append_nil log).symm, rfl⟩, rfl⟩
      · rw [isClose_beside, hclose]
      · intro change hchange
        cases operation <;> cases hchange
        exact fun _ hw => hw
    obtain ⟨⟨later, hlog, hlater⟩, hclosed⟩ := hkept
    change _ = session.carryOut operation s at hmap
    rw [← hmap, Bool.or_false, Bool.and_false]
    refine ⟨hclosed, later, ?_, .nothing hlater⟩
    rw [← hlog]
    rfl
  · obtain rfl : operation = .close := by cases operation <;> cases hclose; rfl
    rw [Bool.or_true, Bool.and_true]
    exact ⟨session.closed_close s, session.noted_close s log⟩

/-- So a life stops what belongs to the session once it is closed, and only once. -/
theorem noted_carryOutAll (session : Session σ) (operations : List (Operation σ)) (s : State σ)
    (log : List Event) :
    ∃ later, session.noted.carryOutAll (operations.map Operation.beside) (s.beside log) =
        (session.carryOutAll operations s).beside (log ++ later) ∧
      Event.Stops (!s.closed && operations.any Operation.isClose) later := by
  induction operations generalizing s log with
  | nil =>
    rw [List.any_nil, Bool.and_false]
    exact ⟨[], by rw [List.append_nil]; rfl, .nothing rfl⟩
  | cons operation operations ih =>
    obtain ⟨hclosed, early, hearly, hstops⟩ := session.noted_carryOut operation s log
    obtain ⟨late, hlate, hrest⟩ := ih (session.carryOut operation s) (log ++ early)
    refine ⟨early ++ late, ?_, ?_⟩
    · calc session.noted.carryOutAll ((operation :: operations).map Operation.beside)
            (s.beside log)
        _ = session.noted.carryOutAll (operations.map Operation.beside)
              ((session.carryOut operation s).beside (log ++ early)) :=
          congrArg (session.noted.carryOutAll (operations.map Operation.beside)) hearly
        _ = (session.carryOutAll (operation :: operations) s).beside (log ++ (early ++ late)) := by
          rw [hlate, List.append_assoc]
          rfl
    · -- Once the first operation has closed the session, no close is due in the rest.
      rw [hclosed] at hrest
      have hboth := hstops.append hrest (by cases s.closed <;> cases operation.isClose <;> rfl)
      have hdue : (!s.closed && operation.isClose ||
          !(s.closed || operation.isClose) && operations.any Operation.isClose) =
          (!s.closed && (operation :: operations).any Operation.isClose) := by
        rw [List.any_cons]
        cases s.closed <;> cases operation.isClose <;> rfl
      rwa [hdue] at hboth

/-- A session notes its calls without doing anything else than before. The log of a launch has one
of four forms. After a launch that succeeded nothing is started any more, nothing is stopped up to
the first close, and that close stops the servers once and then the cluster. -/
theorem started_parts_are_stopped_once (parts : Parts σ) (host : Host σ) (id : String) (w : σ) :
    ∃ result v opening, (launch parts host id).run w = (result, v) ∧
      (launch parts.noted host.beside id).run (w, []) = (result.map noted, (v, opening)) ∧
      Launched parts w result v opening ∧
      ∀ session, result = .ok session → ∀ operations : List (Operation σ), ∃ later,
        session.noted.carryOutAll (operations.map Operation.beside)
            (State.initial (v, opening)) =
          (session.carryOutAll operations (State.initial v)).beside (opening ++ later) ∧
        Event.Stops (operations.any Operation.isClose) later := by
  obtain ⟨opening, hlaunch, hlaunched⟩ := noted_launch parts host id w
  refine ⟨_, _, opening, rfl, hlaunch, hlaunched, fun session _ operations => ?_⟩
  exact session.noted_carryOutAll operations (State.initial _) opening

/-- The parts of the trial. -/
def trialParts : Parts (Memory × ClusterLog) where
  settings := none
  cluster := some trial.cluster
  servers := some trial.servers
  clusterFs := some trial.clusterFs
  buildFs := none
  coordinator := none
  serverOverrides := none

/-- The trial is launched, closed and dropped: what was started is stopped. -/
theorem trial_parts_are_stopped_once :
    ∃ session v opening later,
      (launch trialParts trial.host "trial").run (.empty, .empty) = (.ok session, v) ∧
      Launched trialParts (.empty, .empty) (.ok session) v opening ∧
      session.noted.carryOutAll [.close, .drop] (State.initial (v, opening)) =
        (session.carryOutAll [.close, .drop] (State.initial v)).beside (opening ++ later) ∧
      Event.Stops true later := by
  obtain ⟨result, v, opening, hrun, _, hlaunched, hlife⟩ :=
    started_parts_are_stopped_once trialParts trial.host "trial" (.empty, .empty)
  obtain ⟨session, rfl⟩ : ∃ session, result = .ok session := ⟨_, congrArg Prod.fst hrun.symm⟩
  obtain ⟨later, hclosed, hstops⟩ := hlife session rfl [.close, .drop]
  exact ⟨session, v, opening, later, hrun, hlaunched, hclosed, hstops⟩

end Session
end OffloadCheck
