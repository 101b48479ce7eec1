import OffloadCheck.Proofs.Copies

/-! # Staging on the storage of a session

The build and the cluster of a session keep their files apart, in one memory tree or on one disk.
Staging copies the artifact faithfully in each of these layouts, unless on a disk source and
destination lead to one file: creating the destination empties that file before it is read. -/
namespace OffloadCheck

open OffloadCheck.Action

variable {σ τ : Type}

/-! ## Filesystems in a part of a world -/

namespace Part

variable (part : Part σ τ) {fs : FileSystem τ} {p : Path} {s t : σ}

theorem reads_iff {bytes : Bytes} :
    (part.fileSystem fs).Reads p s bytes ↔ fs.Reads p (part.get s) bytes := by
  have hcontents : (((part.fileSystem fs).contents p).run s).1 =
      ((fs.contents p).run (part.get s)).1 := by
    rw [part.run_eq ((part.follows_fileSystem fs s).contents p)]
  rw [FileSystem.Reads, hcontents, FileSystem.Reads]

theorem fills_create {w : Writer σ}
    (h : ((part.fileSystem fs).create p).run s = (.ok w, t)) :
    ∃ v, (fs.create p).run (part.get s) = (.ok v, part.get t) ∧
      ∀ {Holds : Bytes → τ → Prop}, v.Fills Holds → w.Fills fun data u => Holds data (part.get u) := by
  obtain ⟨v, hcreate, rfl, _⟩ := part.create_eq_ok h
  refine ⟨v, hcreate, fun hfills => ⟨hfills.position, ?_⟩⟩
  intro data u bytes hu
  obtain ⟨x, hrun, hx⟩ := hfills.writeAt bytes hu
  refine ⟨part.put x u, ?_, ?_⟩
  · rw [run_within, hrun]
  · rw [part.get_put]
    exact hx

end Part

/-! ## Stores that are apart -/

namespace Store

variable {store other : Store σ} {p : Path} {s t u : σ}

theorem Untouched.refl (store : Store σ) (s : σ) : store.Untouched s s := by
  cases store <;> rfl

theorem Untouched.trans (h : store.Untouched s t) (h' : store.Untouched t u) :
    store.Untouched s u := by
  cases store <;> exact Eq.trans h' h

/-- The disk, if it is one, is sound. -/
def Sound : Store σ → σ → Prop
  | .memory _, _ => True
  | .disk part _, s => (part.get s).Sound

/-- Whatever is done to the tree or the disk leaves the other store alone. -/
def Spares : Store σ → Store σ → Prop
  | .memory part, other => ∀ m s, other.Untouched s (part.put m s)
  | .disk part _, other => ∀ d s, other.Untouched s (part.put d s)

theorem sustains_untouched (h : store.Spares other) (s : σ) :
    store.fileSystem.Sustains (other.Untouched s) := by
  cases store with
  | memory part =>
    exact Memory.fileSystem.sustains_true.part part (fun _ _ => trivial) fun m u hu _ =>
      hu.trans (h m u)
  | disk part store =>
    exact store.fileSystem.sustains_true.part part (fun _ _ => trivial) fun d u hu _ =>
      hu.trans (h d u)

theorem sound_of_untouched (h : store.Untouched s t) (hs : store.Sound s) : store.Sound t := by
  cases store with
  | memory part => trivial
  | disk part store =>
    have hget : part.get t = part.get s := h
    rw [Sound, hget]
    exact hs

theorem reads_of_untouched {bytes : Bytes} (h : store.Untouched s t)
    (hs : store.fileSystem.Reads p s bytes) : store.fileSystem.Reads p t bytes := by
  cases store with
  | memory part =>
    have hget : part.get t = part.get s := h
    rw [fileSystem, part.reads_iff, hget]
    exact part.reads_iff.1 hs
  | disk part store =>
    have hget : part.get t = part.get s := h
    rw [fileSystem, part.reads_iff, hget]
    exact part.reads_iff.1 hs

/-- As long as a store is left alone, an opened stream shows what was read when it was opened. -/
theorem openFile_eq_ok (hs : store.Sound s) {stream : σ → ByteStream}
    (h : (store.fileSystem.openFile p).run s = (.ok stream, t)) :
    ∃ bytes, store.fileSystem.Reads p s bytes ∧ store.fileSystem.Reads p t bytes ∧
      ∀ u, store.Untouched t u → (stream u).content = bytes := by
  cases store with
  | memory part =>
    obtain ⟨shown, hopen, rfl⟩ := part.openFile_eq_ok h
    obtain ⟨data, hdata, rfl, hsame⟩ := Memory.openFile_eq_ok hopen
    refine ⟨data, part.reads_iff.2 (Memory.reads_iff.2 hdata), ?_, ?_⟩
    · rw [fileSystem, part.reads_iff, Memory.reads_iff, hsame.data?]
      exact hdata
    · exact fun _ _ => ByteStream.content_ofBytes data
  | disk part store =>
    obtain ⟨shown, hopen, rfl⟩ := part.openFile_eq_ok h
    obtain ⟨hstays, place, id, data, hfind, rfl⟩ := store.openFile_eq_ok hopen
    have hreads := store.reads_of_find hs hfind
    refine ⟨data, part.reads_iff.2 hreads, part.reads_iff.2 (hstays ▸ hreads), fun u hu => ?_⟩
    have hfile := Disk.Sound.fileWithId? hs (Disk.find_eq_ok_iff.1 hfind).2.2.1
    have hget : part.get u = part.get s := Eq.trans hu hstays
    simp [hget, hfile]

theorem fills_create (hs : store.Sound s) {w : Writer σ}
    (h : (store.fileSystem.create p).run s = (.ok w, t)) :
    ∃ Holds : Bytes → σ → Prop, w.Fills Holds ∧ Holds [] t ∧
      ∀ {data u}, Holds data u → store.fileSystem.Reads p u data := by
  cases store with
  | memory part =>
    obtain ⟨v, hcreate, hfills⟩ := part.fills_create h
    obtain ⟨hv, ht⟩ := Memory.fills_create hcreate
    refine ⟨_, hfills hv, ht, fun {data u} hu => ?_⟩
    rw [fileSystem, part.reads_iff, Memory.reads_iff, hu.data, if_pos rfl]
  | disk part store =>
    obtain ⟨v, hcreate, hfills⟩ := part.fills_create h
    obtain ⟨place, id, hv, ht⟩ := store.fills_create hs hcreate
    refine ⟨_, hfills hv, ht, fun {data u} hu => ?_⟩
    rw [fileSystem, part.reads_iff, store.reads_iff hu.sound]
    exact ⟨place, id, hu.leads⟩

theorem run_list (store : Store σ) (p : Path) (s : σ) :
    ((store.fileSystem.list p).run s).2 = s := by
  cases store with
  | memory part => exact part.put_get s
  | disk part store =>
    have hlist := (store.sustains_list (· = part.get s) p (part.get s) rfl).1
    change part.put ((store.fileSystem.list p).run (part.get s)).2 s = s
    rw [hlist, part.put_get]

/-- A copy between stores that spare each other is faithful. -/
theorem transfer_eq_ok {src dst : Path} (hstore : store.Spares other) (hother : other.Spares store)
    (hs : store.Sound s) (hs' : other.Sound s) {n : Nat}
    (h : (store.fileSystem.transfer src other.fileSystem dst).run s = (.ok n, t)) :
    ∃ bytes, store.fileSystem.Reads src s bytes ∧ store.fileSystem.Reads src t bytes ∧
      other.fileSystem.Reads dst t bytes := by
  obtain ⟨stream, u, w, v, hopen, hcreate, hwrite⟩ := FileSystem.transfer_eq_ok h
  obtain ⟨bytes, hbefore, hopened, hshown⟩ := openFile_eq_ok hs hopen
  have huntouched := ((sustains_untouched hstore s).openFile src s (.refl other s)).1
  rw [hopen] at huntouched
  obtain ⟨Holds, hfills, hv, hholds⟩ := fills_create (sound_of_untouched huntouched hs') hcreate
  have hspares := sustains_untouched hother u
  have hcreated := (hspares.create dst u (.refl store u)).1
  rw [hcreate] at hcreated
  have hwritten := (w.sustains_writeRefills (hspares.writeAt hcreate) 0 (stream v).refills v
    hcreated).1
  rw [hwrite] at hwritten
  have htarget := hholds (hfills.of_writeRefills hv hwrite)
  rw [hshown v hcreated] at htarget
  exact ⟨bytes, hbefore, reads_of_untouched hwritten hopened, htarget⟩

end Store

/-! ## Layouts -/

/-- Where two filesystems keep their files. -/
inductive Layout : FileSystem σ → FileSystem σ → Type
  /-- In two stores of which neither is changed by what is done to the other. -/
  | apart (build cluster : Store σ) :
      build.Spares cluster → cluster.Spares build → Layout build.fileSystem cluster.fileSystem
  /-- In one memory tree. -/
  | inMemory (tree : Part σ Memory) :
      Layout (tree.fileSystem Memory.fileSystem) (tree.fileSystem Memory.fileSystem)
  /-- On one disk, where each may resolve its paths beneath a root of its own. -/
  | onDisk (disk : Part σ Disk) (build cluster : LocalStore) :
      Layout (disk.fileSystem build.fileSystem) (disk.fileSystem cluster.fileSystem)

namespace Layout

variable {source target : FileSystem σ} {src dst : Path} {s t : σ}

def Sound : Layout source target → σ → Prop
  | .apart build cluster _ _, s => build.Sound s ∧ cluster.Sound s
  | .inMemory _, _ => True
  | .onDisk disk _ _, s => (disk.get s).Sound

/-- On a disk the two paths lead to one place. -/
def Clash (src dst : Path) : Layout source target → σ → Prop
  | .apart .., _ => False
  | .inMemory _, _ => False
  | .onDisk disk build cluster, s =>
      Disk.Alias (build.resolve src) (cluster.resolve dst) (disk.get s)

theorem lasting (layout : Layout source target) : target.Lasting := by
  cases layout with
  | apart build cluster => exact cluster.lasting_fileSystem
  | inMemory tree => exact Memory.lasting_fileSystem.part tree
  | onDisk disk build cluster => exact cluster.lasting_fileSystem.part disk

/-- Listing leaves everything as it is. -/
theorem run_list (layout : Layout source target) (p : Path) (s : σ) :
    ((source.list p).run s).2 = s := by
  cases layout with
  | apart build cluster => exact build.run_list p s
  | inMemory tree => exact (Store.memory tree).run_list p s
  | onDisk disk build cluster => exact (Store.disk disk build).run_list p s

/-- A copy is faithful unless its two paths clash; what they lead to then is empty. -/
theorem transfer_eq_ok (layout : Layout source target) (hs : layout.Sound s) {n : Nat}
    (h : (source.transfer src target dst).run s = (.ok n, t)) :
    ∃ bytes, source.Reads src s bytes ∧
      (layout.Clash src dst t → source.Reads src t [] ∧ target.Reads dst t []) ∧
      (¬ layout.Clash src dst t → source.Reads src t bytes ∧ target.Reads dst t bytes) := by
  cases layout with
  | apart build cluster hcluster hbuild =>
    obtain ⟨bytes, hbefore, hsource, htarget⟩ := build.transfer_eq_ok hcluster hbuild hs.1 hs.2 h
    exact ⟨bytes, hbefore, False.elim, fun _ => ⟨hsource, htarget⟩⟩
  | inMemory tree =>
    have hfollows := tree.follows_fileSystem Memory.fileSystem s
    rw [tree.run_eq (hfollows.transfer hfollows src dst)] at h
    obtain ⟨hresult, rfl⟩ := Prod.mk.inj h
    obtain ⟨bytes, hbefore, hsource, htarget⟩ := Memory.transfer_eq_ok (Prod.ext hresult rfl)
    refine ⟨bytes, tree.reads_iff.2 hbefore, False.elim, fun _ => ?_⟩
    rw [tree.reads_iff, tree.reads_iff, tree.get_put]
    exact ⟨hsource, htarget⟩
  | onDisk disk build cluster =>
    have hfollows := disk.follows_fileSystem build.fileSystem s
    have hfollows' := disk.follows_fileSystem cluster.fileSystem s
    rw [disk.run_eq (hfollows.transfer hfollows' src dst)] at h
    obtain ⟨hresult, rfl⟩ := Prod.mk.inj h
    obtain ⟨bytes, hbefore, hafter⟩ := build.transfer_eq_ok cluster hs (Prod.ext hresult rfl)
    refine ⟨bytes, disk.reads_iff.2 hbefore, ?_⟩
    simp only [Clash, disk.reads_iff, disk.get_put]
    exact hafter

end Layout

/-! ## Staging -/

namespace Session

variable {session : Session σ} {artifact : StagedArtifact} {s t : State σ}

/-- A preflight that stages an artifact leaves it in the slot, and another one changes nothing. The
artifact has been copied faithfully and its source is as it was exactly if the two do not clash or
there was nothing to copy; where they clash both are empty afterwards. -/
theorem staged_faithfully_iff (layout : Layout session.buildFs session.clusterFs)
    (henvironment : ∀ name w w', session.host.isSet name w = session.host.isSet name w')
    (hsound : layout.Sound s.world) (hheld : s.held session.clusterFs = none)
    (h : session.preflight.run s = (.ok artifact, t)) :
    let built := session.settings.artifactDir.join artifact.fileName
    artifact.sharedPath = session.settings.sharedArtifactDir.join artifact.fileName ∧
      t.staged = some artifact ∧ session.preflight.run t = (.ok artifact, t) ∧
      ∃ bytes, session.buildFs.Reads built s.world bytes ∧
        (session.clusterFs.Reads artifact.sharedPath t.world bytes ∧
          session.buildFs.Reads built t.world bytes ↔
            (layout.Clash built artifact.sharedPath t.world → bytes = [])) ∧
        (layout.Clash built artifact.sharedPath t.world →
          session.clusterFs.Reads artifact.sharedPath t.world [] ∧
            session.buildFs.Reads built t.world []) := by
  have hready := ready_of_preflight layout.lasting henvironment h
  obtain ⟨_, hstaged⟩ := preflight_eq_ok h
  obtain ⟨hheld', _⟩ | ⟨_, hstage, _⟩ := stagedOr_eq_ok hstaged
  · rw [hheld] at hheld'
    cases hheld'
  obtain ⟨w, n, hlocate, hshared, htransfer⟩ := stageArtifact_eq_ok hstage
  obtain ⟨listing, hlist, _⟩ := locateArtifact_eq_ok hlocate
  have hw := layout.run_list session.settings.artifactDir s.world
  rw [hlist] at hw
  subst hw
  obtain ⟨bytes, hbefore, hclash, hclear⟩ := layout.transfer_eq_ok hsound htransfer
  refine ⟨hshared, hready.staged, hready.run_preflight, bytes, hbefore, ⟨?_, ?_⟩, ?_⟩
  · intro hreads hc
    exact hreads.1.eq (hclash hc).2
  · intro hempty
    by_cases hc : layout.Clash (session.settings.artifactDir.join artifact.fileName)
        artifact.sharedPath t.world
    · rw [hempty hc]
      exact (hclash hc).symm
    · exact (hclear hc).symm
  · exact fun hc => (hclash hc).symm

/-! ## Builds on the disk of the cluster -/

/-- A disk whose paths are used as given. -/
def plainStore : LocalStore := ⟨none⟩

/-- A session on one disk, with its builds in a directory. -/
def shelf (dir : Path) : Session Disk where
  id := "shelf"
  settings := { Settings.default with artifactDir := dir, requiredEnv := [] }
  host := ⟨fun _ _ => true, fun _ => default, Text.ofNat⟩
  cluster := ⟨fun _ => pure (), pure (), fun _ => .empty, fun ps _ => pure ⟨0, ps⟩⟩
  servers := ⟨fun _ => pure (), fun _ => pure (), fun _ => "host:1", pure ()⟩
  clusterFs := Part.whole.fileSystem plainStore.fileSystem
  buildFs := Part.whole.fileSystem plainStore.fileSystem
  quorum := "host:1"

def shelfArtifact : StagedArtifact := ⟨"rss-client-mr.jar", ⟨"/rss.jar/rss-client-mr.jar"⟩⟩

/-- A disk with a build in a directory below its top. -/
def builtDisk (dir : String) (data : Bytes) : Disk :=
  ⟨(SortedMap.empty.insert [dir] .dir).insert [dir, "rss-client-mr.jar"] (.file 0 data), 1⟩

/-- The disk with a build, and a file that has been created for its copy. -/
def stagedDisk (data : Bytes) : Disk :=
  ⟨((builtDisk "build" [1, 2]).nodes.insert ["rss.jar"] .dir).insert
    ["rss.jar", "rss-client-mr.jar"] (.file 1 data), 2⟩

theorem sound_builtDisk : (builtDisk "build" [1, 2]).Sound := by
  have hdir : (Disk.empty.put ["build"] .dir).Sound := Disk.sound_empty.put_dir (by decide)
  have hfresh : Disk.Empties (Disk.empty.put ["build"] .dir) ["build", "rss-client-mr.jar"] 0
      (builtDisk "build" []) := .fresh (by decide) rfl
  have hnode : (builtDisk "build" []).node? ["build", "rss-client-mr.jar"] =
      some (.file 0 []) := rfl
  exact (hdir.empties hfresh).put_file hnode [1, 2]

theorem run_preflight_shelf {dir : Path} {d d' : Disk} {n : Nat}
    (hlist : (plainStore.fileSystem.list dir).run d =
      (.ok [Entry.file "rss-client-mr.jar" 2], d))
    (htransfer : (plainStore.fileSystem.transfer (dir.join "rss-client-mr.jar")
      plainStore.fileSystem shelfArtifact.sharedPath).run d = (.ok n, d')) :
    (shelf dir).preflight.run (.initial d) =
      (.ok shelfArtifact, ⟨d', some shelfArtifact, false, 0⟩) := by
  have hadmits : (shelf dir).Admits (.initial d) := ⟨rfl, rfl⟩
  have hname : (shelf dir).locateArtifact.run d = (.ok "rss-client-mr.jar", d) :=
    run_locateArtifact hlist
      (by simp [shelf, Settings.default, pickArtifact?, Manifest.byName, Entry.file])
  have hjoin : Settings.default.sharedArtifactDir.join "rss-client-mr.jar" =
      shelfArtifact.sharedPath := by decide
  have hshared : (shelf dir).settings.sharedArtifactDir.join "rss-client-mr.jar" =
      shelfArtifact.sharedPath := hjoin
  have hfollows := Part.whole.follows_fileSystem plainStore.fileSystem d
  have hwhole := Part.run_whole (hfollows.transfer hfollows (dir.join "rss-client-mr.jar")
    shelfArtifact.sharedPath)
  have hcopy : ((shelf dir).buildFs.transfer (dir.join "rss-client-mr.jar") (shelf dir).clusterFs
      ((shelf dir).settings.sharedArtifactDir.join "rss-client-mr.jar")).run d = (.ok n, d') := by
    rw [hshared]
    exact hwhole.trans htransfer
  have hstage := run_stageArtifact_of_ok hname hcopy
  rw [hshared] at hstage
  have hheld : (State.initial d).held (shelf dir).clusterFs = none := rfl
  rw [hadmits.run_preflight]
  exact run_stagedOr_of_stage hheld hstage

theorem not_alias_stagedDisk : ¬ Disk.Alias (plainStore.resolve ⟨"/build/rss-client-mr.jar"⟩)
    (plainStore.resolve shelfArtifact.sharedPath) (stagedDisk [1, 2]) := by
  intro halias
  obtain ⟨place, _, _, hbuild, hshared⟩ := halias
  have hbuild' : (stagedDisk [1, 2]).find (plainStore.resolve ⟨"/build/rss-client-mr.jar"⟩) =
      .ok (["build", "rss-client-mr.jar"], .file 0 [1, 2]) := rfl
  have hshared' : (stagedDisk [1, 2]).find (plainStore.resolve shelfArtifact.sharedPath) =
      .ok (["rss.jar", "rss-client-mr.jar"], .file 1 [1, 2]) := rfl
  rw [hbuild'] at hbuild
  rw [hshared'] at hshared
  have hplaces := (congrArg Prod.fst (Except.ok.inj hbuild)).trans
    (congrArg Prod.fst (Except.ok.inj hshared)).symm
  exact absurd hplaces (by decide)

/-- A build in a directory of its own is copied faithfully, and the copy is not made again. -/
theorem build_elsewhere_is_kept :
    ∃ t, (shelf ⟨"/build"⟩).preflight.run (.initial (builtDisk "build" [1, 2])) =
        (.ok shelfArtifact, t) ∧
      (shelf ⟨"/build"⟩).preflight.run t = (.ok shelfArtifact, t) ∧
      (shelf ⟨"/build"⟩).clusterFs.Reads shelfArtifact.sharedPath t.world [1, 2] ∧
      (shelf ⟨"/build"⟩).buildFs.Reads ⟨"/build/rss-client-mr.jar"⟩ t.world [1, 2] := by
  have hfind : (builtDisk "build" [1, 2]).find (plainStore.resolve ⟨"/build/rss-client-mr.jar"⟩) =
      .ok (["build", "rss-client-mr.jar"], .file 0 [1, 2]) := rfl
  have hcreate : (plainStore.fileSystem.create shelfArtifact.sharedPath).run
      (builtDisk "build" [1, 2]) = (.ok ⟨0, Disk.writeAt 1⟩, stagedDisk []) := rfl
  have hcopy := FileSystem.run_transfer_of_ok (plainStore.run_openFile hfind) hcreate rfl rfl
  have hrun : (shelf ⟨"/build"⟩).preflight.run (.initial (builtDisk "build" [1, 2])) =
      (.ok shelfArtifact, ⟨stagedDisk [1, 2], some shelfArtifact, false, 0⟩) :=
    run_preflight_shelf rfl hcopy
  let layout : Layout (shelf ⟨"/build"⟩).buildFs (shelf ⟨"/build"⟩).clusterFs :=
    .onDisk Part.whole plainStore plainStore
  have hsound : layout.Sound (State.initial (builtDisk "build" [1, 2])).world := sound_builtDisk
  obtain ⟨_, _, hagain, bytes, hbefore, hfaithful, _⟩ :=
    staged_faithfully_iff layout (fun _ _ _ => rfl) hsound rfl hrun
  have hbytes : (shelf ⟨"/build"⟩).buildFs.Reads ⟨"/build/rss-client-mr.jar"⟩
      (builtDisk "build" [1, 2]) [1, 2] := rfl
  obtain rfl := hbefore.eq hbytes
  obtain ⟨hcopied, hkept⟩ := hfaithful.2 fun hclash => absurd hclash not_alias_stagedDisk
  exact ⟨_, hrun, hagain, hcopied, hkept⟩

/-- A build in the directory that artifacts are copied to is lost: the preflight succeeds and leaves
an empty file. -/
theorem build_in_place_is_lost :
    (shelf ⟨"/rss.jar"⟩).settings.validate = .ok () ∧
      (shelf ⟨"/rss.jar"⟩).preflight.run (.initial (builtDisk "rss.jar" [1, 2])) =
        (.ok shelfArtifact, ⟨builtDisk "rss.jar" [], some shelfArtifact, false, 0⟩) ∧
      (shelf ⟨"/rss.jar"⟩).buildFs.Reads shelfArtifact.sharedPath (builtDisk "rss.jar" [1, 2])
        [1, 2] ∧
      (shelf ⟨"/rss.jar"⟩).clusterFs.Reads shelfArtifact.sharedPath (builtDisk "rss.jar" []) [] := by
  have hfind : (builtDisk "rss.jar" [1, 2]).find (plainStore.resolve shelfArtifact.sharedPath) =
      .ok (["rss.jar", "rss-client-mr.jar"], .file 0 [1, 2]) := rfl
  have hcreate : (plainStore.fileSystem.create shelfArtifact.sharedPath).run
      (builtDisk "rss.jar" [1, 2]) = (.ok ⟨0, Disk.writeAt 0⟩, builtDisk "rss.jar" []) := rfl
  have hcopy := FileSystem.run_transfer_of_ok (plainStore.run_openFile hfind) hcreate rfl rfl
  exact ⟨rfl, run_preflight_shelf rfl hcopy, rfl, rfl⟩

end Session
end OffloadCheck
