import OffloadCheck.Proofs.Comparison
import OffloadCheck.Proofs.Encoding
import OffloadCheck.Proofs.Staging

/-! # The choice of the client artifact

The build directory may hold other files, directories with the name of an artifact, and several
entries of one name, listed in any order. The artifact is the least name, in the order of bytes, of
the files that begin as configured; so nothing else of a listing has a part in the choice. -/
namespace OffloadCheck

namespace Entry

/-- A file whose name begins with `start`. -/
structure IsArtifact (start : String) (e : Entry) : Prop where
  file : e.isDir = false
  starts : start.toList <+: e.name.toList

/-- The name of an artifact of a listing that comes before those of all others. -/
structure LeastArtifact (start : String) (listing : List Entry) (name : String) : Prop where
  found : ∃ e ∈ listing, e.IsArtifact start ∧ e.name = name
  least : ∀ e ∈ listing, e.IsArtifact start → Text.encode name ≤ Text.encode e.name

/-- One listing after another: the entries in another order, with entries added and left out that
are no artifacts. -/
inductive Reselected (start : String) : List Entry → List Entry → Prop
  | reordered {xs ys : List Entry} : xs.Perm ys → Reselected start xs ys
  | added {e : Entry} (xs : List Entry) : ¬ e.IsArtifact start → Reselected start xs (e :: xs)
  | left {e : Entry} (xs : List Entry) : ¬ e.IsArtifact start → Reselected start (e :: xs) xs
  | trans {xs ys zs : List Entry} :
      Reselected start xs ys → Reselected start ys zs → Reselected start xs zs

variable {start name name' : String} {xs ys listing : List Entry}

theorem LeastArtifact.eq (h : LeastArtifact start listing name)
    (h' : LeastArtifact start listing name') : name = name' := by
  obtain ⟨e, he, hartifact, rfl⟩ := h.found
  obtain ⟨e', he', hartifact', rfl⟩ := h'.found
  exact String.le_antisymm (Text.encode_le_encode_iff.1 (h.least e' he' hartifact'))
    (Text.encode_le_encode_iff.1 (h'.least e he hartifact))

/-- The artifacts of both listings are the same. -/
theorem Reselected.mem_iff (h : Reselected start xs ys) {e : Entry} (he : e.IsArtifact start) :
    e ∈ ys ↔ e ∈ xs := by
  induction h with
  | reordered hperm => exact hperm.mem_iff.symm
  | added xs hother =>
    rw [List.mem_cons, or_iff_right]
    rintro rfl
    exact hother he
  | left xs hother =>
    rw [List.mem_cons, or_iff_right]
    rintro rfl
    exact hother he
  | trans _ _ ih ih' => exact ih'.trans ih

theorem Reselected.leastArtifact_iff (h : Reselected start xs ys) :
    LeastArtifact start ys name ↔ LeastArtifact start xs name := by
  constructor
  · intro hleast
    obtain ⟨e, he, hartifact, hname⟩ := hleast.found
    exact ⟨⟨e, (h.mem_iff hartifact).1 he, hartifact, hname⟩,
      fun e he hartifact => hleast.least e ((h.mem_iff hartifact).2 he) hartifact⟩
  · intro hleast
    obtain ⟨e, he, hartifact, hname⟩ := hleast.found
    exact ⟨⟨e, (h.mem_iff hartifact).2 he, hartifact, hname⟩,
      fun e he hartifact => hleast.least e ((h.mem_iff hartifact).1 he) hartifact⟩

end Entry

namespace Session

open Entry

variable {σ τ : Type} {start name : String} {listing xs ys : List Entry}

theorem isArtifact_iff {e : Entry} :
    (!e.isDir && start.toList.isPrefixOf e.name.toList) = true ↔ e.IsArtifact start := by
  rw [Bool.and_eq_true, Bool.not_eq_true', List.isPrefixOf_iff_prefix]
  exact ⟨fun h => ⟨h.1, h.2⟩, fun h => ⟨h.file, h.starts⟩⟩

theorem leastArtifact_of_pick (h : pickArtifact? start listing = some name) :
    LeastArtifact start listing name := by
  obtain ⟨e, hfind, rfl⟩ := Option.map_eq_some_iff.1 h
  obtain ⟨hartifact, before, after, hsplit, hbefore⟩ := List.find?_eq_some_iff_append.1 hfind
  have hperm := Manifest.byName_perm listing
  have hsorted := Manifest.pairwise_byName listing
  rw [hsplit] at hperm hsorted
  refine ⟨⟨e, hperm.subset (by simp), isArtifact_iff.1 hartifact, rfl⟩, ?_⟩
  intro other hother hartifact'
  rw [Text.encode_le_encode_iff]
  -- In the sorted listing another artifact is the one found or stands behind it.
  rcases List.mem_append.1 (hperm.symm.subset hother) with hmem | hmem
  · have hnot := hbefore other hmem
    rw [isArtifact_iff.2 hartifact'] at hnot
    cases hnot
  · rcases List.mem_cons.1 hmem with rfl | hmem
    · exact String.le_refl _
    · exact (List.pairwise_cons.1 (List.pairwise_append.1 hsorted).2.1).1 other hmem

theorem pickArtifact?_eq_none_iff :
    pickArtifact? start listing = none ↔ ∀ e ∈ listing, ¬ e.IsArtifact start := by
  rw [pickArtifact?, Option.map_eq_none_iff, List.find?_eq_none]
  constructor
  · intro h e he hartifact
    exact h e ((Manifest.byName_perm listing).symm.subset he) (isArtifact_iff.2 hartifact)
  · intro h e he hartifact
    exact h e ((Manifest.byName_perm listing).subset he) (isArtifact_iff.1 hartifact)

theorem pickArtifact?_eq_some_iff :
    pickArtifact? start listing = some name ↔ LeastArtifact start listing name := by
  constructor
  · exact leastArtifact_of_pick
  · intro h
    cases hpick : pickArtifact? start listing with
    | none =>
      obtain ⟨e, he, hartifact, _⟩ := h.found
      exact absurd hartifact (pickArtifact?_eq_none_iff.1 hpick e he)
    | some found => rw [(leastArtifact_of_pick hpick).eq h]

theorem pickArtifact?_reselected (h : Reselected start xs ys) :
    pickArtifact? start ys = pickArtifact? start xs := by
  refine Option.ext fun name => ?_
  rw [pickArtifact?_eq_some_iff, pickArtifact?_eq_some_iff, h.leastArtifact_iff]

/-! ## Locating -/

variable {session : Session σ} {w w' : σ}

/-- The refusal of a build directory that cannot be listed. -/
def unlisted (session : Session σ) (e : StorageError) : Failure :=
  .configuration ("cannot list artifact directory '" ++ session.settings.artifactDir.text ++ "': " ++
    e.message)

/-- The refusal of a build directory that holds no artifact. -/
def unbuilt (session : Session σ) : Failure :=
  .configuration ("no artifact starting with '" ++ session.settings.artifactPrefix ++ "' in '" ++
    session.settings.artifactDir.text ++ "'")

theorem run_locateArtifact_of_error {e : StorageError}
    (h : (session.buildFs.list session.settings.artifactDir).run w = (.error e, w')) :
    session.locateArtifact.run w = (.error (session.unlisted e), w') := by
  unfold locateArtifact
  exact Action.run_bind_of_error (Action.run_mapError_of_error h _)

theorem run_locateArtifact_of_ok
    (h : (session.buildFs.list session.settings.artifactDir).run w = (.ok listing, w')) :
    session.locateArtifact.run w =
      ((pickArtifact? session.settings.artifactPrefix listing).elim (.error session.unbuilt) .ok,
        w') := by
  unfold locateArtifact
  rw [Action.run_bind_of_ok (Action.run_mapError_of_ok h _)]
  cases pickArtifact? session.settings.artifactPrefix listing with
  | none => rfl
  | some name => rfl

theorem locateArtifact_eq_ok_iff : session.locateArtifact.run w = (.ok name, w') ↔
    ∃ listing, (session.buildFs.list session.settings.artifactDir).run w = (.ok listing, w') ∧
      LeastArtifact session.settings.artifactPrefix listing name := by
  constructor
  · intro h
    obtain ⟨listing, hlist, hpick⟩ := locateArtifact_eq_ok h
    exact ⟨listing, hlist, leastArtifact_of_pick hpick⟩
  · rintro ⟨listing, hlist, hleast⟩
    exact run_locateArtifact hlist (pickArtifact?_eq_some_iff.2 hleast)

theorem exists_locateArtifact_iff
    (h : (session.buildFs.list session.settings.artifactDir).run w = (.ok listing, w')) :
    (∃ name, session.locateArtifact.run w = (.ok name, w')) ↔
      ∃ e ∈ listing, e.IsArtifact session.settings.artifactPrefix := by
  constructor
  · rintro ⟨name, hrun⟩
    obtain ⟨found, hfound, hleast⟩ := locateArtifact_eq_ok_iff.1 hrun
    rw [h] at hfound
    cases hfound
    obtain ⟨e, he, hartifact, _⟩ := hleast.found
    exact ⟨e, he, hartifact⟩
  · rintro ⟨e, he, hartifact⟩
    cases hpick : pickArtifact? session.settings.artifactPrefix listing with
    | none => exact absurd hartifact (pickArtifact?_eq_none_iff.1 hpick e he)
    | some name => exact ⟨name, run_locateArtifact h hpick⟩

/-- Why no artifact is located: the directory cannot be listed or holds none. -/
theorem locateArtifact_eq_error_iff {failure : Failure} :
    session.locateArtifact.run w = (.error failure, w') ↔
      (∃ e, (session.buildFs.list session.settings.artifactDir).run w = (.error e, w') ∧
        failure = session.unlisted e) ∨
      ∃ listing, (session.buildFs.list session.settings.artifactDir).run w = (.ok listing, w') ∧
        (∀ e ∈ listing, ¬ e.IsArtifact session.settings.artifactPrefix) ∧
        failure = session.unbuilt := by
  constructor
  · intro h
    rcases hlist : (session.buildFs.list session.settings.artifactDir).run w with
      ⟨e | listing, u⟩
    · rw [run_locateArtifact_of_error hlist] at h
      cases h
      exact .inl ⟨e, rfl, rfl⟩
    · rw [run_locateArtifact_of_ok hlist] at h
      cases hpick : pickArtifact? session.settings.artifactPrefix listing with
      | none =>
        rw [hpick] at h
        cases h
        exact .inr ⟨listing, rfl, pickArtifact?_eq_none_iff.1 hpick, rfl⟩
      | some name =>
        rw [hpick] at h
        cases h
  · rintro (⟨e, hlist, rfl⟩ | ⟨listing, hlist, hnone, rfl⟩)
    · exact run_locateArtifact_of_error hlist
    · rw [run_locateArtifact_of_ok hlist, pickArtifact?_eq_none_iff.2 hnone]
      rfl

/-- Sessions of the same settings choose alike from listings of the same artifacts. -/
theorem locateArtifact_reselected {other : Session τ} {v v' : τ}
    (hsettings : other.settings = session.settings)
    (hlist : (session.buildFs.list session.settings.artifactDir).run w = (.ok xs, w'))
    (hlist' : (other.buildFs.list other.settings.artifactDir).run v = (.ok ys, v'))
    (h : Reselected session.settings.artifactPrefix xs ys) :
    (other.locateArtifact.run v).1 = (session.locateArtifact.run w).1 := by
  rw [run_locateArtifact_of_ok hlist, run_locateArtifact_of_ok hlist', unbuilt, unbuilt, hsettings,
    pickArtifact?_reselected h]

/-- The located artifact is the least name, in the order of bytes, of the files that begin as
configured, and one is located exactly when there is such a file; else, and when the directory
cannot be listed, the call is refused as a fault of the configuration. Neither the order of the
listing nor any other entry has a part in it, on whichever filesystem it is listed. -/
theorem locateArtifact_takes_least (session : Session σ) (w w' : σ) :
    (∀ name, session.locateArtifact.run w = (.ok name, w') ↔
      ∃ listing, (session.buildFs.list session.settings.artifactDir).run w = (.ok listing, w') ∧
        LeastArtifact session.settings.artifactPrefix listing name) ∧
    (∀ listing, (session.buildFs.list session.settings.artifactDir).run w = (.ok listing, w') →
      ((∃ name, session.locateArtifact.run w = (.ok name, w')) ↔
        ∃ e ∈ listing, e.IsArtifact session.settings.artifactPrefix)) ∧
    (∀ failure, session.locateArtifact.run w = (.error failure, w') ↔
      (∃ e, (session.buildFs.list session.settings.artifactDir).run w = (.error e, w') ∧
        failure = session.unlisted e) ∨
      ∃ listing, (session.buildFs.list session.settings.artifactDir).run w = (.ok listing, w') ∧
        (∀ e ∈ listing, ¬ e.IsArtifact session.settings.artifactPrefix) ∧
        failure = session.unbuilt) ∧
    ∀ xs, (session.buildFs.list session.settings.artifactDir).run w = (.ok xs, w') →
      ∀ {τ : Type} (other : Session τ) (v v' : τ) (ys : List Entry),
        other.settings = session.settings →
        (other.buildFs.list other.settings.artifactDir).run v = (.ok ys, v') →
        Reselected session.settings.artifactPrefix xs ys →
        (other.locateArtifact.run v).1 = (session.locateArtifact.run w).1 := by
  refine ⟨fun _ => locateArtifact_eq_ok_iff, fun _ hlist => exists_locateArtifact_iff hlist,
    fun _ => locateArtifact_eq_error_iff, ?_⟩
  intro xs hlist τ other v v' ys hsettings hlist' h
  exact locateArtifact_reselected hsettings hlist hlist' h

/-- A session whose build directory shows the given entries. -/
def cluttered (listing : List Entry) : Session Memory :=
  { fragile with buildFs := { fragile.buildFs with list := fun _ => pure listing } }

/-- Two artifacts, one of them under the name of a directory and listed twice, among entries that
are none. -/
def clutter : List Entry :=
  [.dir "client", .file "old-client.jar" 1, .file "client-b.jar" 2, .dir "client-a.jar",
    .file "client-a.jar" 1, .file "client-a.jar" 7]

/-- The same artifacts, listed another time. -/
def clutterRelisted : List Entry :=
  [.file "Client.jar" 3, .file "client-a.jar" 7, .file "client-b.jar" 2, .file "client-a.jar" 1]

theorem leastArtifact_clutter : LeastArtifact "client" clutter "client-a.jar" where
  found := ⟨.file "client-a.jar" 1, by simp [clutter], ⟨rfl, by decide⟩, rfl⟩
  least e he hartifact := by
    rw [Text.encode_le_encode_iff]
    simp only [clutter, List.mem_cons, List.not_mem_nil, or_false] at he
    rcases he with rfl | rfl | rfl | rfl | rfl | rfl
    · cases hartifact.file
    · exact absurd hartifact.starts (by decide)
    · show "client-a.jar" ≤ "client-b.jar"
      decide
    · cases hartifact.file
    · exact String.le_refl _
    · exact String.le_refl _

theorem reselected_clutter : Reselected "client" clutter clutterRelisted := by
  have hdir (name : String) : ¬ (Entry.dir name).IsArtifact "client" := fun h => by cases h.file
  have hfile (name : String) (length : Nat) (h : ¬ "client".toList <+: name.toList) :
      ¬ (Entry.file name length).IsArtifact "client" := fun hartifact => h hartifact.starts
  refine .trans (.left _ (hdir _)) (.trans (.left _ (hfile _ _ (by decide))) ?_)
  refine .trans (.reordered (List.Perm.swap _ _ _)) (.trans (.left _ (hdir _)) ?_)
  refine .trans (.reordered ?_) (.added _ (hfile _ _ (by decide)))
  decide

/-- The least name is taken in either listing, though a directory has it too. -/
theorem clutter_gives_first_client :
    (cluttered clutter).locateArtifact.run Memory.empty = (.ok "client-a.jar", Memory.empty) ∧
      ((cluttered clutterRelisted).locateArtifact.run Memory.empty).1 = .ok "client-a.jar" := by
  obtain ⟨hok, _, _, hsame⟩ :=
    (cluttered clutter).locateArtifact_takes_least Memory.empty Memory.empty
  have hfirst := (hok "client-a.jar").2 ⟨clutter, rfl, leastArtifact_clutter⟩
  have hagain := hsame clutter rfl (cluttered clutterRelisted) Memory.empty Memory.empty
    clutterRelisted rfl rfl reselected_clutter
  rw [hfirst] at hagain
  exact ⟨hfirst, hagain⟩

end Session
end OffloadCheck
