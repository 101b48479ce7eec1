import Mathlib.Data.List.Nodup
import OffloadCheck.Proofs.Encoding
import OffloadCheck.Proofs.Listings

/-! # What a manifest keeps of a listing

A manifest arranges a listing: its entries are the outputs in the order of the bytes of their names,
those of one name in the order in which they are listed, and its total takes in all that is listed.
Names in order leave nothing to choose but the order of entries of one name, so there is only one
such manifest, and a listing in another order has it too unless outputs that share a name have
changed places. The position at which two manifests first differ in name is the least one and the
same seen from either. -/
namespace OffloadCheck

/-! ## Entries by name -/

namespace Entry

/-- The entries that take part in a comparison: all but those under the marker's name. -/
def outputs (listing : List Entry) : List Entry := listing.filter (·.name ≠ markerName)

/-- The entries of one name, in the order of the listing. -/
def named (name : String) (entries : List Entry) : List Entry := entries.filter (·.name = name)

variable {e x : Entry} {name : String} {xs ys : List Entry}

theorem mem_named : e ∈ named name xs ↔ e ∈ xs ∧ e.name = name := by simp [named]

theorem named_cons_of_eq (h : e.name = name) : named name (e :: xs) = e :: named name xs :=
  List.filter_cons_of_pos (by simpa using h)

theorem named_cons_of_ne (h : e.name ≠ name) : named name (e :: xs) = named name xs :=
  List.filter_cons_of_neg (by simpa using h)

theorem named_append (name : String) (xs ys : List Entry) :
    named name (xs ++ ys) = named name xs ++ named name ys := List.filter_append _ _

theorem mem_of_named (h : ∀ name, named name xs = named name ys) (he : e ∈ xs) : e ∈ ys := by
  have hnamed : e ∈ named e.name xs := mem_named.2 ⟨he, rfl⟩
  rw [h e.name] at hnamed
  exact (mem_named.1 hnamed).1

theorem first_le (h : (x :: xs).Pairwise fun a b => a.name ≤ b.name) (he : e ∈ x :: xs) :
    x.name ≤ e.name := by
  rcases List.mem_cons.1 he with rfl | he
  · exact String.le_refl _
  · exact List.rel_of_pairwise_cons h he

/-- Entries in the order of their names are determined by the entries of each name. -/
theorem eq_of_named (hx : xs.Pairwise fun a b => a.name ≤ b.name)
    (hy : ys.Pairwise fun a b => a.name ≤ b.name) (h : ∀ name, named name xs = named name ys) :
    xs = ys := by
  induction xs generalizing ys with
  | nil =>
    symm
    refine List.eq_nil_iff_forall_not_mem.2 fun e he => ?_
    exact List.not_mem_nil (mem_of_named (fun name => (h name).symm) he)
  | cons x xs ih =>
    have hmem : x ∈ ys := mem_of_named h List.mem_cons_self
    cases ys with
    | nil => exact absurd hmem List.not_mem_nil
    | cons y ys =>
      have hmem' : y ∈ x :: xs := mem_of_named (fun name => (h name).symm) List.mem_cons_self
      -- Each of the two first entries is somewhere in the other list, so neither name is greater.
      have hname : x.name = y.name := String.le_antisymm (first_le hx hmem') (first_le hy hmem)
      have hfirst := h x.name
      rw [named_cons_of_eq rfl, named_cons_of_eq hname.symm] at hfirst
      obtain rfl : x = y := (List.cons.inj hfirst).1
      have hrest (name : String) : named name xs = named name ys := by
        have hboth := h name
        by_cases hn : x.name = name
        · rw [named_cons_of_eq hn, named_cons_of_eq hn] at hboth
          exact (List.cons.inj hboth).2
        · rwa [named_cons_of_ne hn, named_cons_of_ne hn] at hboth
      rw [ih hx.of_cons hy.of_cons hrest]

/-- Where names are distinct an entry has its name for itself, so its place in the list is open. -/
theorem named_eq_of_perm (hp : ys.Perm xs) (h : (xs.map (·.name)).Nodup) (name : String) :
    named name ys = named name xs := by
  have halone (a b : Entry) (ha : a ∈ named name ys) (hb : b ∈ named name xs) : a = b := by
    obtain ⟨ha, haname⟩ := mem_named.1 ha
    obtain ⟨hb, hbname⟩ := mem_named.1 hb
    exact List.inj_on_of_nodup_map h (hp.subset ha) hb (haname.trans hbname.symm)
  have hany (l : List Entry) : l.Pairwise fun _ _ => True :=
    List.pairwise_of_forall fun _ _ => trivial
  exact (hp.filter _).eq_of_pairwise (fun a b ha hb _ _ => halone a b ha hb) (hany _) (hany _)

/-! ## Lengths in a word -/

/-- The lengths added one after the other to `sum` in a word of 64 bits. There is no sum if one on
the way does not fit. -/
def addedTo? (sum : UInt64) : List Entry → Option UInt64
  | [] => some sum
  | e :: es =>
    if sum.toNat + e.length < UInt64.size then addedTo? (sum + UInt64.ofNat e.length) es else none

theorem toNat_add_ofNat {sum : UInt64} {n : Nat} (h : sum.toNat + n < UInt64.size) :
    (sum + UInt64.ofNat n).toNat = sum.toNat + n := by
  have hn : n < UInt64.size := by omega
  rw [UInt64.toNat_add, UInt64.toNat_ofNat_of_lt' hn]
  exact Nat.mod_eq_of_lt h

/-- No sum on the way is greater than the last one, so only the last one has to fit. -/
theorem addedTo?_eq_some_iff {sum result : UInt64} :
    addedTo? sum xs = some result ↔ sum.toNat + total xs = result.toNat := by
  induction xs generalizing sum with
  | nil =>
    rw [addedTo?, Option.some_inj, ← UInt64.toNat_inj]
    rfl
  | cons e es ih =>
    rw [addedTo?, total_cons]
    split
    · rename_i hfits
      rw [ih, toNat_add_ofNat hfits, Nat.add_assoc]
    · rename_i hlarge
      have hresult := result.toNat_lt_size
      constructor
      · intro h
        cases h
      · intro h
        omega

end Entry

/-! ## Arranging -/

namespace Manifest

open Entry

/-- Sorting leaves the entries of one name in the order in which they were. -/
theorem named_byName (name : String) (entries : List Entry) :
    named name (byName entries) = named name entries := by
  have htied : (named name entries).Pairwise fun a b => (compare a.name b.name).isLE = true := by
    refine List.pairwise_of_forall_mem_list fun a ha b hb => ?_
    rw [isLE_compare_iff, (mem_named.1 ha).2, (mem_named.1 hb).2]
  have hsub : (named name entries).Sublist (byName entries) :=
    List.sublist_mergeSort (fun _ _ _ => Std.TransCmp.isLE_trans) isLE_compare_total htied
      List.filter_sublist
  have hkept : (named name entries).Sublist (named name (byName entries)) := by
    simpa [named, List.filter_filter] using hsub.filter (·.name = name)
  have hlength : (named name (byName entries)).length = (named name entries).length :=
    ((byName_perm entries).filter _).length_eq
  exact (hkept.eq_of_length hlength.symm).symm

/-- The manifest says of a listing what a comparison has to know, and in its order. -/
structure Arranges (m : Manifest) (listing : List Entry) : Prop where
  ordered : m.entries.Pairwise fun a b => Text.encode a.name ≤ Text.encode b.name
  /-- The entries are the outputs, each as often as it is listed. -/
  outputs : m.entries.Perm (outputs listing)
  /-- Outputs of one name stand in the order of the listing. -/
  named (name : String) : named name m.entries = named name (Entry.outputs listing)
  totalLength : m.totalLength = total listing

variable {m n : Manifest} {listing xs ys : List Entry}

theorem entries_ofListing (listing : List Entry) :
    (ofListing listing).entries = byName (outputs listing) := by
  simp [ofListing, outputs, isMarkerName]

theorem arranges_ofListing (listing : List Entry) : (ofListing listing).Arranges listing where
  ordered := by
    rw [entries_ofListing]
    exact (pairwise_byName _).imp Text.encode_le_encode_iff.2
  outputs := by
    rw [entries_ofListing]
    exact byName_perm _
  named name := by rw [entries_ofListing, named_byName]
  totalLength := rfl

/-- What a manifest arranges are the outputs of each name and the sum. -/
theorem Arranges.eq_of_named (hm : m.Arranges xs) (hn : n.Arranges ys)
    (hnamed : ∀ name, Entry.named name (Entry.outputs xs) = Entry.named name (Entry.outputs ys))
    (htotal : total xs = total ys) : m = n := by
  have hentries : m.entries = n.entries :=
    Entry.eq_of_named (hm.ordered.imp Text.encode_le_encode_iff.1)
      (hn.ordered.imp Text.encode_le_encode_iff.1) fun name =>
        calc Entry.named name m.entries = Entry.named name (Entry.outputs xs) := hm.named name
          _ = Entry.named name (Entry.outputs ys) := hnamed name
          _ = Entry.named name n.entries := (hn.named name).symm
  have hlength : m.totalLength = n.totalLength := by
    rw [hm.totalLength, htotal, hn.totalLength]
  exact congrArg₂ Manifest.mk hentries hlength

theorem ofListing_eq_iff : ofListing listing = m ↔ m.Arranges listing := by
  constructor
  · rintro rfl
    exact arranges_ofListing listing
  · intro h
    exact (arranges_ofListing listing).eq_of_named h (fun _ => rfl) rfl

/-- Two listings have one manifest exactly if they list the outputs of each name alike and sum up to
the same. -/
theorem ofListing_eq_ofListing_iff : ofListing xs = ofListing ys ↔
    (∀ name, Entry.named name (outputs xs) = Entry.named name (outputs ys)) ∧
      total xs = total ys := by
  have hx := arranges_ofListing xs
  have hy := arranges_ofListing ys
  constructor
  · intro h
    rw [h] at hx
    exact ⟨fun name => (hx.named name).symm.trans (hy.named name),
      hx.totalLength.symm.trans hy.totalLength⟩
  · rintro ⟨hnamed, htotal⟩
    exact hx.eq_of_named hy hnamed htotal

theorem ofListing_eq_of_perm (hp : ys.Perm xs) (h : ((outputs xs).map (·.name)).Nodup) :
    ofListing ys = ofListing xs :=
  ofListing_eq_ofListing_iff.2 ⟨named_eq_of_perm (hp.filter _) h, total_eq_of_perm hp⟩

/-! ## The first difference -/

section FirstDifference

variable {α : Type} {as bs : List α} {a b : α} {i : Nat}

/-- The least position at which two lists hold different values. -/
structure DifferFirstAt (as bs : List α) (i : Nat) : Prop where
  differ : ∃ a b, as[i]? = some a ∧ bs[i]? = some b ∧ a ≠ b
  agree : ∀ j < i, as[j]? = bs[j]?

theorem DifferFirstAt.symm (h : DifferFirstAt as bs i) : DifferFirstAt bs as i := by
  obtain ⟨a, b, ha, hb, hab⟩ := h.differ
  exact ⟨⟨b, a, hb, ha, hab.symm⟩, fun j hj => (h.agree j hj).symm⟩

theorem not_differFirstAt_nil_left : ¬ DifferFirstAt [] bs i := by
  rintro ⟨⟨a, b, ha, -⟩, -⟩
  cases ha

theorem differFirstAt_cons_self_iff :
    DifferFirstAt (a :: as) (a :: bs) i ↔ ∃ j, DifferFirstAt as bs j ∧ j + 1 = i := by
  constructor
  · rintro ⟨⟨x, y, hx, hy, hxy⟩, hagree⟩
    cases i with
    | zero => exact absurd ((Option.some.inj hx).symm.trans (Option.some.inj hy)) hxy
    | succ j =>
      exact ⟨j, ⟨⟨x, y, hx, hy, hxy⟩, fun k hk => hagree (k + 1) (by omega)⟩, rfl⟩
  · rintro ⟨j, ⟨⟨x, y, hx, hy, hxy⟩, hagree⟩, rfl⟩
    refine ⟨⟨x, y, hx, hy, hxy⟩, fun k hk => ?_⟩
    cases k with
    | zero => rfl
    | succ k => exact hagree k (by omega)

theorem differFirstAt_cons_iff (hab : a ≠ b) : DifferFirstAt (a :: as) (b :: bs) i ↔ i = 0 := by
  constructor
  · intro h
    by_contra hi
    exact hab (Option.some.inj (h.agree 0 (by omega)))
  · rintro rfl
    exact ⟨⟨a, b, rfl, rfl, hab⟩, fun j hj => absurd hj (Nat.not_lt_zero j)⟩

variable [DecidableEq α]

theorem firstDifference_eq_some_iff : firstDifference as bs = some i ↔ DifferFirstAt as bs i := by
  induction as generalizing bs i with
  | nil => exact iff_of_false (fun h => by cases h) not_differFirstAt_nil_left
  | cons a as ih =>
    cases bs with
    | nil => exact iff_of_false (fun h => by cases h) fun h => not_differFirstAt_nil_left h.symm
    | cons b bs =>
      rw [firstDifference]
      split
      · rename_i hab
        subst hab
        rw [differFirstAt_cons_self_iff, Option.map_eq_some_iff]
        simp only [ih]
      · rename_i hab
        rw [differFirstAt_cons_iff hab, Option.some_inj, eq_comm]

theorem firstDifference_comm (as bs : List α) : firstDifference bs as = firstDifference as bs := by
  refine Option.ext fun i => ?_
  rw [firstDifference_eq_some_iff, firstDifference_eq_some_iff]
  exact ⟨DifferFirstAt.symm, DifferFirstAt.symm⟩

theorem firstDifference_eq_none_iff (hlength : as.length = bs.length) :
    firstDifference as bs = none ↔ as = bs := by
  constructor
  · intro h
    obtain ⟨before, as, bs, rfl, rfl, hend⟩ := exists_common_start as bs
    simp only [List.length_append, Nat.add_left_cancel_iff] at hlength
    rcases hend with rfl | rfl | ⟨x, y, as, bs, rfl, rfl, hxy⟩
    · rw [List.eq_nil_of_length_eq_zero hlength.symm]
    · rw [List.eq_nil_of_length_eq_zero hlength]
    · rw [firstDifference_append before as bs hxy] at h
      cases h
  · rintro rfl
    exact firstDifference_self as

end FirstDifference

/-- The manifest of a listing is the only one that arranges it, and its total is what the lengths
sum up to in a word of 64 bits, if the sum fits. A listing has the manifest of another exactly if it
gives the outputs of each name in the same order and sums up to the same, so any permutation does
where no two outputs share a name. Of manifests of one size no position is told exactly if they have
the same names; a position that is told is the least at which the names differ, whichever of the two
is asked. -/
theorem manifest_arranges_listing (listing : List Entry) :
    (∀ m, ofListing listing = m ↔ m.Arranges listing) ∧
    (total listing < UInt64.size → ∃ sum, addedTo? 0 listing = some sum ∧
      (ofListing listing).totalLength = sum.toNat) ∧
    (∀ other, ofListing other = ofListing listing ↔
      (∀ name, Entry.named name (outputs other) = Entry.named name (outputs listing)) ∧
        total other = total listing) ∧
    (((outputs listing).map (·.name)).Nodup →
      ∀ other, other.Perm listing → ofListing other = ofListing listing) ∧
    ∀ m n : Manifest,
      (m.size = n.size → (m.firstNameDifference n = none ↔ m.names = n.names)) ∧
      (∀ i, m.firstNameDifference n = some i ↔ DifferFirstAt m.names n.names i) ∧
      n.firstNameDifference m = m.firstNameDifference n := by
  refine ⟨fun m => ofListing_eq_iff, fun hfits => ?_, fun other => ofListing_eq_ofListing_iff,
    fun hdistinct other hperm => ofListing_eq_of_perm hperm hdistinct, fun m n => ⟨?_, ?_, ?_⟩⟩
  · have hsum : (UInt64.ofNat (total listing)).toNat = total listing :=
      UInt64.toNat_ofNat_of_lt' hfits
    refine ⟨UInt64.ofNat (total listing), addedTo?_eq_some_iff.2 ?_, hsum.symm⟩
    rw [hsum, UInt64.toNat_zero, Nat.zero_add]
  · intro hsize
    rw [size_eq, size_eq] at hsize
    rw [firstNameDifference_eq]
    exact firstDifference_eq_none_iff hsize
  · intro i
    rw [firstNameDifference_eq]
    exact firstDifference_eq_some_iff
  · rw [firstNameDifference_eq, firstNameDifference_eq]
    exact firstDifference_comm m.names n.names

/-- A listing with a file and a directory of one name, and with a marker that has a length. -/
def twinListing : List Entry :=
  [.file "b" 2, .file "_SUCCESS" 3, .dir "b", .dir "_SUCCESS", .file "a" 1]

def twinManifest : Manifest := ⟨[.file "a" 1, .file "b" 2, .dir "b"], 6⟩

/-- A listing of outputs that each have a name of their own. -/
def plainListing : List Entry :=
  [.file "c" 4, .file "_SUCCESS" 0, .dir "a", .file "_SUCCESS" 7, .file "b" 5]

/-- The same entries, listed another time. -/
def plainRelisted : List Entry :=
  [.file "_SUCCESS" 7, .file "b" 5, .file "c" 4, .dir "a", .file "_SUCCESS" 0]

theorem arranges_twinManifest : twinManifest.Arranges twinListing where
  ordered := by
    simp only [Text.encode_le_encode_iff]
    decide
  outputs := by decide
  named name := by
    have houtputs : Entry.outputs twinListing = [.file "b" 2, .dir "b"] ++ [.file "a" 1] := by
      decide
    rw [houtputs]
    -- Only the entries named `a` and those named `b` have changed places.
    by_cases hname : "a" = name
    · subst hname
      rfl
    · have hfirst : Entry.named name [.file "a" 1] = [] := named_cons_of_ne hname
      rw [named_append, hfirst, List.append_nil]
      exact named_cons_of_ne hname
  totalLength := rfl

/-- The twins stay in their order, and of the other outputs any order gives one manifest. The names
of the twins are told from `a`, `b` and `c` by the last one. -/
theorem manifest_arranges_twins :
    ofListing twinListing = twinManifest ∧
    (∃ sum, addedTo? 0 twinListing = some sum ∧ (ofListing twinListing).totalLength = sum.toNat) ∧
    ofListing plainRelisted = ofListing plainListing ∧
    twinManifest.firstNameDifference ⟨[.dir "a", .file "b" 8, .file "b" 9], 17⟩ = none ∧
    twinManifest.firstNameDifference ⟨[.dir "a", .file "b" 8, .file "c" 9], 17⟩ = some 2 := by
  obtain ⟨honly, hword, -, -, hdifference⟩ := manifest_arranges_listing twinListing
  obtain ⟨-, -, -, hperm, -⟩ := manifest_arranges_listing plainListing
  refine ⟨(honly twinManifest).2 arranges_twinManifest, hword (by decide),
    hperm (by decide) plainRelisted (by decide), ?_, ?_⟩
  · exact ((hdifference twinManifest ⟨[.dir "a", .file "b" 8, .file "b" 9], 17⟩).1 rfl).2 rfl
  · refine ((hdifference twinManifest ⟨[.dir "a", .file "b" 8, .file "c" 9], 17⟩).2.1 2).2 ?_
    refine ⟨⟨"b", "c", rfl, rfl, by decide⟩, fun j hj => ?_⟩
    match j, hj with
    | 0, _ => rfl
    | 1, _ => rfl

end Manifest
end OffloadCheck
