import OffloadCheck.Path.Raw
import OffloadCheck.Proofs.Encoding
import OffloadCheck.Proofs.Paths

/-! # Names of any bytes

Names that need not be text follow the laws of names that are: the bytes of a path are read as
characters of one byte each, among which slashes and dots are what they are in text. A name stands
behind what is shown of it only where its bytes are UTF-8. -/
namespace OffloadCheck

namespace Component

variable {ν μ : Type} {f : ν → μ} {c : Component ν} {name : μ}

theorem map_eq_normal_iff : c.map f = .normal name ↔ ∃ s, c = .normal s ∧ f s = name := by
  cases c <;> simp [map]

end Component

namespace RawText

/-- Each character stands for one byte. -/
def Narrow (s : String) : Prop := ∀ c ∈ s.toList, c.toNat < 256

theorem toNat_byte (byte : UInt8) : (Char.ofNat byte.toNat).toNat = byte.toNat := by
  have hbyte := byte.toNat_lt
  rw [Char.ofNat, dif_pos (Or.inl (by omega))]
  rfl

theorem narrow_view (t : RawText) : Narrow t.view := by
  intro c hc
  rw [view, String.toList_ofList, List.mem_map] at hc
  obtain ⟨byte, _, rfl⟩ := hc
  rw [toNat_byte]
  exact byte.toNat_lt

@[simp] theorem ofView_view (t : RawText) : ofView t.view = t := by
  have hbyte (byte : UInt8) (_ : byte ∈ t.bytes) :
      ((fun c : Char => UInt8.ofNat c.toNat) ∘ fun byte => Char.ofNat byte.toNat) byte = byte := by
    rw [Function.comp_apply, toNat_byte, UInt8.ofNat_toNat]
  rw [ofView, view, String.toList_ofList, List.map_map, List.map_congr_left hbyte, List.map_id']

theorem view_ofView {s : String} (h : Narrow s) : (ofView s).view = s := by
  have hchar (c : Char) (hc : c ∈ s.toList) :
      ((fun byte : UInt8 => Char.ofNat byte.toNat) ∘ fun c => UInt8.ofNat c.toNat) c = c := by
    rw [Function.comp_apply, UInt8.toNat_ofNat', Nat.mod_eq_of_lt (h c hc), Char.ofNat_toNat]
  rw [view, ofView, List.map_map, List.map_congr_left hchar, List.map_id', String.ofList_toList]

/-- A name among the components of narrow text is narrow. -/
theorem narrow_of_mem_componentsOf {s name : String} (h : Narrow s)
    (hname : .normal name ∈ Path.componentsOf s.toList) : Narrow name := by
  intro c hc
  have hpiece := (Path.mem_splitOn_of_mem_componentsOf hname).1
  have hmem : c ∈ Text.joinWith '/' (Text.splitOn '/' s.toList) := Text.mem_joinWith hpiece hc
  rw [Text.joinWith_splitOn] at hmem
  exact h c hmem

theorem narrow_joinText {p q : String} (hp : Narrow p) (hq : Narrow q) :
    Narrow (Path.joinText p q) := by
  have happend {a b : String} (ha : Narrow a) (hb : Narrow b) : Narrow (a ++ b) := by
    intro c hc
    rw [String.toList_append, List.mem_append] at hc
    exact hc.elim (ha c) (hb c)
  have hslash : Narrow "/" := by
    intro c hc
    obtain rfl : c = '/' := List.mem_singleton.1 hc
    exact Nat.le_of_ble_eq_true rfl
  unfold Path.joinText
  split
  · exact hq
  · split
    · exact happend hp hq
    · exact happend (happend hp hslash) hq

theorem ofText_eq (s : String) :
    (PathText.ofText s : RawText) = ⟨s.toList.flatMap String.utf8EncodeChar⟩ :=
  congrArg mk (Text.encode_eq_flatMap s)

theorem components_eq (t : RawText) :
    PathText.components t = (Path.componentsOf t.view.toList).map (Component.map ofView) := rfl

theorem join_eq (p : RawText) (q : String) :
    PathText.join p q = ofView (Path.joinText p.view (PathText.ofText q : RawText).view) := rfl

theorem isPlain_ofView {s : String} (h : Narrow s) (hs : Path.IsPlain s) :
    Path.IsPlain (ofView s) := by
  rw [Path.IsPlain, components_eq, view_ofView h, Path.isPlain_iff.1 hs]
  rfl

/-- What a plain name is read as is a plain name. -/
theorem isPlain_view {t : RawText} (h : Path.IsPlain t) : Path.IsPlain t.view := by
  rw [Path.IsPlain, components_eq, List.map_eq_singleton_iff] at h
  obtain ⟨c, hcomponents, hc⟩ := h
  obtain ⟨name, rfl, rfl⟩ := Component.map_eq_normal_iff.1 hc
  have hmem : .normal name ∈ Path.componentsOf (ofView name).view.toList := by
    rw [hcomponents]
    exact List.mem_singleton_self _
  have hview := view_ofView (narrow_of_mem_componentsOf (narrow_view _) hmem)
  rw [hview] at hmem ⊢
  exact Path.isPlain_of_mem_componentsOf hmem

instance : LawfulPathText RawText where
  isPlain_of_mem {p name} h := by
    rw [components_eq, List.mem_map] at h
    obtain ⟨c, hmem, hc⟩ := h
    obtain ⟨s, rfl, rfl⟩ := Component.map_eq_normal_iff.1 hc
    exact isPlain_ofView (narrow_of_mem_componentsOf p.narrow_view hmem)
      (Path.isPlain_of_mem_componentsOf hmem)
  components_join p name h := by
    have hname := isPlain_view h
    have hjoin := Path.components_join_plain ⟨p.view⟩ hname
    have hnarrow := narrow_joinText p.narrow_view (narrow_view (PathText.ofText name))
    rw [Path.join_eq, Path.components_eq, Path.components_eq] at hjoin
    rw [components_eq, components_eq, join_eq, view_ofView hnarrow, hjoin, List.map_append]
    simp [Component.map]
  shown_ofText name := Text.decodeLossy_encode name

end RawText
end OffloadCheck
