import OffloadCheck.Path.Basic
import OffloadCheck.Text.Utf8

/-!
Names and paths as an operating system has them: any bytes, of which only `/` and `.` mean
something. Text among them is in UTF-8, and a name is shown as the text that its bytes are decoded
to, with U+FFFD where they are not UTF-8.
-/
namespace OffloadCheck

structure RawText where
  bytes : List UInt8
deriving DecidableEq, Repr, Inhabited

namespace RawText

instance : Ord RawText := ⟨compareOn bytes⟩

instance : Std.TransOrd RawText := inferInstanceAs (Std.TransCmp (compareOn bytes))

instance : Std.LawfulEqOrd RawText where
  eq_of_compare {a b} h := by
    have hbytes : a.bytes = b.bytes := Std.LawfulEqOrd.eq_of_compare h
    cases a
    cases b
    exact congrArg mk hbytes

def ofText (s : String) : RawText := ⟨Text.encode s⟩

/-- The bytes as a text of one character each, in which slashes and dots are where they were. -/
def view (t : RawText) : String := String.ofList (t.bytes.map fun byte => Char.ofNat byte.toNat)

def ofView (s : String) : RawText := ⟨s.toList.map fun c => UInt8.ofNat c.toNat⟩

instance : PathText RawText where
  components t := (Path.componentsOf t.view.toList).map (Component.map ofView)
  join t q := ofView (Path.joinText t.view (ofText q).view)
  ofText := ofText
  shown t := Text.decodeLossy t.bytes

end RawText
end OffloadCheck
