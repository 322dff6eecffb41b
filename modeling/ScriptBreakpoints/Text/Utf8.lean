namespace ScriptBreakpoints

abbrev Bytes := List UInt8

namespace Utf8

def encode (s : String) : Bytes := s.toUTF8.data.toList

def decode? (bytes : Bytes) : Option String := String.fromUTF8? ⟨bytes.toArray⟩

theorem decode?_encode (s : String) : decode? (encode s) = some s := by
  have hbytes : (⟨s.toUTF8.data.toList.toArray⟩ : ByteArray) = s.toUTF8 := by simp
  rw [decode?, encode, hbytes, String.fromUTF8?]
  exact dif_pos s.isValidUTF8

end Utf8

end ScriptBreakpoints
