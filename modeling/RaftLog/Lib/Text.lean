import RaftLog.Lib.Bytes

set_option autoImplicit false

namespace RaftLog.Lib

def textBytes (text : String) : Bytes := text.toUTF8.data.toList

def textOf (bytes : Bytes) : Option String := String.fromUTF8? ⟨bytes.toArray⟩

theorem text_of_text_bytes (text : String) : textOf (textBytes text) = some text :=
  dif_pos text.isValidUTF8

theorem text_bytes_of (bytes : Bytes) (text : String) (decoded : textOf bytes = some text) : textBytes text = bytes := by
  unfold textOf String.fromUTF8? at decoded
  split at decoded
  · cases decoded
    rfl
  · cases decoded

theorem text_bytes_inj (left right : String) (same : textBytes left = textBytes right) : left = right := by
  have decoded := text_of_text_bytes left
  rw [same, text_of_text_bytes right] at decoded
  exact (Option.some.inj decoded).symm

theorem text_bytes_nil (text : String) : textBytes text = [] ↔ text = "" := by
  constructor
  · intro empty
    exact text_bytes_inj text "" empty
  · rintro rfl
    rfl

end RaftLog.Lib
