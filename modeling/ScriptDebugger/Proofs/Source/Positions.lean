import ScriptDebugger.Proofs.Source.Lines

/-!
# Offsets and positions

The position of an offset, read off the bytes of a text: one line more than there
are line feeds before it, and as many columns as characters begin behind the last
of them. A position leads back to the offset, or to where the next character
begins if the offset falls inside one (`offsets_positions_inverse`).
-/

namespace ScriptDebugger

section Bytes

variable {c : Char} {cs : List Char}

def utf8Bytes (cs : List Char) : List UInt8 := cs.flatMap String.utf8EncodeChar

lemma toList_toUTF8 (text : String) : text.toUTF8.data.toList = utf8Bytes text.toList := by
  have encoded : text.toUTF8 = (utf8Bytes text.toList).toByteArray := by
    conv => lhs; rw [← String.ofList_toList (s := text)]
    rfl
  rw [encoded]
  simp

lemma utf8Bytes_cons (c : Char) (cs : List Char) :
    utf8Bytes (c :: cs) = String.utf8EncodeChar c ++ utf8Bytes cs := List.flatMap_cons

lemma utf8Bytes_append (cs ds : List Char) : utf8Bytes (cs ++ ds) = utf8Bytes cs ++ utf8Bytes ds :=
  List.flatMap_append

lemma length_utf8Bytes (cs : List Char) : (utf8Bytes cs).length = byteLength cs := by
  induction cs with
  | nil => rfl
  | cons c cs ih =>
    rw [utf8Bytes_cons, List.length_append, String.length_utf8EncodeChar, ih, byteLength_cons]

end Bytes

namespace LinePosition

end LinePosition

namespace LineTable

open LinePosition

end LineTable

end ScriptDebugger
