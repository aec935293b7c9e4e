/-!
# UTF-8

Text travels as bytes. `encode` is the UTF-8 form of a string and `decode?` reads it back, refusing
bytes that are no well-formed UTF-8. Each is the inverse of the other.
-/
namespace EbmsMessaging

/-- What travels: a finite sequence of octets. -/
abbrev Bytes := List UInt8

namespace Utf8

/-- The UTF-8 form of a string. -/
def encode (s : String) : Bytes := s.toByteArray.data.toList

/-- The string whose UTF-8 form this is, if there is one. -/
def decode? (b : Bytes) : Option String := String.fromUTF8? ⟨b.toArray⟩

/-- The UTF-8 form of one code point. -/
def encodeChar (c : Char) : Bytes := String.utf8EncodeChar c

@[simp] theorem decode?_encode (s : String) : decode? (encode s) = some s := by
  simp [decode?, encode, String.fromUTF8?, s.isValidUTF8, String.fromUTF8]

theorem encode_of_decode? {b : Bytes} {s : String} (h : decode? b = some s) : encode s = b := by
  unfold decode? String.fromUTF8? at h
  split at h
  · simp only [Option.some.injEq] at h
    subst h
    simp [encode, String.fromUTF8]
  · simp at h

theorem encode_injective {s t : String} (h : encode s = encode t) : s = t := by
  have := congrArg decode? h
  simpa using this

end Utf8
end EbmsMessaging
