/-!
# Windows on a text

A window is a stretch of a text whose place and size are counted in bytes. Main statement: what
stands between two parts of a text is seen through the window of its size behind the first part.
-/
namespace EbmsMessaging.Text

/-- The number of bytes of a text. -/
def byteSize : List Char → Nat
  | [] => 0
  | c :: cs => c.utf8Size + byteSize cs

/-- The text of `size` bytes behind the first `start` ones, unless it would begin or end inside of a
character. -/
def window? (start size : Nat) : List Char → Option (List Char)
  | [] => if start = 0 ∧ size = 0 then some [] else none
  | c :: cs =>
    if start = 0 then
      if size = 0 then some []
      else if c.utf8Size ≤ size then (window? 0 (size - c.utf8Size) cs).map (c :: ·)
      else none
    else if c.utf8Size ≤ start then window? (start - c.utf8Size) size cs
    else none

@[simp] theorem byteSize_nil : byteSize [] = 0 := rfl

@[simp] theorem byteSize_cons (c : Char) (cs : List Char) :
    byteSize (c :: cs) = c.utf8Size + byteSize cs := rfl

theorem window?_zero (cs rest : List Char) : window? 0 (byteSize cs) (cs ++ rest) = some cs := by
  induction cs with
  | nil => cases rest <;> simp [window?]
  | cons c cs ih =>
    have := c.utf8Size_pos
    simp [window?, ih]
    omega

theorem window?_append (before cs rest : List Char) :
    window? (byteSize before) (byteSize cs) (before ++ cs ++ rest) = some cs := by
  induction before with
  | nil => simpa using window?_zero cs rest
  | cons c before ih =>
    have := c.utf8Size_pos
    simp only [List.append_assoc] at ih
    simp [window?, ih]
    omega

end EbmsMessaging.Text
