import EbmsMessaging.Multipart.Reader

/-!
# Reading multipart bodies by index

The same reading, with places in the body as indices: a part is the slice between two of them, and a
cursor moves over the body from delimiter to delimiter. Every access is checked. A reader that reaches
outside of the body, looks for nothing, or does not come to an end in the rounds that it is given, halts
and tells why.
-/
namespace EbmsMessaging.Multipart.Indexed

/-- Why a reader halts. Only the first of these is an answer. -/
inductive Halt where
  | error (e : MultipartError)
  | slice (start stop length : Nat)
  | emptyWindow
  | element (index length : Nat)
  | outOfRounds
deriving DecidableEq, Repr

/-- What has to be there, or else this is the answer. -/
def demand {α : Type} (e : MultipartError) : Option α → Except Halt α
  | some a => .ok a
  | none => .error (.error e)

/-- The octets from one index to another. -/
def slice (bs : Bytes) (start stop : Nat) : Except Halt Bytes :=
  if start ≤ stop ∧ stop ≤ bs.length then .ok ((bs.take stop).drop start)
  else .error (.slice start stop bs.length)

/-- The stretches of a length, beginning at each index where there is one. -/
def stretches (size : Nat) : Bytes → List Bytes
  | [] => []
  | b :: bs => if size ≤ (b :: bs).length then (b :: bs).take size :: stretches size bs else []

/-- The stretches through which a search goes. There are none of length zero. -/
def windows (size : Nat) (bs : Bytes) : Except Halt (List Bytes) :=
  if size = 0 then .error .emptyWindow else .ok (stretches size bs)

/-- The index of the first occurrence of a pattern from an index on. -/
def find (bs pattern : Bytes) (start : Nat) : Except Halt (Option Nat) :=
  if bs.length < start then .ok none
  else do
    let rest ← slice bs start bs.length
    let passed ← windows pattern.length rest
    return (passed.findIdx? fun w => w = pattern).map fun i => i + start

/-- Where the header of a part ends and its data begin. -/
def headerEnd (raw : Bytes) : Except Halt (Option (Nat × Nat)) :=
  if lineEnd.isPrefixOf raw then .ok (some (0, lineEnd.length))
  else do
    let found ← find raw (lineEnd ++ lineEnd) 0
    return found.map fun i => (i, i + (lineEnd ++ lineEnd).length)

/-- The part of an index from the octets between its delimiters. -/
def readPart (index : Nat) (raw : Bytes) : Except Halt Attachment := do
  let (headerStop, dataStart) ← demand (.malformedPart index .noBlankLine) (← headerEnd raw)
  let header ← slice raw 0 headerStop
  let text ← demand (.malformedPart index .headersNotUtf8) (Utf8.decode? header)
  let h ← (PartHeader.ofText text).mapError fun fault => .error (.malformedPart index fault)
  let contentId ← demand (.missingContentId index) h.contentId
  let data ← slice raw dataStart raw.length
  return ⟨contentId, h.mimeType.getD "application/octet-stream", data⟩

/-- One round, from behind a delimiter to behind the next one. There is no round behind the last one. -/
def round (boundary : String) (body : Bytes) (cursor : Nat) (parts : List Attachment) :
    Except Halt (Option (Nat × List Attachment)) := do
  let rest ← slice body cursor body.length
  if hyphens.isPrefixOf rest then return none
  let lineStop ← demand .unterminated (← find body lineEnd cursor)
  let partStart := lineStop + lineEnd.length
  let partStop ← demand .unterminated (← find body (lineEnd ++ delimiter boundary) partStart)
  let raw ← slice body partStart partStop
  let a ← readPart parts.length raw
  return some (partStop + (lineEnd ++ delimiter boundary).length, parts ++ [a])

/-- Goes on until there is no round, or none is left. -/
def rounds (boundary : String) (body : Bytes) :
    Nat → Nat → List Attachment → Except Halt (List Attachment)
  | 0, _, _ => .error .outOfRounds
  | left + 1, cursor, parts => do
    match ← round boundary body cursor parts with
    | none => return parts
    | some (cursor, parts) => rounds boundary body left cursor parts

/-- Where the root stands among the parts. -/
def rootIndex (start : Option String) (parts : List Attachment) : Except Halt Nat :=
  match start with
  | some contentId =>
    demand (.missingRoot (some contentId)) (parts.findIdx? fun a => a.contentId = contentId)
  | none => if parts.isEmpty then .error (.error (.missingRoot none)) else .ok 0

/-- Takes the part of an index out. -/
def remove (parts : List Attachment) (i : Nat) : Except Halt (Attachment × List Attachment) :=
  match parts[i]? with
  | some a => .ok (a, parts.eraseIdx i)
  | none => .error (.element i parts.length)

/-- Reads a body in a number of rounds. -/
def read (limit : Nat) (contentType : String) (body : Bytes) :
    Except Halt (Bytes × List Attachment) := do
  let boundary ← demand (.missingBoundary contentType) (parameter? contentType "boundary")
  let first ← demand .missingDelimiter (← find body (delimiter boundary) 0)
  let parts ← rounds boundary body limit (first + (delimiter boundary).length) []
  let i ← rootIndex ((parameter? contentType "start").map withoutBrackets) parts
  let (root, others) ← remove parts i
  return (root.data, others)

end EbmsMessaging.Multipart.Indexed
