import EbmsMessaging.Multipart.Basic
import EbmsMessaging.Text.Blank
import EbmsMessaging.Text.Literal
import EbmsMessaging.Text.Split

/-!
# Reading multipart bodies

The boundary is found in the content type. The body is cut at its delimiters: each part ends where a
delimiter starts a line, and a delimiter with two more hyphens ends the body. The root is the part
that the content type names as start, or the first one.
-/
namespace EbmsMessaging

/-- What is wrong with a part. -/
inductive PartFault where
  | noBlankLine
  | headersNotUtf8
  | badHeaderLine (line : String)
deriving DecidableEq, Repr

def PartFault.message : PartFault → String
  | noBlankLine => "no blank line after headers"
  | headersNotUtf8 => "headers are not UTF-8"
  | badHeaderLine line => s!"bad header line '{line}'"

inductive MultipartError where
  | missingBoundary (contentType : String)
  | missingDelimiter
  | unterminated
  | malformedPart (index : Nat) (fault : PartFault)
  | missingContentId (index : Nat)
  | missingRoot (start : Option String)
deriving DecidableEq, Repr

def MultipartError.message : MultipartError → String
  | missingBoundary contentType => s!"Content-Type has no boundary parameter: {contentType}"
  | missingDelimiter => "Body does not contain the boundary delimiter"
  | unterminated => "Body ends before the closing delimiter"
  | malformedPart index fault => s!"Part {index} is malformed: {fault.message}"
  | missingContentId index => s!"Part {index} has no Content-ID header"
  | missingRoot none => "No root part found (start: None)"
  | missingRoot (some start) => s!"No root part found (start: Some({Text.literal start}))"

namespace Multipart

/-- The text without blanks around it. -/
def trimmed (cs : List Char) : List Char := Text.stripChars Text.isBlank cs

/-- Whether a name is the given one, up to blanks around it and the case of its letters. -/
def isNamed (name : String) (cs : List Char) : Bool :=
  Text.sameIgnoringCase (String.ofList (trimmed cs)) name

/-- The value of a parameter, if the piece holds the parameter of this name. -/
def parameterIn? (name : String) (piece : List Char) : Option String :=
  match Text.cut ['='] piece with
  | none => none
  | some (key, value) =>
    if isNamed name key then
      some (String.ofList (Text.stripChars (fun c => c = '\x22') (trimmed value)))
    else none

/-- The value of the first parameter of a name in a header value, without its quotes. -/
def parameter? (headerValue name : String) : Option String :=
  (Text.splitAll ';' headerValue.toList).tail.findSome? (parameterIn? name)

/-- A content identifier without the angle brackets around it. -/
def withoutBrackets (s : String) : String :=
  match s.toList with
  | '<' :: cs => if cs.getLast? = some '>' then String.ofList cs.dropLast else s
  | _ => s

/-- The header of a part and its data. -/
def splitPart (raw : Bytes) : Option (Bytes × Bytes) :=
  if lineEnd.isPrefixOf raw then some ([], raw.drop lineEnd.length)
  else Text.cut (lineEnd ++ lineEnd) raw

/-- What the header lines of a part say. -/
structure PartHeader where
  contentId : Option String
  mimeType : Option String
deriving DecidableEq, Repr

/-- Reads one header line. A later line wins over an earlier one of the same name. -/
def PartHeader.read (h : PartHeader) (line : List Char) : Except PartFault PartHeader :=
  match Text.cut [':'] line with
  | none => .error (.badHeaderLine (String.ofList line))
  | some (name, value) =>
    let value := String.ofList (trimmed value)
    if isNamed "content-id" name then .ok { h with contentId := some (withoutBrackets value) }
    else if isNamed "content-type" name then .ok { h with mimeType := some value }
    else .ok h

/-- The lines of a header, each without its end. -/
def lines (fuel : Nat) (cs : List Char) : List (List Char) :=
  match fuel, Text.cut ['\r', '\n'] cs with
  | fuel + 1, some (line, rest) => line :: lines fuel rest
  | _, _ => [cs]

/-- Reads the lines that are not empty. -/
def PartHeader.ofText (s : String) : Except PartFault PartHeader :=
  ((lines s.length s.toList).filter fun line => !line.isEmpty).foldlM PartHeader.read ⟨none, none⟩

/-- The part of an index from the octets between its delimiters. -/
def readPart (index : Nat) (raw : Bytes) : Except MultipartError Attachment :=
  match splitPart raw with
  | none => .error (.malformedPart index .noBlankLine)
  | some (header, data) =>
    match Utf8.decode? header with
    | none => .error (.malformedPart index .headersNotUtf8)
    | some text =>
      match PartHeader.ofText text with
      | .error fault => .error (.malformedPart index fault)
      | .ok h =>
        match h.contentId with
        | none => .error (.missingContentId index)
        | some contentId =>
          .ok ⟨contentId, h.mimeType.getD "application/octet-stream", data⟩

/-- The parts of a body from behind a delimiter on; `before` holds the earlier ones, reversed. -/
def readParts (boundary : String) (before : List Attachment) (body : Bytes) :
    Except MultipartError (List Attachment) :=
  if hyphens.isPrefixOf body then .ok before.reverse
  else match _hl : Text.cut lineEnd body with
    | none => .error .unterminated
    | some (_, fromPart) =>
      match _hp : Text.cut (lineEnd ++ delimiter boundary) fromPart with
      | none => .error .unterminated
      | some (raw, rest) =>
        match readPart before.length raw with
        | .error e => .error e
        | .ok a => readParts boundary (a :: before) rest
termination_by body.length
decreasing_by
  have := Text.length_of_cut (by simp [lineEnd]) _hl
  have := Text.length_of_cut (by simp [lineEnd]) _hp
  omega

/-- The root among the parts, and the other parts in their order. -/
def takeRoot (start : Option String) (parts : List Attachment) :
    Except MultipartError (Attachment × List Attachment) :=
  let index := match start with
    | some contentId => parts.findIdx? fun a => a.contentId = contentId
    | none => if parts.isEmpty then none else some 0
  match index with
  | none => .error (.missingRoot start)
  | some i =>
    match parts[i]? with
    | none => .error (.missingRoot start)
    | some a => .ok (a, parts.eraseIdx i)

/-- The envelope bytes and the attachments of a framed body. -/
def read (contentType : String) (body : Bytes) :
    Except MultipartError (Bytes × List Attachment) :=
  match parameter? contentType "boundary" with
  | none => .error (.missingBoundary contentType)
  | some boundary =>
    match Text.cut (delimiter boundary) body with
    | none => .error .missingDelimiter
    | some (_, rest) => do
      let parts ← readParts boundary [] rest
      let (root, others) ← takeRoot ((parameter? contentType "start").map withoutBrackets) parts
      return (root.data, others)

end Multipart
end EbmsMessaging
