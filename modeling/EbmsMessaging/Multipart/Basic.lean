import EbmsMessaging.Envelope.Basic
import EbmsMessaging.Uuid

/-!
# Multipart framing

A transmission is framed as a body of parts between delimiter lines, under a content type that
names the boundary. The root part holds the envelope, and every attachment has a part of its own.
-/
namespace EbmsMessaging

structure MultipartBody where
  contentType : String
  body : Bytes
deriving DecidableEq, Repr

namespace Multipart

/-- The content identifier of the root part. -/
def rootContentId : String := "root.envelope@as4"

/-- The media type of the root part. -/
def rootMimeType : String := "application/json"

/-- The end of a line. -/
def lineEnd : Bytes := [0x0D, 0x0A]

/-- Two hyphens, which begin a delimiter and end the last one. -/
def hyphens : Bytes := [0x2D, 0x2D]

/-- What stands before a part. -/
def delimiter (boundary : String) : Bytes := hyphens ++ Utf8.encode boundary

/-- The boundary with a random part. -/
def boundaryOf (u : Uuid) : String := "MIMEBoundary_" ++ u.plainText

/-- The header lines of a part and the blank line after them. -/
def header (mimeType contentId : String) : Bytes :=
  Utf8.encode ("Content-Type: " ++ mimeType) ++ lineEnd ++
    Utf8.encode "Content-Transfer-Encoding: binary" ++ lineEnd ++
    Utf8.encode ("Content-ID: <" ++ contentId ++ ">") ++ lineEnd ++ lineEnd

/-- A part from its delimiter to the end of its last line. -/
def part (boundary : String) (a : Attachment) : Bytes :=
  delimiter boundary ++ lineEnd ++ header a.mimeType a.contentId ++ a.data ++ lineEnd

/-- The content type of a body with this boundary. -/
def contentType (boundary : String) : String :=
  "multipart/related; type=\"" ++ rootMimeType ++ "\"; boundary=\"" ++ boundary ++
    "\"; start=\"<" ++ rootContentId ++ ">\""

/-- The part that holds an envelope. -/
def root (envelope : Bytes) : Attachment := ⟨rootContentId, rootMimeType, envelope⟩

/-- The framing of an envelope and its attachments. -/
def write (boundary : String) (envelope : Bytes) (attachments : List Attachment) :
    MultipartBody where
  contentType := contentType boundary
  body := (root envelope :: attachments).flatMap (part boundary) ++ delimiter boundary ++
    hyphens ++ lineEnd

end Multipart
end EbmsMessaging
