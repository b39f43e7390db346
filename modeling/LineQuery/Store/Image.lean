import LineQuery.Digest.Fingerprint
import LineQuery.Store.Codec
import LineQuery.Text.Decimal

/-!
# Artifact files

The image of an artifact file is the length of its header in four bytes, the header, and the
payload. The header holds four magic bytes, the version of the format, the version of the
tool that wrote the file, and the checksum of the payload. A file that fails one of these
is refused; bytes behind what header or payload need are not looked at.
-/

namespace LineQuery.Store

open LineQuery.Digest (ContentHash)
open LineQuery.Text (Bytes natText)

/-- What stands before the payload of an artifact file. -/
structure Header where
  magic : Vector UInt8 4
  format : Nat
  tool : String
  checksum : ContentHash
deriving DecidableEq

namespace Header

def magicBytes : Vector UInt8 4 := #v[0x53, 0x49, 0x45, 0x56]

def currentFormat : Nat := 1

/-- Headers as bytes. -/
def codec : Codec Header :=
  ((fixedBytes 4).pair ((natural 4).pair (string.pair (fixedBytes 16)))).via
    (fun h => (h.magic, h.format, h.tool, h.checksum.bytes))
    fun (magic, format, tool, checksum) => ⟨magic, format, tool, ⟨checksum⟩⟩

/-- The header of a payload that `tool` writes. -/
def ofPayload (tool : String) (payload : Bytes) : Header :=
  ⟨magicBytes, currentFormat, tool, ContentHash.ofBytes payload⟩

end Header

/-- Why an artifact file is refused. -/
inductive ImageError where
  | noLength
  | truncatedHeader
  | malformedHeader
  | wrongMagic
  | format (found : Nat)
  | tool (found : String)
  | checksum (expected found : ContentHash)
  | malformedPayload
deriving DecidableEq

def ImageError.message (path tool : String) : ImageError → String
  | noLength => "invalid artifact header in " ++ path ++ ": file shorter than header length prefix"
  | truncatedHeader => "invalid artifact header in " ++ path ++ ": truncated header"
  | malformedHeader => "invalid artifact header in " ++ path ++ ": malformed header"
  | wrongMagic => "invalid artifact header in " ++ path ++ ": bad magic bytes"
  | format found =>
    "version mismatch in " ++ path ++ ": expected " ++ natText Header.currentFormat ++ ", got " ++
      natText found
  | .tool found => "artifact " ++ path ++ " was built by sieve " ++ found ++ ", this is " ++ tool
  | checksum expected found =>
    "checksum mismatch in " ++ path ++ ": expected " ++ expected.toText ++ ", got " ++ found.toText
  | malformedPayload => "serialization error: malformed payload"

namespace Image

/-- The number of bytes that hold the length of the header. -/
def lengthBytes : Nat := 4

/-- The image of the file in which `tool` stores a value. -/
def encode (c : Codec α) (tool : String) (v : α) : Bytes :=
  let payload := c.write v
  let header := Header.codec.write (.ofPayload tool payload)
  littleEndian lengthBytes header.length ++ header ++ payload

/-- The value with the given header and payload, for `tool`. -/
def open? (c : Codec α) (tool : String) (h : Header) (payload : Bytes) : Except ImageError α :=
  let found := ContentHash.ofBytes payload
  if h.magic ≠ Header.magicBytes then .error .wrongMagic
  else if h.format ≠ Header.currentFormat then .error (.format h.format)
  else if h.tool ≠ tool then .error (.tool h.tool)
  else if found ≠ h.checksum then .error (.checksum h.checksum found)
  else
    match c.read payload with
    | some (v, _) => .ok v
    | none => .error .malformedPayload

/-- The value that a file holds, for `tool`. -/
def decode (c : Codec α) (tool : String) (raw : Bytes) : Except ImageError α :=
  if raw.length < lengthBytes then .error .noLength
  else
    let size := ofLittleEndian (raw.take lengthBytes)
    let rest := raw.drop lengthBytes
    if rest.length < size then .error .truncatedHeader
    else
      match Header.codec.read (rest.take size) with
      | none => .error .malformedHeader
      | some (h, _) => open? c tool h (rest.drop size)

end Image

end LineQuery.Store
