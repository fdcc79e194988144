import Mathlib.Data.List.Basic
import Mathlib.Logic.Function.Basic
import Mathlib.Algebra.Group.Nat.Basic

/-!
# The .mjr container as the plugin reads it (janus_auviousrecordplay.c)

Byte layer shared by `janus_auviousrecordplay_get_frames` (lines 1930-2230) and
`janus_auviousrecordplay_parse_codec` (lines 461-594). A read is `fseek` then
`fread` (short at the end of the file); the 1500-byte `prebuffer` keeps stale
bytes in the cells a short read does not reach; the record length is read
through a `uint16_t` and `ntohs`, so a short read of it keeps a stale byte of
the previous length. A well-formed container is a list of records
`magic(8) ++ length(2, big-endian) ++ payload`.
-/

namespace AuviousRecordPlay.Container

/-- A byte of the file (`char` in the source). -/
abbrev Byte := UInt8

/-- A character constant of the source as a byte. -/
def ascii (c : Char) : Byte := c.toNat.toUInt8

/-- `fseek(file, pos, SEEK_SET); fread(buf, 1, n, file)`: the bytes read, fewer at the end. -/
def readAt (file : List Byte) (pos n : Nat) : List Byte := (file.drop pos).take n

/-- The contents of `prebuffer`, cell by cell. -/
abbrev Prebuffer := Nat → Byte

/-- `fread` into the start of `prebuffer`: the bytes read replace the first cells, the other
cells keep what they held. -/
def fill (buf : Prebuffer) (src : List Byte) : Prebuffer := fun i => src.getD i (buf i)

/-- `ntohs` of two bytes in file order. -/
def be16 (hi lo : Byte) : Nat := hi.toNat * 256 + lo.toNat

/-- `ntohl` of four bytes in file order. -/
def be32 (b0 b1 b2 b3 : Byte) : Nat :=
  ((b0.toNat * 256 + b1.toNat) * 256 + b2.toNat) * 256 + b3.toNat

/-- `fread(&len, sizeof(uint16_t), 1, file); len = ntohs(len);` on a little-endian host: the
bytes read overwrite the memory of `len` low byte first and `ntohs` swaps the two bytes, so a
short read keeps the high byte of the previous `len` (both bytes, swapped, when nothing is read). -/
def readLen (file : List Byte) (pos len : Nat) : Nat :=
  match readAt file pos 2 with
  | [hi, lo] => be16 hi lo
  | [hi] => hi.toNat * 256 + len / 256
  | _ => len % 256 * 256 + len / 256

/-- `ntohs(rtp->seq_number)` of the RTP header at the start of `prebuffer` (bytes 2-3). -/
def rtpSeq (buf : Prebuffer) : Nat := be16 (buf 2) (buf 3)

/-- `ntohl(rtp->timestamp)` of the RTP header at the start of `prebuffer` (bytes 4-7). -/
def rtpTs (buf : Prebuffer) : Nat := be32 (buf 4) (buf 5) (buf 6) (buf 7)

/-- The NUL-terminated string `json_loads(prebuffer, ...)` parses, looked for in the first
`n` cells. -/
def cString (buf : Prebuffer) (n : Nat) : List Byte :=
  ((List.range n).map buf).takeWhile (· != 0)

theorem byte_lt (b : Byte) : b.toNat < 256 := b.toNat_lt_size

theorem be16_lt (hi lo : Byte) : be16 hi lo < 2 ^ 16 := by
  have := byte_lt hi; have := byte_lt lo
  simp only [be16]; omega

@[simp] theorem fill_apply (buf : Prebuffer) (src : List Byte) (i : Nat) :
    fill buf src i = src.getD i (buf i) := rfl

theorem fill_of_lt {buf : Prebuffer} {src : List Byte} {i : Nat} (h : i < src.length) :
    fill buf src i = src.getD i 0 := by
  simp [fill, List.getD_eq_getElem?_getD, List.getElem?_eq_getElem h]

theorem readAt_append_left (pre file : List Byte) (k n : Nat) :
    readAt (pre ++ file) (pre.length + k) n = readAt file k n := by
  simp only [readAt, List.drop_append]

theorem readLen_of_two {file : List Byte} {pos : Nat} (hi lo : Byte)
    (h : readAt file pos 2 = [hi, lo]) (len : Nat) : readLen file pos len = be16 hi lo := by
  simp [readLen, h]

/-! ### Records of a well-formed container -/

/-- One record: 8 magic bytes and a payload short enough for the 16-bit length field. -/
structure Record where
  magic : List Byte
  payload : List Byte
  magic_length : magic.length = 8
  payload_lt : payload.length < 2 ^ 16

namespace Record

/-- The big-endian length field. -/
def lenField (r : Record) : List Byte :=
  [(r.payload.length / 256).toUInt8, (r.payload.length % 256).toUInt8]

/-- The record as it stands in the file. -/
def bytes (r : Record) : List Byte := r.magic ++ r.lenField ++ r.payload

/-- The byte `i` of the magic (`prebuffer[i]` after the header read). -/
def magicAt (r : Record) (i : Nat) : Byte := r.magic.getD i 0

/-- The byte `i` of the payload. -/
def payloadAt (r : Record) (i : Nat) : Byte := r.payload.getD i 0

theorem lenField_be16 (r : Record) :
    be16 ((r.payload.length / 256).toUInt8) ((r.payload.length % 256).toUInt8) =
      r.payload.length := by
  have := r.payload_lt
  have hi : ((r.payload.length / 256).toUInt8).toNat = r.payload.length / 256 % 256 := rfl
  have lo : ((r.payload.length % 256).toUInt8).toNat = r.payload.length % 256 % 256 := rfl
  simp only [be16, hi, lo]
  omega

@[simp] theorem bytes_length (r : Record) : r.bytes.length = 10 + r.payload.length := by
  simp [bytes, lenField, r.magic_length]; omega

theorem readAt_magic (r : Record) (rest : List Byte) : readAt (r.bytes ++ rest) 0 8 = r.magic := by
  simp [readAt, bytes, ← r.magic_length]

theorem readAt_lenField (r : Record) (rest : List Byte) :
    readAt (r.bytes ++ rest) 8 2 = r.lenField := by
  have h : (r.bytes ++ rest).drop 8 = r.lenField ++ (r.payload ++ rest) := by
    simp [bytes, List.drop_append_eq_append_drop, r.magic_length]
  simp [readAt, h, lenField]

theorem readLen_bytes (r : Record) (rest : List Byte) (len : Nat) :
    readLen (r.bytes ++ rest) 8 len = r.payload.length :=
  (readLen_of_two _ _ (r.readAt_lenField rest) len).trans r.lenField_be16

theorem readAt_payload (r : Record) (rest : List Byte) (n : Nat) :
    readAt (r.bytes ++ rest) 10 n = (r.payload ++ rest).take n := by
  have h : (r.bytes ++ rest).drop 10 = r.payload ++ rest := by
    simp [bytes, List.drop_append_eq_append_drop, r.magic_length, lenField]
  simp [readAt, h]

end Record

/-- A well-formed container: its records one after the other. -/
def encode (rs : List Record) : List Byte := rs.flatMap Record.bytes

@[simp] theorem encode_nil : encode [] = [] := rfl

@[simp] theorem encode_cons (r : Record) (rs : List Record) :
    encode (r :: rs) = r.bytes ++ encode rs := rfl

end AuviousRecordPlay.Container
