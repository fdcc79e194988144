import AuviousRecordPlay.GetFrames

/-!
# parse_codec: the codec of a recording from its header (janus_auviousrecordplay.c:461-594)

`janus_auviousrecordplay_parse_codec` walks the file with the state of `get_frames`' pass 1,
but every path through the body of its loop returns: the old format's header names the media
(`video` gives VP8, `audio` Opus), the new format's info header carries a JSON object whose
type `t` and codec `c` go to `janus_sdp_match_preferred_codec`. So it decides on the first
record alone. Its `prebuffer` has 1500 bytes (line 485), and nothing checks the info header's
length against them: from 1500 bytes on, `fread` and `prebuffer[len] = '\0'` (lines 528, 535)
write past it. The JSON library is the parameter `loads` (an object read as the value of each
key, `none` where it does not parse), the SDP utilities' codec table the parameter
`matchCodec` (`true` for video). The function is `static` and nothing in the file calls it.
-/

namespace AuviousRecordPlay.Codec

open Container GetFrames

/-- A JSON value as `parse_codec` looks at it: a string, or any other value. -/
inductive JsonVal
  | str (s : String)
  | other
  deriving DecidableEq

/-- `strcasecmp(a, b) == 0`: equal up to the case of ASCII letters. -/
def strcaseEq (a b : String) : Bool := a.data.map Char.toLower == b.data.map Char.toLower

/-- The checks on the info header's object (lines 551-586): the type `t` must be a string equal
to "v" or "a" up to case, the codec `c` a string, and the codec table must know it for that
media. -/
def infoCodec (matchCodec : Bool → String → Option String) (info : String → Option JsonVal) :
    Option String :=
  match info "t" with
  | some (.str t) =>
    if strcaseEq t "v" ∨ strcaseEq t "a" then
      match info "c" with
      | some (.str c) => matchCodec (strcaseEq t "v") c
      | _ => none
    else none
  | _ => none

/-- How a call of `parse_codec` ends: it returns a codec name or `NULL`, or it writes past the
1500 bytes of `prebuffer`, undefined behaviour, where the model stops. -/
inductive Outcome
  | ret (codec : Option String)
  | overflow
  deriving DecidableEq

variable (loads : List Byte → Option (String → Option JsonVal))
  (matchCodec : Bool → String → Option String)

/-- The body of the loop of `parse_codec` (lines 489-590) from the walk state `w`; each of its
paths returns, `.ret none` for `NULL`. -/
def codecStep (file : List Byte) (w : Walk) : Outcome :=
  let magic := readAt file w.offset 8
  let buf := fill w.buf magic
  if magic.length ≠ 8 ∨ buf 0 ≠ ascii 'M' then .ret none
  else
    let len := readLen file (w.offset + 8) w.len
    let pos := w.offset + 10
    if buf 1 = ascii 'E' then
      if len = 5 ∧ w.parsedHeader = false then
        let buf := fill buf (readAt file pos 5)
        if buf 0 = ascii 'v' then .ret (some "vp8")
        else if buf 0 = ascii 'a' then .ret (some "opus") else .ret none
      else .ret none
    else if buf 1 = ascii 'J' then
      if 0 < len ∧ w.parsedHeader = false then
        if 1500 ≤ len then .overflow
        else
          let buf := Function.update (fill buf (readAt file pos len)) len 0
          .ret ((loads (cString buf (len + 1))).bind (infoCodec matchCodec))
      else .ret none
    else .ret none

/-- `janus_auviousrecordplay_parse_codec` on the bytes of the file: the loop runs while
`offset < fsize`, from the state `get_frames` starts pass 1 in, and returns in its first
iteration. -/
def parseCodec (file : List Byte) : Outcome :=
  if Walk.init.offset < file.length then codecStep loads matchCodec file .init else .ret none

/-- What the header record of a container says of the codec, read off the record: its magic,
and its payload (the text up to its first NUL for the info header, which overflows `prebuffer`
from 1500 bytes on). -/
def headerCodec (r : Record) : Outcome :=
  if r.magicAt 0 ≠ ascii 'M' then .ret none
  else if r.magicAt 1 = ascii 'E' then
    if r.payload.length = 5 then
      if r.payloadAt 0 = ascii 'v' then .ret (some "vp8")
      else if r.payloadAt 0 = ascii 'a' then .ret (some "opus") else .ret none
    else .ret none
  else if r.magicAt 1 = ascii 'J' then
    if 0 < r.payload.length then
      if 1500 ≤ r.payload.length then .overflow
      else .ret ((loads (r.payload.takeWhile (· != 0))).bind (infoCodec matchCodec))
    else .ret none
  else .ret none

/-- `json_loads` reads the payload up to its first NUL: `prebuffer[len] = '\0'` ends it at
the latest. -/
theorem cString_update_fill (b : Prebuffer) (l : List Byte) :
    cString (Function.update (fill b l) l.length 0) (l.length + 1) = l.takeWhile (· != 0) := by
  have hmap : (List.range l.length).map (Function.update (fill b l) l.length 0) = l := by
    refine List.ext_getElem (by simp) fun i h1 h2 => ?_
    rw [List.length_map, List.length_range] at h1
    rw [List.getElem_map, List.getElem_range]
    simp [Function.update_noteq (Nat.ne_of_lt h1), fill_of_lt h1, List.getD_eq_getElem?_getD,
      List.getElem?_eq_getElem h1, List.getElem_range]
  simp only [cString, List.range_succ, List.map_append, hmap, List.map_singleton,
    Function.update_same, List.takeWhile_append]
  split
  · rename_i h
    rw [List.IsPrefix.eq_of_length (List.takeWhile_prefix _) h]
    simp
  · rfl

theorem fill_zero_magic (r : Record) (i : Nat) : fill (fun _ => 0) r.magic i = r.magicAt i := by
  simp [Record.magicAt]

/-- `parse_codec` decides on the first record of a well-formed container, whatever records
follow, as that record says: an info header of 1500 bytes or more overflows `prebuffer`, and
every other first record gives the codec it names or `NULL`. -/
theorem parse_codec_first_record (r : Record) (rs : List Record) :
    parseCodec loads matchCodec (encode (r :: rs)) = headerCodec loads matchCodec r := by
  have hpay (n : Nat) (hn : r.payload.length = n) :
      fill (fill (fun _ => 0) r.magic) (readAt (r.bytes ++ encode rs) 10 n) =
        fill (fill (fun _ => 0) r.magic) r.payload := by
    rw [r.readAt_payload, ← hn, List.take_left]
  have hpos : 0 < (r.bytes ++ encode rs).length := by simp only [List.length_append, r.bytes_length]; omega
  simp only [parseCodec, codecStep, headerCodec, Walk.init, encode_cons, if_pos hpos,
    Nat.zero_add, r.readAt_magic, r.readLen_bytes, r.magic_length, fill_zero_magic, ne_eq,
    not_true_eq_false, false_or, and_true]
  rw [hpay _ rfl, cString_update_fill]
  by_cases h5 : r.payload.length = 5
  · have h0 : fill (fill (fun _ => 0) r.magic) (readAt (r.bytes ++ encode rs) 10 5) 0 =
        r.payloadAt 0 := by
      rw [hpay 5 h5, fill_of_lt (by omega)]
      rfl
    simp only [h0]
  · simp only [h5, if_false]

end AuviousRecordPlay.Codec
