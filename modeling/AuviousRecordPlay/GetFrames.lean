import AuviousRecordPlay.Order

/-!
# get_frames: the two passes over a container (janus_auviousrecordplay.c:1930-2230)

Pass 1 (lines 1956-2094) walks the records, validates the magic and the header
record, and feeds the RTP timestamp it reads to the reset detection
(`first_ts`, `last_ts`, `reset`). Pass 2 (lines 2096-2213) walks the same file
again, builds a frame packet for every record that is not 'J' and is at least
12 bytes long, with the extended timestamp, and inserts it into the list.

Both loops are written once with the per-timestamp (resp. per-packet) work as
a parameter: `pass1` instantiates it with the reset detection and `getFrames`
instantiates pass 2's with the list insertion. A short read leaves the file at
its end, where every later read returns nothing, so read positions are taken
from the declared sizes. The JSON library that checks the info header
(`json_loads` and the checks on "t", "c", "s", "u", lines 2005-2061) is the
parameter `infoOk`, applied to the NUL-terminated string in `prebuffer`. Nothing checks the
info header's length against the 1500 bytes of `prebuffer`: from 1500 bytes on, pass 1 writes
past it, and the model stops there.
-/

namespace AuviousRecordPlay.GetFrames

open Container Index

/-- Pass 1's walk: `offset`, `parsed_header`, the last `len` read, and `prebuffer`, of which
the model reads and writes only the first 1500 bytes. -/
structure Walk where
  offset : Nat
  parsedHeader : Bool
  len : Nat
  buf : Prebuffer

/-- The walk state before pass 1: offset 0, `len = 0`, `prebuffer` zeroed by `memset`. -/
def Walk.init : Walk := ⟨0, false, 0, fun _ => 0⟩

/-- Pass 1's RTP header read at `pos` (line 2071): the walk continues after the record and the
iteration feeds the timestamp read. -/
def rtp1 (file : List Byte) (pos : Nat) (w : Walk) : Option (Walk × Option Nat) :=
  let buf := fill w.buf (readAt file pos 16)
  some ({ w with buf }, some (rtpTs buf))

/-- One iteration of pass 1 (lines 1957-2093): the walk state after the record and the RTP
timestamp the iteration reads, if any. `none` is `return NULL`, or an info header of 1500 bytes
or more: its `fread` into `prebuffer` and `prebuffer[len] = '\0'` (lines 1996, 2003) write past
the buffer's 1500 bytes, undefined behaviour, where the model stops. -/
def step1 (infoOk : List Byte → Bool) (file : List Byte) (w : Walk) :
    Option (Walk × Option Nat) :=
  let magic := readAt file w.offset 8
  let buf := fill w.buf magic
  if magic.length ≠ 8 ∨ buf 0 ≠ ascii 'M' then none
  else
    let len := readLen file (w.offset + 8) w.len
    let pos := w.offset + 10
    if buf 1 = ascii 'E' then
      if len = 5 ∧ w.parsedHeader = false then
        let buf := fill buf (readAt file pos 5)
        if buf 0 = ascii 'v' ∨ buf 0 = ascii 'a' then some (⟨pos + len, true, len, buf⟩, none)
        else none
      else if len < 12 then some (⟨pos + len, w.parsedHeader, len, buf⟩, none)
      else rtp1 file pos ⟨pos + len, w.parsedHeader, len, buf⟩
    else if buf 1 = ascii 'J' then
      if 0 < len ∧ w.parsedHeader = false then
        if 1500 ≤ len then none
        else
          let buf := Function.update (fill buf (readAt file pos len)) len 0
          if infoOk (cString buf (len + 1)) then rtp1 file (pos + len) ⟨pos + len, true, len, buf⟩
          else none
      else rtp1 file pos ⟨pos + len, w.parsedHeader, len, buf⟩
    else none

/-- Pass 1's loop, at most `fuel` iterations, handing each timestamp read, with the offset
of its record, to `obs`. -/
def loop1 {σ : Type} (obs : σ → Nat → Nat → σ) (infoOk : List Byte → Bool) (file : List Byte) :
    Nat → Walk → σ → Option (Walk × σ)
  | 0, w, s => some (w, s)
  | fuel + 1, w, s =>
    if w.offset < file.length then
      match step1 infoOk file w with
      | none => none
      | some (w', none) => loop1 obs infoOk file fuel w' s
      | some (w', some ts) => loop1 obs infoOk file fuel w' (obs s w.offset ts)
    else some (w, s)

/-- Pass 1's reset detection state: `first_ts`, `last_ts`, `reset`, all 0 at first. -/
structure Resets where
  firstTs : Nat
  lastTs : Nat
  reset : Nat

/-- One timestamp into the reset detection (lines 2073-2091). -/
def Resets.observe (r : Resets) (ts : Nat) : Resets :=
  let r :=
    if r.lastTs = 0 then { r with firstTs := if ts > 1000000 then ts - 1000000 else ts }
    else if ts < r.lastTs then (if r.lastTs - ts > 2000000000 then { r with reset := ts } else r)
    else if ts < r.reset then { r with reset := ts } else r
  { r with lastTs := ts }

/-- Pass 1 of `get_frames`: `none` is `return NULL`. -/
def pass1 (infoOk : List Byte → Bool) (file : List Byte) : Option (Walk × Resets) :=
  loop1 (fun r _ ts => r.observe ts) infoOk file file.length .init ⟨0, 0, 0⟩

/-- The timestamps pass 1 feeds to the reset detection, with the offsets of their records. -/
def feeds1 (infoOk : List Byte → Bool) (file : List Byte) : Option (List (Nat × Nat)) :=
  (loop1 (fun l o ts => l ++ [(o, ts)]) infoOk file file.length .init []).map Prod.snd

/-! ### Pass 2 -/

/-- The extended timestamp of pass 2 (lines 2124-2141). -/
def extend (reset firstTs ts : Nat) : Nat :=
  if reset = 0 then ts else if ts > firstTs then ts else 2 ^ 32 + ts

/-- Pass 2's walk: `offset`, the last `len` read, and `prebuffer`. -/
structure Walk2 where
  offset : Nat
  len : Nat
  buf : Prebuffer

/-- One iteration of pass 2 (lines 2098-2212): the walk state after the record and the frame
packet built from it, unless it is a 'J' record or shorter than 12 bytes. The error branch
after the RTP header read (`bytes < 0`) is dead: `fread` returns a count. -/
def step2 (reset firstTs : Nat) (file : List Byte) (w : Walk2) : Walk2 × Option Frame :=
  let buf := Function.update (fill w.buf (readAt file w.offset 8)) 8 0
  let len := readLen file (w.offset + 8) w.len
  let pos := w.offset + 10
  if buf 1 = ascii 'J' ∨ len < 12 then (⟨pos + len, len, buf⟩, none)
  else
    let buf := fill buf (readAt file pos 16)
    (⟨pos + len, len, buf⟩,
      some ⟨rtpSeq buf, extend reset firstTs (rtpTs buf), len, pos, be16_lt _ _⟩)

/-- Pass 2's loop, at most `fuel` iterations, handing each packet to `ins`. -/
def loop2 {σ : Type} (ins : σ → Frame → σ) (reset firstTs : Nat) (file : List Byte) :
    Nat → Walk2 → σ → σ
  | 0, _, s => s
  | fuel + 1, w, s =>
    if w.offset < file.length then
      match step2 reset firstTs file w with
      | (w', none) => loop2 ins reset firstTs file fuel w' s
      | (w', some p) => loop2 ins reset firstTs file fuel w' (ins s p)
    else s

/-- Pass 2 from the end of pass 1: offset 0, `len` and `prebuffer` as pass 1 left them. -/
def pass2 {σ : Type} (ins : σ → Frame → σ) (file : List Byte) (w : Walk) (r : Resets) (s : σ) : σ :=
  loop2 ins r.reset r.firstTs file file.length ⟨0, w.len, w.buf⟩ s

/-- `janus_auviousrecordplay_get_frames` on the file's bytes: `none` when pass 1 returns
`NULL`, otherwise pass 2's list (whose `list` is `NULL` when no packet was inserted). -/
def getFrames (infoOk : List Byte → Bool) (file : List Byte) : Option FrameList :=
  (pass1 infoOk file).map fun (w, r) => pass2 FrameList.insert file w r .empty

/-- The packets pass 2 inserts, in file order. -/
def frames2 (infoOk : List Byte → Bool) (file : List Byte) : Option (List Frame) :=
  (pass1 infoOk file).map fun (w, r) => pass2 (fun l p => l ++ [p]) file w r []

/-- Pass 2 hands `ins` the packets it appends to a list, in the same order. -/
theorem loop2_foldl {σ : Type} (ins : σ → Frame → σ) (reset firstTs : Nat) (file : List Byte) :
    ∀ fuel w acc (s : σ), (loop2 (fun l p => l ++ [p]) reset firstTs file fuel w acc).foldl ins s =
      loop2 ins reset firstTs file fuel w (acc.foldl ins s) := by
  intro fuel
  induction fuel with
  | zero => intro w acc s; rfl
  | succ fuel ih =>
    intro w acc s
    simp only [loop2]
    split
    · split <;> simp only [ih, List.foldl_append, List.foldl_cons, List.foldl_nil]
    · rfl

/-- `get_frames` inserts, into the empty list, the packets pass 2 builds. -/
theorem getFrames_eq (infoOk : List Byte → Bool) (file : List Byte) :
    getFrames infoOk file = (frames2 infoOk file).map insertAll := by
  simp only [getFrames, frames2, Option.map_map]
  congr 1
  funext ⟨w, r⟩
  exact (loop2_foldl FrameList.insert _ _ file _ _ [] .empty).symm

/-- Whatever the bytes, a list `get_frames` returns is linked from `list` to `last`. -/
theorem getFrames_links {infoOk : List Byte → Bool} {file : List Byte} {l : FrameList}
    (h : getFrames infoOk file = some l) : ∃ ids, Links l ids := by
  rw [getFrames_eq] at h
  obtain ⟨ps, -, rfl⟩ := Option.map_eq_some'.mp h
  obtain ⟨ids, hl, -⟩ := insertAll_links ps
  exact ⟨ids, hl⟩

/-- Whatever the bytes, timestamps do not decrease along a list `get_frames` returns. -/
theorem getFrames_ts_chain {infoOk : List Byte → Bool} {file : List Byte} {l : FrameList}
    (h : getFrames infoOk file = some l) : (l.frames.map Frame.ts).Chain' (· ≤ ·) := by
  rw [getFrames_eq] at h
  obtain ⟨ps, -, rfl⟩ := Option.map_eq_some'.mp h
  refine List.chain'_map_of_chain' _ (fun a b hab => ?_) (Order.insertAll_frames_chain ps)
  simp only [goesAfter, Bool.or_eq_false_iff, decide_eq_false_iff_not] at hab
  omega

/-! ### Recordings where the passes go wrong -/

/-- The magic of the old format's header and of every packet record. -/
def meetecho : List Byte := "MEETECHO".toList.map ascii

/-- The old format's header record: `MEETECHO`, length 5, `video` (lines 1959-1979). -/
def videoHeader : Record := ⟨meetecho, "video".toList.map ascii, rfl, by decide⟩

/-- The new format's info header record: `MJR00002` and the JSON object the recorder writes. -/
def infoHeader : Record :=
  ⟨"MJR00002".toList.map ascii,
    "\x7b\"t\":\"v\",\"c\":\"vp8\",\"s\":1,\"u\":1\x7d".toList.map ascii, rfl, by decide⟩

/-- A 12-byte RTP header with sequence number `seq` and timestamp `ts`. -/
def rtpHeader (seq ts : Nat) : List Byte :=
  [128, 96, (seq / 256).toUInt8, seq.toUInt8,
    (ts / 2 ^ 24).toUInt8, (ts / 2 ^ 16).toUInt8, (ts / 256).toUInt8, ts.toUInt8, 0, 0, 0, 1]

/-- A packet record holding just an RTP header. -/
def rtpRecord (seq ts : Nat) : Record := ⟨meetecho, rtpHeader seq ts, rfl, by simp [rtpHeader]⟩

/-- A wrap from 4000000000 to 0 sets `reset` to 0, its own "no reset" value, so the packet
after the wrap keeps timestamp 0 instead of 2^32 and goes before the one it follows. -/
theorem get_frames_wrap_to_zero (infoOk : List Byte → Bool) :
    (getFrames infoOk (encode [videoHeader, rtpRecord 1 4000000000, rtpRecord 2 0])).map
      (fun l => l.frames.map fun f => (f.seq, f.ts)) = some [(2, 0), (1, 4000000000)] := rfl

/-- After the info header pass 1 reads the next record's magic as an RTP header and feeds
its bytes 4-7 (`ECHO`, 1162037327) to the reset detection; pass 2 builds one packet. -/
theorem feeds1_info_header (infoOk : List Byte → Bool) (h : infoOk infoHeader.payload = true) :
    feeds1 infoOk (encode [infoHeader, rtpRecord 1 3000]) = some [(0, 1162037327), (41, 3000)] ∧
      (frames2 infoOk (encode [infoHeader, rtpRecord 1 3000])).map (List.map Frame.ts) =
        some [3000] := by
  have e : Function.update infoOk infoHeader.payload true = infoOk :=
    h ▸ Function.update_eq_self infoHeader.payload infoOk
  rw [← e]
  exact ⟨rfl, rfl⟩

theorem feeds1_info_header_vp8 :
    (fun _ => true : List Byte → Bool) infoHeader.payload = true ∧
      feeds1 (fun _ => true) (encode [infoHeader, rtpRecord 1 3000]) =
        some [(0, 1162037327), (41, 3000)] ∧
      (frames2 (fun _ => true) (encode [infoHeader, rtpRecord 1 3000])).map (List.map Frame.ts) =
        some [3000] :=
  ⟨rfl, feeds1_info_header _ rfl⟩

/-- A packet record cut off two bytes before the end of its payload is indexed with its
declared length: its payload range [25, 37) runs past the 35-byte file. -/
theorem get_frames_truncated_record (infoOk : List Byte → Bool) :
    (encode [videoHeader] ++ (rtpRecord 1 3000).bytes.take 20).length = 35 ∧
      (getFrames infoOk (encode [videoHeader] ++ (rtpRecord 1 3000).bytes.take 20)).map
        (fun l => l.frames.map fun f => (f.offset, f.len)) = some [(25, 12)] := ⟨rfl, rfl⟩

/-- A packet record of 1501 bytes. -/
def longRecord : Record :=
  ⟨meetecho, rtpHeader 1 3000 ++ List.replicate 1489 0, rfl, by
    simp only [rtpHeader, List.length_append, List.length_replicate, List.length_cons,
      List.length_nil]; decide⟩

set_option maxRecDepth 10000 in
/-- No length is checked against the 1500-byte buffers: a well-formed 1501-byte packet is
indexed, and the playout task will read 1501 bytes into its 1500-byte `buffer`. -/
theorem get_frames_long_packet (infoOk : List Byte → Bool) :
    (getFrames infoOk (encode [videoHeader, longRecord])).map (fun l => l.frames.map Frame.len) =
      some [1501] := rfl

/-! ### Pass 2 on a well-formed container -/

/-- The packet pass 2 builds from a record at offset `o`, if it is media: not 'J' and at least
12 bytes long; the RTP header is the start of the payload. -/
def recordFrame (reset firstTs o : Nat) (r : Record) : Option Frame :=
  if r.magicAt 1 = ascii 'J' ∨ r.payload.length < 12 then none
  else some ⟨be16 (r.payloadAt 2) (r.payloadAt 3),
    extend reset firstTs (be32 (r.payloadAt 4) (r.payloadAt 5) (r.payloadAt 6) (r.payloadAt 7)),
    r.payload.length, o + 10, be16_lt _ _⟩

/-- The packets pass 2 builds from the records `rs`, the first one at offset `o`. -/
def mediaFrames (reset firstTs : Nat) : Nat → List Record → List Frame
  | _, [] => []
  | o, r :: rs => (recordFrame reset firstTs o r).toList ++ mediaFrames reset firstTs (o + 10 + r.payload.length) rs

theorem step2_offset (reset firstTs : Nat) (file : List Byte) (w : Walk2) :
    (step2 reset firstTs file w).1.offset = w.offset + 10 + readLen file (w.offset + 8) w.len := by
  simp only [step2]; split <;> rfl

theorem step2_record (reset firstTs : Nat) (pre rest : List Byte) (r : Record) (len : Nat)
    (buf : Prebuffer) :
    step2 reset firstTs (pre ++ (r.bytes ++ rest)) ⟨pre.length, len, buf⟩ =
      ((step2 reset firstTs (pre ++ (r.bytes ++ rest)) ⟨pre.length, len, buf⟩).1,
        recordFrame reset firstTs pre.length r) ∧
    (step2 reset firstTs (pre ++ (r.bytes ++ rest)) ⟨pre.length, len, buf⟩).1.offset =
      pre.length + 10 + r.payload.length := by
  have hmagic : readAt (pre ++ (r.bytes ++ rest)) pre.length 8 = r.magic := by
    simpa using (readAt_append_left pre _ 0 8).trans (r.readAt_magic rest)
  have hlen : readLen (pre ++ (r.bytes ++ rest)) (pre.length + 8) len = r.payload.length := by
    rw [readLen, readAt_append_left, ← readLen, r.readLen_bytes]
  refine ⟨?_, by rw [step2_offset, hlen]⟩
  have hpay : readAt (pre ++ (r.bytes ++ rest)) (pre.length + 10) 16 =
      (r.payload ++ rest).take 16 := by
    rw [readAt_append_left, r.readAt_payload]
  have h1 : fill buf r.magic 1 = r.magicAt 1 := fill_of_lt (by simp [r.magic_length])
  simp only [step2, hmagic, hlen, hpay, Function.update_apply,
    if_neg (show (1 : Nat) ≠ 8 by decide), h1, recordFrame]
  by_cases hm : r.magicAt 1 = ascii 'J' ∨ r.payload.length < 12
  · simp only [hm, if_true]
  · simp only [hm, if_false]
    push_neg at hm
    have hb : ∀ i < 12, fill (Function.update (fill buf r.magic) 8 0) ((r.payload ++ rest).take 16) i
        = r.payloadAt i := fun i hi => by
      rw [fill_of_lt (by simp only [List.length_take, List.length_append]; omega), Record.payloadAt, List.getD_eq_getElem?_getD,
        List.getD_eq_getElem?_getD, List.getElem?_take_of_lt (by omega),
        List.getElem?_append_left (by omega)]
    simp only [rtpSeq, rtpTs, hb 2 (by decide), hb 3 (by decide), hb 4 (by decide),
      hb 5 (by decide), hb 6 (by decide), hb 7 (by decide)]

/-- Pass 2 on a well-formed container hands `ins` the packets of its records, in file order,
whatever `len` and `prebuffer` it starts with. -/
theorem loop2_encode {σ : Type} (ins : σ → Frame → σ) (reset firstTs : Nat) (rs : List Record) :
    ∀ (pre : List Byte) fuel len buf s, rs.length ≤ fuel →
      loop2 ins reset firstTs (pre ++ encode rs) fuel ⟨pre.length, len, buf⟩ s =
        (mediaFrames reset firstTs pre.length rs).foldl ins s := by
  induction rs with
  | nil => intro pre fuel len buf s _; cases fuel <;> simp [loop2, mediaFrames]
  | cons r rs ih =>
    intro pre fuel len buf s hf
    obtain ⟨fuel, rfl⟩ : ∃ f, fuel = f + 1 := ⟨fuel - 1, by simp at hf; omega⟩
    obtain ⟨hstep, hoff⟩ := step2_record reset firstTs pre (encode rs) r len buf
    have hlt : pre.length < (pre ++ encode (r :: rs)).length := by
      simp only [List.length_append, encode_cons, Record.bytes_length]; omega
    rw [loop2, if_pos hlt, encode_cons, hstep]
    generalize (step2 reset firstTs (pre ++ (r.bytes ++ encode rs)) ⟨pre.length, len, buf⟩).1 = w
      at hoff ⊢
    obtain ⟨off, len', buf'⟩ := w
    simp only at hoff
    subst hoff
    have hnext := ih (pre ++ r.bytes) fuel len' buf'
    simp only [List.length_append, Record.bytes_length, List.append_assoc, ← Nat.add_assoc] at hnext
    simp only [mediaFrames, List.foldl_append]
    cases recordFrame reset firstTs pre.length r <;>
      simp only [Option.toList, List.foldl_nil, List.foldl_cons] <;>
      exact hnext _ (by simp at hf; omega)

/-- The records pass 2 treats as media ('J' excluded, at least 12 bytes), the first record at
offset `o`: payload offset, declared length, and the RTP sequence number at payload bytes 2-3. -/
def mediaRecords : Nat → List Record → List (Nat × Nat × Nat)
  | _, [] => []
  | o, r :: rs =>
    (if r.magicAt 1 = ascii 'J' ∨ r.payload.length < 12 then []
      else [(o + 10, r.payload.length, be16 (r.payloadAt 2) (r.payloadAt 3))]) ++
    mediaRecords (o + 10 + r.payload.length) rs

theorem mediaFrames_place (reset firstTs : Nat) (rs : List Record) :
    ∀ o, (mediaFrames reset firstTs o rs).map Frame.place = mediaRecords o rs := by
  induction rs with
  | nil => intro o; rfl
  | cons r rs ih =>
    intro o
    simp only [mediaFrames, mediaRecords, List.map_append, ih, recordFrame]
    split <;> rfl

theorem length_le_encode (rs : List Record) : rs.length ≤ (encode rs).length := by
  induction rs with
  | nil => simp
  | cons r rs ih => simp only [List.length_cons, encode_cons, List.length_append, Record.bytes_length]; omega

/-- On a well-formed container, `get_frames` inserts the media records' packets in file order. -/
theorem getFrames_encode {infoOk : List Byte → Bool} {rs : List Record} {l : FrameList}
    (h : getFrames infoOk (encode rs) = some l) :
    ∃ r : Resets, l = insertAll (mediaFrames r.reset r.firstTs 0 rs) := by
  obtain ⟨⟨w, r⟩, -, rfl⟩ := Option.map_eq_some'.mp h
  exact ⟨r, loop2_encode _ _ _ rs [] _ _ _ _ (length_le_encode rs)⟩

/-- `get_frames` on a well-formed container: the list is a doubly linked list of all the
allocated packets from `list` to `last`, one node per record pass 2 treats as media (packet `i`
from the `i`-th such record, with its payload offset, length and sequence number), and no two
neighbours `a, b` are out of the scan's order. -/
theorem get_frames_list_wellformed (infoOk : List Byte → Bool) (rs : List Record) (l : FrameList)
    (h : getFrames infoOk (encode rs) = some l) :
    ∃ ids, Links l ids ∧ l.toList = ids ∧
      (ids.map fun i => (l.frameAt i).place).Perm (mediaRecords 0 rs) ∧
      (List.range l.size).map (fun i => (l.frameAt i).place) = mediaRecords 0 rs ∧
      (ids.map l.frameAt).Chain' fun a b =>
        a.ts < b.ts ∨ (a.ts = b.ts ∧ seqBefore b.seq a.seq = false) := by
  obtain ⟨r, rfl⟩ := getFrames_encode h
  obtain ⟨ids, hl, -, halloc⟩ := insertAll_links (mediaFrames r.reset r.firstTs 0 rs)
  have hsize := insertAll_size (mediaFrames r.reset r.firstTs 0 rs)
  have hplace : (List.range (insertAll (mediaFrames r.reset r.firstTs 0 rs)).size).map
      (fun i => ((insertAll (mediaFrames r.reset r.firstTs 0 rs)).frameAt i).place) =
        mediaRecords 0 rs := by
    have := congrArg (List.map Frame.place) halloc
    rw [List.map_map, mediaFrames_place] at this
    rw [hsize]; exact this
  have hperm : ids.Perm (List.range (insertAll (mediaFrames r.reset r.firstTs 0 rs)).size) :=
    (List.perm_ext_iff_of_nodup hl.nodup (List.nodup_range _)).mpr fun i => by
      simp [hl.mem_iff]
  refine ⟨ids, hl, hl.toList_eq, ?_, hplace, ?_⟩
  · rw [← hplace]; exact hperm.map _
  · have hc := Order.insertAll_frames_chain (mediaFrames r.reset r.firstTs 0 rs)
    rw [FrameList.frames, hl.toList_eq] at hc
    refine hc.imp fun a b hab => ?_
    simp only [goesAfter, Bool.or_eq_false_iff, Bool.and_eq_false_iff, decide_eq_false_iff_not,
      beq_iff_eq] at hab
    obtain ⟨hab1, hab2⟩ := hab
    rcases Nat.lt_or_ge a.ts b.ts with h1 | h1
    · exact .inl h1
    · have heq : a.ts = b.ts := by omega
      exact .inr ⟨heq, hab2.resolve_left (by simp [heq])⟩

theorem get_frames_list_wellformed_reordered :
    ∃ l, getFrames (fun _ => true)
        (encode [videoHeader, rtpRecord 2 3000, rtpRecord 1 3000, rtpRecord 3 6000]) = some l ∧
      ∃ ids, Links l ids ∧ l.toList = ids ∧
        (ids.map fun i => (l.frameAt i).place).Perm
          (mediaRecords 0 [videoHeader, rtpRecord 2 3000, rtpRecord 1 3000, rtpRecord 3 6000]) ∧
        (List.range l.size).map (fun i => (l.frameAt i).place) =
          mediaRecords 0 [videoHeader, rtpRecord 2 3000, rtpRecord 1 3000, rtpRecord 3 6000] ∧
        (ids.map l.frameAt).Chain' fun a b =>
          a.ts < b.ts ∨ (a.ts = b.ts ∧ seqBefore b.seq a.seq = false) :=
  ⟨_, rfl, get_frames_list_wellformed (fun _ => true)
    [videoHeader, rtpRecord 2 3000, rtpRecord 1 3000, rtpRecord 3 6000] _ rfl⟩

end AuviousRecordPlay.GetFrames
