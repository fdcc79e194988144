import Mathlib.Data.List.Chain
import Mathlib.Algebra.Group.Int

/-!
# RTCP feedback to a session's sender (janus_auviousrecordplay.c:1061-1130)

`janus_auviousrecordplay_incoming_rtp` first drops, while `session->simulcast_ssrc` is not 0,
every video packet whose SSRC is not that base substream (lines 1114-1122). It saves each
packet it keeps on a recorder and hands it to `janus_auviousrecordplay_send_rtcp_feedback`,
which answers video packets with a REMB and a PLI on its own schedule. It sends a REMB at each
of the first four video packets: `video_remb_startup` counts them down from 4, and the bitrate
announced is `video_bitrate` divided by the count. After that it sends one once five seconds
have passed since the last. It sends a PLI once `video_keyframe_interval / 1000` whole seconds
have passed since the last one. The fields start as `create_session` sets them (lines 803-807;
`simulcast_ssrc` is 0 from `g_malloc0`). A `configure` request (lines 962-975) overwrites
`video_bitrate` and `video_keyframe_interval` with the JSON integers given, truncated to 32
bits. A `record` or `record-process-answer` request whose JSEP has a `simulcast` object sets
`simulcast_ssrc` to its `ssrc-0` (lines 1463-1468, 1851-1856), and a hang-up sets it back to 0
(line 1199).

The schedule is stated over the history of a session's events. Whether a packet gets past the
filter is a function of the `simulcast_ssrc` the earlier events leave; whether a video packet
that gets past it gets a REMB or a PLI, and the bitrate it announces, are functions of the
earlier events and of the readings at which the earlier REMBs and PLIs went out
(`feedback_follows_history`). From it: after the ramp-up no two REMBs are less than five
seconds apart, and with a keyframe interval under a second every video packet of the base
substream gets a PLI and every other one none.
-/

namespace AuviousRecordPlay.Rtcp

/-- `G_USEC_PER_SEC`. -/
def usecPerSec : Int := 1000000

/-- The fields of `janus_auviousrecordplay_session` the feedback reads and writes (lines
409-414). Times are `janus_get_monotonic_time()` readings, in microseconds. -/
structure Feedback where
  /-- `video_remb_startup`, a `guint` counted down from 4 and never below 0. -/
  rembStartup : Nat
  /-- `video_remb_last`. -/
  rembLast : Int
  /-- `video_bitrate` (`guint32`). -/
  bitrate : UInt32
  /-- `video_keyframe_interval` (`guint`), in milliseconds. -/
  kfInterval : UInt32
  /-- `video_keyframe_request_last`, a `guint64`. Line 1087 subtracts it from a reading in
  64-bit arithmetic and keeps the result in a `gint64`, which for readings below 2^63 is the
  difference of the integers. -/
  kfLast : Int
  /-- `simulcast_ssrc` (`guint32`): 0, or the SSRC of the only video substream kept. -/
  simulcastSsrc : UInt32
  deriving DecidableEq

/-- The defaults of `janus_auviousrecordplay_create_session` (lines 803-807), with the reading
`now` of line 804; `simulcast_ssrc` is 0 from `g_malloc0`. -/
def Feedback.create (now : Int) : Feedback := ⟨4, now, 1024 * 1024, 15000, 0, 0⟩

/-- What the plugin does with a packet besides relaying nothing. -/
inductive Action
  /-- `janus_recorder_save_frame` on the video or the audio recorder. -/
  | save (video : Bool)
  /-- `gateway->send_remb(handle, bitrate)`. -/
  | remb (bitrate : UInt32)
  /-- `gateway->send_pli(handle)`. -/
  | pli
  deriving DecidableEq

def Action.isRemb : Action → Bool
  | .remb _ => true
  | _ => false

def Action.isPli : Action → Bool
  | .pli => true
  | _ => false

/-- The keyframe interval in microseconds, `(gint64)(video_keyframe_interval / 1000) *
G_USEC_PER_SEC` (line 1088): whole seconds only. -/
def keyframeUsec (kf : UInt32) : Int := ((kf / 1000).toNat : Int) * usecPerSec

namespace Feedback

variable (f : Feedback)

/-- Lines 1069-1083: a REMB while ramping up, or once five seconds have passed since the last. -/
def sendRemb (now : Int) : Feedback × List Action :=
  let rampup : Bool := 0 < f.rembStartup
  if rampup ∨ 5 * usecPerSec ≤ now - f.rembLast then
    let bitrate := if rampup then f.bitrate / f.rembStartup.toUInt32 else f.bitrate
    ({ f with rembStartup := if rampup then f.rembStartup - 1 else f.rembStartup, rembLast := now },
      [.remb bitrate])
  else (f, [])

/-- Lines 1085-1095: a PLI once the keyframe interval has passed since the last one. -/
def sendPli (now : Int) : Feedback × List Action :=
  if keyframeUsec f.kfInterval ≤ now - f.kfLast then ({ f with kfLast := now }, [.pli]) else (f, [])

/-- `janus_auviousrecordplay_send_rtcp_feedback` (lines 1061-1096) at the reading `now`: nothing
for audio. -/
def sendRtcpFeedback (video : Bool) (now : Int) : Feedback × List Action :=
  if video then
    let r := f.sendRemb now
    let q := r.1.sendPli now
    (q.1, r.2 ++ q.2)
  else (f, [])

/-- `janus_auviousrecordplay_incoming_rtp` (lines 1098-1130) on a packet whose RTP header
carries the SSRC `ssrc`. `live` is whether the packet gets past the checks of lines 1099-1107:
the handle is not stopped, the plugin runs, and the session exists and is not destroyed. -/
def incomingRtp (live recorder video : Bool) (ssrc : UInt32) (now : Int) :
    Feedback × List Action :=
  if live = false then (f, [])
  else if video = true ∧ f.simulcastSsrc ≠ 0 ∧ ssrc ≠ f.simulcastSsrc then (f, [])
  else
    let r := f.sendRtcpFeedback video now
    (r.1, (if recorder then [Action.save video] else []) ++ r.2)

end Feedback

/-- `json_integer_value` stored into a 32-bit unsigned field: the value modulo 2^32. -/
def toGuint32 (v : Int) : UInt32 := (v % 2 ^ 32).toNat.toUInt32

/-- The `configure` branch of `janus_auviousrecordplay_handle_message` (lines 962-975) once
`configure_parameters` passed: each integer given overwrites its field. -/
def Feedback.configure (f : Feedback) (bitrate kfi : Option Int) : Feedback :=
  let f := match bitrate with
    | some v => { f with bitrate := toGuint32 v }
    | none => f
  match kfi with
  | some v => { f with kfInterval := toGuint32 v }
  | none => f

/-- Lines 1463-1468 of a `record` request that got to its answer, and lines 1851-1856 of a
`record-process-answer` one: when the JSEP has a `simulcast` object, `simulcast_ssrc` takes
its `ssrc-0` as `json_integer_value` gives it (0 when it is missing or not an integer),
truncated to 32 bits. -/
def Feedback.recordSimulcast (f : Feedback) (simulcast : Option Int) : Feedback :=
  match simulcast with
  | some v => { f with simulcastSsrc := toGuint32 v }
  | none => f

/-! ### Runs of a session -/

/-- An event of a session after `create_session`. -/
inductive Event
  /-- An RTP packet with the SSRC `ssrc` handed to `incoming_rtp` at the reading `now`. -/
  | rtp (live recorder video : Bool) (ssrc : UInt32) (now : Int)
  /-- A `configure` request that passed its checks, with the integers it gives. -/
  | configure (bitrate kfi : Option Int)
  /-- A `record` or `record-process-answer` request that got to its answer, with the `ssrc-0`
  of the JSEP's `simulcast` object if it has one. -/
  | record (simulcast : Option Int)
  /-- A `hangup_media_internal` that got past its checks (lines 1185-1198). -/
  | hangup
  deriving DecidableEq

/-- One event, each action with the reading of its packet. -/
def Feedback.handle (f : Feedback) : Event → Feedback × List (Int × Action)
  | .rtp live recorder video ssrc now =>
    let r := f.incomingRtp live recorder video ssrc now
    (r.1, r.2.map (now, ·))
  | .configure bitrate kfi => (f.configure bitrate kfi, [])
  | .record simulcast => (f.recordSimulcast simulcast, [])
  | .hangup => ({ f with simulcastSsrc := 0 }, [])

/-- The events `evs` one after the other, with every action they caused, in order. -/
def feed (f : Feedback) (evs : List Event) : Feedback × List (Int × Action) :=
  evs.foldl (fun r e => ((r.1.handle e).1, r.2 ++ (r.1.handle e).2)) (f, [])

/-! ### The schedule as a function of the history -/

/-- Whether a packet gets past the checks of `incoming_rtp` (lines 1099-1122) while
`simulcast_ssrc` is `s`: it is live, and a video packet comes from the substream `s` unless `s`
is 0. -/
def admits (s : UInt32) (live video : Bool) (ssrc : UInt32) : Bool :=
  live && (!video || s == 0 || ssrc == s)

/-- `simulcast_ssrc` after the event `e`, from `s`. -/
def Event.simulcastAfter (s : UInt32) : Event → UInt32
  | .record simulcast => (simulcast.map toGuint32).getD s
  | .hangup => 0
  | .rtp .. | .configure .. => s

/-- The `simulcast_ssrc` the events `evs` leave, from the 0 of `create_session`. -/
def simulcastOf (evs : List Event) : UInt32 := evs.foldl Event.simulcastAfter 0

/-- Whether an event is a video packet that reaches `send_rtcp_feedback` while
`simulcast_ssrc` is `s`. -/
def Event.fedVideo (s : UInt32) : Event → Bool
  | .rtp live _ video ssrc _ => video && admits s live video ssrc
  | _ => false

def Event.bitrate : Event → Option Int
  | .configure bitrate _ => bitrate
  | _ => none

def Event.kfi : Event → Option Int
  | .configure _ kfi => kfi
  | _ => none

/-- The video packets among `evs` that reach `send_rtcp_feedback`, from `simulcast_ssrc` `s`. -/
def fedVideos : UInt32 → List Event → Nat
  | _, [] => 0
  | s, e :: evs => (if e.fedVideo s then 1 else 0) + fedVideos (Event.simulcastAfter s e) evs

/-- The video packets of a session's history `evs` that reach `send_rtcp_feedback`. -/
def liveVideos (evs : List Event) : Nat := fedVideos 0 evs

/-- The value the `configure` requests among `evs` leave in a field that starts at `d`. -/
def configured (get : Event → Option Int) (d : UInt32) (evs : List Event) : UInt32 :=
  evs.foldl (fun x e => ((get e).map toGuint32).getD x) d

/-- The reading of the last action of `outs` that `isIt` picks, `d` if there is none. -/
def lastAt (isIt : Action → Bool) (d : Int) (outs : List (Int × Action)) : Int :=
  ((outs.filter (isIt ·.2)).getLast?.map Prod.fst).getD d

/-- The RTCP feedback that a video packet read at `now` that reaches `send_rtcp_feedback` calls
for, after the history `evs`
of a session created at the reading `t0`, whose actions were `outs`. The first four such
packets get a REMB of the configured bitrate divided by 4, 3, 2 and 1. A later one gets a REMB
of the configured bitrate five seconds after the last REMB (or after `t0`). A packet gets a PLI
once the configured interval, in whole seconds, has passed since the last PLI (or since 0). -/
def scheduled (t0 : Int) (evs : List Event) (outs : List (Int × Action)) (now : Int) :
    List Action :=
  let n := liveVideos evs
  let b := configured Event.bitrate (1024 * 1024) evs
  (if n < 4 then [Action.remb (b / (4 - n).toUInt32)]
    else if 5 * usecPerSec ≤ now - lastAt Action.isRemb t0 outs then [.remb b] else []) ++
  (if keyframeUsec (configured Event.kfi 15000 evs) ≤ now - lastAt Action.isPli 0 outs then [.pli]
    else [])

section History

variable {t0 now : Int} {evs : List Event} {outs : List (Int × Action)} {f : Feedback}

theorem fedVideos_append (s : UInt32) (evs : List Event) (e : Event) :
    fedVideos s (evs ++ [e]) =
      fedVideos s evs + if e.fedVideo (evs.foldl Event.simulcastAfter s) then 1 else 0 := by
  induction evs generalizing s with
  | nil => simp [fedVideos]
  | cons e' evs ih => rw [List.cons_append, fedVideos, fedVideos, ih, List.foldl_cons]; omega

@[simp] theorem liveVideos_append (evs : List Event) (e : Event) :
    liveVideos (evs ++ [e]) = liveVideos evs + if e.fedVideo (simulcastOf evs) then 1 else 0 :=
  fedVideos_append 0 evs e

@[simp] theorem simulcastOf_append (evs : List Event) (e : Event) :
    simulcastOf (evs ++ [e]) = Event.simulcastAfter (simulcastOf evs) e := by
  simp [simulcastOf, List.foldl_append]

@[simp] theorem configured_append (get : Event → Option Int) (d : UInt32) (evs : List Event)
    (e : Event) : configured get d (evs ++ [e]) = ((get e).map toGuint32).getD (configured get d evs) := by
  simp [configured, List.foldl_append]

/-- The code's fields are the history's: the base substream, the ramp-up count, the readings of
the last REMB and the last PLI, and the configured bitrate and interval. -/
structure Tracks (t0 : Int) (evs : List Event) (outs : List (Int × Action)) (f : Feedback) :
    Prop where
  simulcast : f.simulcastSsrc = simulcastOf evs
  startup : f.rembStartup = 4 - liveVideos evs
  rembLast : f.rembLast = lastAt Action.isRemb t0 outs
  kfLast : f.kfLast = lastAt Action.isPli 0 outs
  bitrate : f.bitrate = configured Event.bitrate (1024 * 1024) evs
  kfInterval : f.kfInterval = configured Event.kfi 15000 evs

theorem tracks_create (t0 : Int) : Tracks t0 [] [] (.create t0) :=
  ⟨rfl, rfl, rfl, rfl, rfl, rfl⟩

/-- What a video packet handed to `send_rtcp_feedback` does, in terms of the fields it reads. -/
theorem sendRtcpFeedback_video (f : Feedback) (now : Int) :
    (f.sendRtcpFeedback true now).2 =
      (if 0 < f.rembStartup then [Action.remb (f.bitrate / f.rembStartup.toUInt32)]
        else if 5 * usecPerSec ≤ now - f.rembLast then [.remb f.bitrate] else []) ++
      (if keyframeUsec f.kfInterval ≤ now - f.kfLast then [.pli] else []) := by
  unfold Feedback.sendRtcpFeedback Feedback.sendRemb Feedback.sendPli
  by_cases h0 : 0 < f.rembStartup
  · by_cases hp : keyframeUsec f.kfInterval ≤ now - f.kfLast <;> simp [h0, hp]
  · by_cases hr : 5 * usecPerSec ≤ now - f.rembLast <;>
      by_cases hp : keyframeUsec f.kfInterval ≤ now - f.kfLast <;> simp [h0, hr, hp]

theorem sendRtcpFeedback_video_state (f : Feedback) (now : Int) :
    (f.sendRtcpFeedback true now).1 =
      { f with rembStartup := f.rembStartup - 1,
               rembLast := if 0 < f.rembStartup ∨ 5 * usecPerSec ≤ now - f.rembLast then now
                 else f.rembLast,
               kfLast := if keyframeUsec f.kfInterval ≤ now - f.kfLast then now else f.kfLast } := by
  unfold Feedback.sendRtcpFeedback Feedback.sendRemb Feedback.sendPli
  by_cases h0 : 0 < f.rembStartup
  · by_cases hp : keyframeUsec f.kfInterval ≤ now - f.kfLast <;> simp [h0, hp]
  · have h1 : f.rembStartup - 1 = f.rembStartup := by omega
    by_cases hr : 5 * usecPerSec ≤ now - f.rembLast <;>
      by_cases hp : keyframeUsec f.kfInterval ≤ now - f.kfLast <;> simp [h0, hr, hp, h1]

/-- Whether a video packet handed to `send_rtcp_feedback` gets a REMB, and whether it gets a PLI. -/
theorem sendRtcpFeedback_video_any (f : Feedback) (now : Int) :
    (f.sendRtcpFeedback true now).2.any Action.isRemb =
        decide (0 < f.rembStartup ∨ 5 * usecPerSec ≤ now - f.rembLast) ∧
      (f.sendRtcpFeedback true now).2.any Action.isPli =
        decide (keyframeUsec f.kfInterval ≤ now - f.kfLast) := by
  rw [sendRtcpFeedback_video]
  by_cases h0 : 0 < f.rembStartup <;> by_cases hr : 5 * usecPerSec ≤ now - f.rembLast <;>
    by_cases hp : keyframeUsec f.kfInterval ≤ now - f.kfLast <;>
    simp [h0, hr, hp, Action.isRemb, Action.isPli]

theorem lastAt_append (isIt : Action → Bool) (d : Int) (outs new : List (Int × Action)) :
    lastAt isIt d (outs ++ new) = lastAt isIt (lastAt isIt d outs) new := by
  unfold lastAt
  rw [List.filter_append, List.getLast?_append]
  cases (new.filter (isIt ·.2)).getLast? <;> simp

/-- The actions of one packet all carry its reading. -/
theorem lastAt_map (isIt : Action → Bool) (d now : Int) (as : List Action) :
    lastAt isIt d (as.map (now, ·)) = if as.any isIt then now else d := by
  induction as generalizing d with
  | nil => rfl
  | cons a as ih =>
    rw [List.map_cons, ← List.singleton_append, lastAt_append, ih]
    by_cases ha : isIt a <;> simp [lastAt, ha]

@[simp] theorem configure_rembStartup (b k : Option Int) :
    (f.configure b k).rembStartup = f.rembStartup := by
  cases b <;> cases k <;> rfl

@[simp] theorem configure_rembLast (b k : Option Int) : (f.configure b k).rembLast = f.rembLast := by
  cases b <;> cases k <;> rfl

@[simp] theorem configure_kfLast (b k : Option Int) : (f.configure b k).kfLast = f.kfLast := by
  cases b <;> cases k <;> rfl

@[simp] theorem configure_bitrate (b k : Option Int) :
    (f.configure b k).bitrate = (b.map toGuint32).getD f.bitrate := by
  cases b <;> cases k <;> rfl

@[simp] theorem configure_kfInterval (b k : Option Int) :
    (f.configure b k).kfInterval = (k.map toGuint32).getD f.kfInterval := by
  cases b <;> cases k <;> rfl

@[simp] theorem configure_simulcastSsrc (b k : Option Int) :
    (f.configure b k).simulcastSsrc = f.simulcastSsrc := by
  cases b <;> cases k <;> rfl

/-- A record request moves only the base substream. -/
theorem recordSimulcast_eq (v : Option Int) :
    f.recordSimulcast v = { f with simulcastSsrc := (v.map toGuint32).getD f.simulcastSsrc } := by
  cases v <;> rfl

/-- What a packet does: nothing unless it gets past the checks, and then a save on a recorder
and the feedback. -/
theorem incomingRtp_eq (live recorder video : Bool) (ssrc : UInt32) (now : Int) :
    f.incomingRtp live recorder video ssrc now =
      if admits f.simulcastSsrc live video ssrc then
        ((f.sendRtcpFeedback video now).1,
          (if recorder then [Action.save video] else []) ++ (f.sendRtcpFeedback video now).2)
      else (f, []) := by
  unfold Feedback.incomingRtp admits
  cases live <;> cases video <;> by_cases h0 : f.simulcastSsrc = 0 <;>
    by_cases hs : ssrc = f.simulcastSsrc <;> simp [h0, hs]

/-- The step lemma: every event keeps the code's fields equal to the history's. -/
theorem Tracks.handle (ht : Tracks t0 evs outs f) (e : Event) :
    Tracks t0 (evs ++ [e]) (outs ++ (f.handle e).2) (f.handle e).1 := by
  obtain ⟨hsim, hst, hrl, hkl, hb, hk⟩ := ht
  cases e with
  | rtp live recorder video ssrc now =>
    simp only [Feedback.handle, incomingRtp_eq, hsim]
    by_cases ha : admits (simulcastOf evs) live video ssrc
    · cases video
      · simp only [ha, if_true, Feedback.sendRtcpFeedback, Bool.false_eq_true, if_false,
          List.append_nil]
        have hsame (isIt : Action → Bool) (h : isIt (.save false) = false) (d : Int) :
            lastAt isIt d (outs ++ (if recorder then [Action.save false] else []).map (now, ·)) =
              lastAt isIt d outs := by
          rw [lastAt_append, lastAt_map]; cases recorder <;> simp [h]
        refine ⟨by simp [Event.simulcastAfter, hsim], by simp [Event.fedVideo, hst],
          by rw [hsame _ rfl, hrl], by rw [hsame _ rfl, hkl], by simp [Event.bitrate, hb],
          by simp [Event.kfi, hk]⟩
      · have hsave (isIt : Action → Bool) (h : isIt (.save true) = false) (as : List Action) :
            ((if recorder then [Action.save true] else []) ++ as).any isIt = as.any isIt := by
          cases recorder <;> simp [h]
        simp only [ha, if_true, sendRtcpFeedback_video_state]
        obtain ⟨hr, hp⟩ := sendRtcpFeedback_video_any f now
        refine ⟨by simp [Event.simulcastAfter, hsim], by simp [Event.fedVideo, ha, hst]; omega,
          ?_, ?_, by simp [Event.bitrate, hb], by simp [Event.kfi, hk]⟩
        · rw [lastAt_append, lastAt_map, hsave _ rfl, hr, ← hrl]
          simp only [decide_eq_true_eq]
        · rw [lastAt_append, lastAt_map, hsave _ rfl, hp, ← hkl]
          simp only [decide_eq_true_eq]
    · simp only [ha, Bool.false_eq_true, if_false, List.map_nil, List.append_nil]
      refine ⟨?_, ?_, hrl, hkl, ?_, ?_⟩ <;>
        simp [Event.simulcastAfter, Event.fedVideo, Event.bitrate, Event.kfi, ha, hsim, hst, hb, hk]
  | _ =>
    -- a request or a hang-up sends nothing and moves at most the base substream and the
    -- configured values
    refine ⟨?_, ?_, ?_, ?_, ?_, ?_⟩ <;> simp [Feedback.handle, recordSimulcast_eq,
      Event.simulcastAfter, Event.fedVideo, Event.bitrate, Event.kfi, hsim, hst, hrl, hkl, hb, hk]

/-- The run lemma: a property of the history, the actions and the fields that holds at the start
and that every event keeps holds after any events. -/
theorem feed_induct (P : List Event → List (Int × Action) → Feedback → Prop)
    (hstep : ∀ evs outs f e, P evs outs f → P (evs ++ [e]) (outs ++ (f.handle e).2) (f.handle e).1)
    {f : Feedback} (h0 : P [] [] f) (evs : List Event) : P evs (feed f evs).2 (feed f evs).1 := by
  suffices ∀ more pre outs g, P pre outs g → P (pre ++ more)
      (more.foldl (fun r e => ((r.1.handle e).1, r.2 ++ (r.1.handle e).2)) (g, outs)).2
      (more.foldl (fun r e => ((r.1.handle e).1, r.2 ++ (r.1.handle e).2)) (g, outs)).1 from
    this evs [] [] f h0
  intro more
  induction more with
  | nil => intro pre outs g h; simpa using h
  | cons e more ih =>
    intro pre outs g h
    rw [List.foldl_cons, ← List.singleton_append, ← List.append_assoc]
    exact ih _ _ _ (hstep _ _ _ _ h)

theorem tracks_feed (t0 : Int) (evs : List Event) :
    Tracks t0 evs (feed (.create t0) evs).2 (feed (.create t0) evs).1 :=
  feed_induct (Tracks t0) (fun _ _ _ e ht => ht.handle e) (tracks_create t0) evs

/-- A packet after a history that the fields track. -/
theorem Tracks.rtp (ht : Tracks t0 evs outs f) (live recorder video : Bool) (ssrc : UInt32)
    (now : Int) :
    (f.handle (.rtp live recorder video ssrc now)).2 =
      (if admits (simulcastOf evs) live video ssrc then
        (if recorder then [Action.save video] else []) ++
          (if video then scheduled t0 evs outs now else [])
      else []).map (now, ·) := by
  simp only [Feedback.handle, incomingRtp_eq, ht.simulcast]
  by_cases ha : admits (simulcastOf evs) live video ssrc
  · simp only [ha, if_true]
    cases video
    · simp [Feedback.sendRtcpFeedback]
    · simp only [sendRtcpFeedback_video, scheduled, ht.startup, ht.rembLast, ht.kfLast,
        ht.bitrate, ht.kfInterval, Nat.sub_pos_iff_lt, if_true]
  · simp only [ha, Bool.false_eq_true, if_false, List.map_nil]

end History

/-- For every session and every history of packets, `configure` and `record` requests and
hang-ups since `create_session`, a packet gets past the checks of `incoming_rtp` if it is live
and, for video while a record request has set a base substream, from that substream. Such a
packet is saved if the session records, and a video one gets the `scheduled` feedback of the
history: REMBs of the configured bitrate, truncated to 32 bits, divided by 4, 3, 2, 1 at the
first four video packets that got past the checks and whole afterwards, once five seconds have
passed since the last REMB; a PLI once the configured keyframe interval, in whole seconds, has
passed since the last PLI. Any other packet causes nothing. -/
theorem feedback_follows_history (t0 : Int) (evs : List Event) (live recorder video : Bool)
    (ssrc : UInt32) (now : Int) :
    ((feed (.create t0) evs).1.handle (.rtp live recorder video ssrc now)).2 =
      (if admits (simulcastOf evs) live video ssrc then
        (if recorder then [Action.save video] else []) ++
          (if video then scheduled t0 evs (feed (.create t0) evs).2 now else [])
      else []).map (now, ·) :=
  (tracks_feed t0 evs).rtp live recorder video ssrc now

/-! ### Rates -/

/-- The readings of the REMBs among `outs`. -/
def rembTimes (outs : List (Int × Action)) : List Int :=
  (outs.filter (Action.isRemb ·.2)).map Prod.fst

section Rates

variable {t0 : Int} {evs : List Event} {outs : List (Int × Action)} {f : Feedback}

theorem lastAt_remb (t0 : Int) (outs : List (Int × Action)) :
    lastAt Action.isRemb t0 outs = (rembTimes outs).getLast?.getD t0 := by
  simp [lastAt, rembTimes, List.getLast?_map]

@[simp] theorem rembTimes_append (outs new : List (Int × Action)) :
    rembTimes (outs ++ new) = rembTimes outs ++ rembTimes new := by
  simp [rembTimes, List.filter_append]

/-- After the ramp-up the REMB readings `ts` are at least five seconds apart, and during it there
is one for each of the `n` video packets that got past the checks of `incoming_rtp`. -/
structure Spaced (n : Nat) (ts : List Int) : Prop where
  chain : (ts.drop 3).Chain' (fun a b => a + 5 * usecPerSec ≤ b)
  rampup : n < 4 → ts.length = n
  after : 4 ≤ n → 4 ≤ ts.length

theorem rembTimes_map (now : Int) (as : List Action) :
    rembTimes (as.map (now, ·)) = (as.filter Action.isRemb).map fun _ => now := by
  simp [rembTimes, List.filter_map, Function.comp_def]

theorem scheduled_rembs (t0 : Int) (evs : List Event) (outs : List (Int × Action)) (now : Int) :
    ((scheduled t0 evs outs now).filter Action.isRemb).map (fun _ => now) =
      if liveVideos evs < 4 ∨ 5 * usecPerSec ≤ now - lastAt Action.isRemb t0 outs then [now]
      else [] := by
  unfold scheduled
  by_cases hn : liveVideos evs < 4
  · simp only [hn, true_or, if_true]
    split <;> simp [Action.isRemb, Action.isPli]
  · by_cases hd : 5 * usecPerSec ≤ now - lastAt Action.isRemb t0 outs
    · simp only [hn, hd, or_true, if_true, if_false]
      split <;> simp [Action.isRemb, Action.isPli]
    · simp only [hn, hd, or_self, if_false]
      split <;> simp [Action.isRemb, Action.isPli]

/-- The REMBs of one packet: at most one, at its reading. -/
theorem rembTimes_rtp (ht : Tracks t0 evs outs f) (live recorder video : Bool) (ssrc : UInt32)
    (now : Int) :
    rembTimes (f.handle (.rtp live recorder video ssrc now)).2 =
      if (Event.rtp live recorder video ssrc now).fedVideo (simulcastOf evs) ∧
        (liveVideos evs < 4 ∨ 5 * usecPerSec ≤ now - lastAt Action.isRemb t0 outs) then [now]
      else [] := by
  have hs : ((if recorder then [Action.save video] else []).filter Action.isRemb) = [] := by
    split_ifs <;> rfl
  rw [ht.rtp, rembTimes_map]
  by_cases ha : admits (simulcastOf evs) live video ssrc
  · cases video
    · simp [ha, hs, Event.fedVideo]
    · rw [if_pos ha, List.filter_append, hs, List.nil_append, if_pos rfl, scheduled_rembs]
      simp only [Event.fedVideo, ha, Bool.and_self, true_and]
  · simp [ha, Event.fedVideo]

/-- A ramp-up REMB. -/
theorem Spaced.rampup_step {n : Nat} {ts : List Int} (hs : Spaced n ts) (hn : n < 4) (now : Int) :
    Spaced (n + 1) (ts ++ [now]) := by
  have hlen := hs.rampup hn
  refine ⟨?_, fun _ => by simp [hlen], fun h => by
    simp only [List.length_append, List.length_singleton]; omega⟩
  rw [List.drop_append_eq_append_drop, List.drop_eq_nil_of_le (show ts.length ≤ 3 by omega),
    List.nil_append]
  cases 3 - ts.length <;> simp

/-- A REMB after the ramp-up, five seconds after the last one. -/
theorem Spaced.due_step {n : Nat} {ts : List Int} (hs : Spaced n ts) (hn : 4 ≤ n) {now t0 : Int}
    (hd : 5 * usecPerSec ≤ now - ts.getLast?.getD t0) : Spaced (n + 1) (ts ++ [now]) := by
  have hlen := hs.after hn
  refine ⟨?_, fun h => absurd h (by omega), fun _ => by simp; omega⟩
  rw [List.drop_append_of_le_length (by omega)]
  refine List.chain'_append.mpr ⟨hs.chain, List.chain'_singleton _, fun x hx y hy => ?_⟩
  obtain ⟨l, a, hl⟩ : ∃ l a, ts = l ++ [a] :=
    ⟨ts.dropLast, ts.getLast (by rintro rfl; simp at hlen), (List.dropLast_append_getLast _).symm⟩
  subst hl
  simp only [List.length_append, List.length_singleton] at hlen
  rw [List.drop_append_of_le_length (by omega), List.getLast?_append_of_ne_nil _ (by simp)] at hx
  simp at hx hy hd
  omega

/-- A video packet after the ramp-up that gets no REMB. -/
theorem Spaced.skip_step {n : Nat} {ts : List Int} (hs : Spaced n ts) (hn : 4 ≤ n) :
    Spaced (n + 1) ts :=
  ⟨hs.chain, fun h => absurd h (by omega), fun _ => hs.after hn⟩

theorem Tracks.handle' (ht : Tracks t0 evs outs f) (hs : Spaced (liveVideos evs) (rembTimes outs))
    (e : Event) : Spaced (liveVideos (evs ++ [e])) (rembTimes (outs ++ (f.handle e).2)) := by
  cases e with
  | rtp live recorder video ssrc now =>
    rw [rembTimes_append, rembTimes_rtp ht, liveVideos_append]
    by_cases hfv : (Event.rtp live recorder video ssrc now).fedVideo (simulcastOf evs) = true
    · by_cases hn : liveVideos evs < 4
      · simpa [hfv, hn] using hs.rampup_step hn now
      · by_cases hd : 5 * usecPerSec ≤ now - lastAt Action.isRemb t0 outs
        · rw [lastAt_remb] at hd
          simpa [hfv, hn, hd, lastAt_remb] using hs.due_step (by omega) hd
        · simpa [hfv, hn, hd] using hs.skip_step (by omega)
    · simpa [hfv] using hs
  | configure => simpa [Feedback.handle, Event.fedVideo] using hs
  | record => simpa [Feedback.handle, Event.fedVideo] using hs
  | hangup => simpa [Feedback.handle, Event.fedVideo] using hs

/-- Every action of a run carries the reading of one of its packets. -/
theorem feed_readings (f : Feedback) (evs : List Event) :
    ∀ x ∈ (feed f evs).2,
      ∃ live recorder video ssrc, Event.rtp live recorder video ssrc x.1 ∈ evs := by
  refine feed_induct (fun evs outs _ => ∀ x ∈ outs, ∃ l r v c, Event.rtp l r v c x.1 ∈ evs)
    (fun evs outs g e h x hx => ?_) (by simp) evs
  rcases List.mem_append.mp hx with hx | hx
  · obtain ⟨l, r, v, c, hm⟩ := h x hx
    exact ⟨l, r, v, c, List.mem_append_left _ hm⟩
  · cases e with
    | rtp l r v c now =>
      obtain ⟨a, -, rfl⟩ := List.mem_map.mp hx
      exact ⟨l, r, v, c, by simp⟩
    | _ => simp [Feedback.handle] at hx

theorem lastAt_mem (isIt : Action → Bool) (d : Int) (outs : List (Int × Action)) :
    lastAt isIt d outs = d ∨ ∃ x ∈ outs, lastAt isIt d outs = x.1 := by
  unfold lastAt
  cases h : (outs.filter (isIt ·.2)).getLast? with
  | none => exact .inl rfl
  | some x => exact .inr ⟨x, List.mem_of_mem_filter (List.mem_of_getLast?_eq_some h), rfl⟩

theorem keyframeUsec_of_lt {k : UInt32} (hk : k.toNat < 1000) : keyframeUsec k = 0 := by
  have h : (k / 1000).toNat = 0 := by
    rw [UInt32.toNat_div]
    exact Nat.div_eq_of_lt hk
  simp only [keyframeUsec, h, Int.ofNat_zero, Int.zero_mul]

end Rates

/-- For every history of a session, after the ramp-up its REMBs go out at least five seconds
apart, whatever the readings (a clock that went back only delays the next one), and during the
ramp-up each of the first four video packets that got past the checks of `incoming_rtp` (live,
and from the base substream while a record request has set one) has had its REMB. -/
theorem remb_spacing (t0 : Int) (evs : List Event) :
    Spaced (liveVideos evs) (rembTimes (feed (.create t0) evs).2) :=
  (feed_induct (fun evs outs f => Tracks t0 evs outs f ∧ Spaced (liveVideos evs) (rembTimes outs))
    (fun _ _ _ e h => ⟨h.1.handle e, h.1.handle' h.2 e⟩)
    ⟨tracks_create t0, ⟨List.chain'_nil, fun _ => rfl, fun h => absurd h (by decide)⟩⟩ evs).2

/-- With a keyframe interval under 1000 ms, which `video_keyframe_interval / 1000` makes 0 whole
seconds, a live video packet of a session gets a PLI exactly when it gets past the simulcast
filter: when no record request has set a base substream, or it comes from that substream. This
holds when no earlier packet was read later and the reading is not negative. -/
theorem pli_every_packet (t0 : Int) (evs : List Event) (recorder : Bool) (ssrc : UInt32)
    (now : Int) (hk : (configured Event.kfi 15000 evs).toNat < 1000) (h0 : 0 ≤ now)
    (hle : ∀ live recorder video ssrc t,
      Event.rtp live recorder video ssrc t ∈ evs → t ≤ now) :
    (now, Action.pli) ∈
        ((feed (.create t0) evs).1.handle (.rtp true recorder true ssrc now)).2 ↔
      simulcastOf evs = 0 ∨ ssrc = simulcastOf evs := by
  have hp : lastAt Action.isPli 0 (feed (.create t0) evs).2 ≤ now := by
    rcases lastAt_mem Action.isPli 0 (feed (.create t0) evs).2 with h | ⟨x, hx, h⟩
    · rw [h]; exact h0
    · obtain ⟨l, r, v, c, hm⟩ := feed_readings _ evs x hx
      rw [h]; exact hle l r v c x.1 hm
  have hn : 0 ≤ now - lastAt Action.isPli 0 (feed (.create t0) evs).2 := by omega
  have hadm : admits (simulcastOf evs) true true ssrc = true ↔
      simulcastOf evs = 0 ∨ ssrc = simulcastOf evs := by
    simp [admits]
  rw [(tracks_feed t0 evs).rtp, ← hadm]
  by_cases ha : admits (simulcastOf evs) true true ssrc = true
  · simp only [ha, if_true, scheduled, keyframeUsec_of_lt hk, List.map_append, List.mem_append,
      List.mem_map, iff_true]
    exact .inr (.inr ⟨.pli, by simp [hn], rfl⟩)
  · simp [ha]

/-- A session that records with the simulcast base substream 7 and a 500 ms keyframe interval,
and whose video packet of substream 7 came at 1 s. -/
def halfSecond : List Event :=
  [.configure none (some 500), .record (some 7), .rtp true true true 7 1000000]

/-- At 1.2 s a packet of substream 7 gets a PLI, one of substream 9 none. -/
theorem pli_every_packet_half_second :
    (configured Event.kfi 15000 halfSecond).toNat < 1000 ∧ (0 : Int) ≤ 1200000 ∧
      (∀ live recorder video ssrc t, Event.rtp live recorder video ssrc t ∈ halfSecond →
        t ≤ 1200000) ∧
      (1200000, Action.pli) ∈
        ((feed (.create 0) halfSecond).1.handle (.rtp true true true 7 1200000)).2 ∧
      (1200000, Action.pli) ∉
        ((feed (.create 0) halfSecond).1.handle (.rtp true true true 9 1200000)).2 :=
  have hle : ∀ live recorder video ssrc t, Event.rtp live recorder video ssrc t ∈ halfSecond →
      t ≤ 1200000 := fun _ _ _ _ _ h => by simp [halfSecond] at h; omega
  ⟨by decide, by decide, hle,
    (pli_every_packet 0 halfSecond true 7 1200000 (by decide) (by decide) hle).mpr (by decide),
    fun h => absurd ((pli_every_packet 0 halfSecond true 9 1200000 (by decide) (by decide)
      hle).mp h) (by decide)⟩

end AuviousRecordPlay.Rtcp
