import AuviousRecordPlay.Container
import AuviousRecordPlay.Index
import AuviousRecordPlay.Order
import AuviousRecordPlay.GetFrames
import AuviousRecordPlay.Playout
import AuviousRecordPlay.Plugin
import AuviousRecordPlay.Refcount
import AuviousRecordPlay.Registry
import AuviousRecordPlay.Playback
import AuviousRecordPlay.Hangup
import AuviousRecordPlay.Rtcp
import AuviousRecordPlay.Locks
import AuviousRecordPlay.Codec
import AuviousRecordPlay.PlayoutEnds
