import UnvStream.FrameSender
import UnvStream.ClientReceiver

/-!
# Whole frames over TCP

Without the fragmentation code every encoded frame is one call of `addFrame`, and
the bytes of the calls that observe PLAYING form one stream. TCP may cut the stream
anywhere; the client copies every result of `recv` to its standard output.
-/

namespace WholeFrameDelivery

open Vocabulary FragmentLoop FrameSender ClientReceiver

def wireBytes (wire : List Sent) : List UInt8 := (wire.map Sent.bytes).flatten

/-- Results of `recv` of at most `BUFFSIZE` bytes, some of them errors or empty,
that carry the stream `bytes` to its end. -/
structure Segmentation (bytes : List UInt8) (results : List RecvResult) : Prop where
  sizes : ∀ result ∈ results, result.bytes.length ≤ buffSize
  carried : (results.map RecvResult.bytes).flatten = bytes

theorem encoded_fits (frames : List EncodedFrame) :
    ∀ f ∈ frames.map EncodedFrame.bytes, f.length ≤ frameQSize := by
  have larger : outBufferSize ≤ frameQSize := by decide
  intro f hf
  obtain ⟨frame, _, rfl⟩ := List.mem_map.mp hf
  exact Nat.le_trans frame.room larger

theorem wireBytes_wrap (tlayer : Transport) (frames : List (List UInt8)) :
    wireBytes (frames.map (wrap tlayer)) = frames.flatten := by
  have bytes : Sent.bytes ∘ wrap tlayer = id := funext (wrap_bytes tlayer)
  rw [wireBytes, List.map_map, bytes, List.map_id]

/-- The client writes the stream, however it is cut. -/
theorem receive_segmentation {vcodec : VideoCodec} (iPortNum : Nat) (r : Receiver)
    {bytes : List UInt8} {results : List RecvResult} (cut : Segmentation bytes results) :
    ∃ r' outs, receiveAll .useTCP vcodec iPortNum r results = some (r', outs) ∧
      outs.flatten = bytes := by
  have mode : ¬ (Transport.useTCP = .useUDP ∧ vcodec = .useMJPEG) := fun h => by cases h.1
  obtain ⟨r', run⟩ := receiveAll_whole mode iPortNum r results cut.sizes
  exact ⟨r', _, run, cut.carried⟩

end WholeFrameDelivery
