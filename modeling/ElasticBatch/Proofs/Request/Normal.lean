import ElasticBatch.Proofs.Request.Framing
import ElasticBatch.Proofs.Wire.Shortest

/-! Messages that are passed on. To read a message and write the request again leaves out the
padding and what followed the request, and nothing else: the outcome is the shortest message there
is of that request. -/
namespace ElasticBatch.Request

open Wire

theorem shortest_framed {bs : List Bytes} {piece : Bytes} (framed : Framed bs piece) :
    Shortest (bs.flatMap writeBuffer) piece := by
  induction framed with
  | nil => exact .refl []
  | @cons b length bs rest number others ih =>
      have buffer := (Varint.shortest_write number.groups).append (.refl b)
      rw [← List.append_assoc]
      exact buffer.append ih

theorem shortest_section {bs : List Bytes} {piece : Bytes} (spelled : Section bs piece) :
    Shortest (writeSection bs) piece := by
  obtain ⟨number, framed⟩ := spelled
  exact (Varint.shortest_write number.groups).append (shortest_framed framed)

theorem shortest_layout {r : Request} {piece : Bytes} (spelled : r.Layout piece) :
    Shortest r.layout piece := by
  obtain ⟨one, two, three, first, second, third, rfl⟩ := spelled
  rw [List.append_assoc]
  exact (shortest_section first).append
    ((shortest_section second).append (shortest_section third))

theorem Opens.shortest {r : Request} {message : ByteArray} (opens : r.Opens message) :
    Shortest r.layout message.data.toList := by
  obtain ⟨piece, tail, spelled, ahead⟩ := opens
  rw [ahead]
  exact (shortest_layout spelled).trailing tail

theorem shortest_of_decode {message : ByteArray} {r : Request} (accepted : decode message = .ok r) :
    message.size ≤ limit ∧ Shortest r.layout message.data.toList := by
  obtain ⟨short, opens⟩ := ((decode_exactly message).1 r).mp accepted
  exact ⟨short, opens.shortest⟩

/-- Reads a message and writes the request again. -/
def normalize (message : ByteArray) : Except Error Bytes := decode message >>= encode

/-- A request that was received can be sent again. It is written no longer than it came, as short as
a message of that request can be, and no other message of that request is as short. To read and
write it once more changes nothing. A message is never shorter than the payload of its request with
a byte for each buffer and for each collection. -/
theorem normalize_shortest (message : ByteArray) (r : Request) (accepted : decode message = .ok r) :
    ∃ e, r.encode = .ok e ∧ e.length ≤ message.size ∧ decode e.toByteArray = .ok r ∧
      (∀ other : ByteArray, decode other = .ok r →
        e.length ≤ other.size ∧ (other.size = e.length → other = e.toByteArray)) ∧
      normalize message = .ok e ∧ normalize e.toByteArray = .ok e ∧
      r.totalBytes + r.count + 3 ≤ message.size := by
  have size (other : ByteArray) : other.data.toList.length = other.size := by
    rw [Array.length_toList, ByteArray.size_data]
  obtain ⟨short, shortest⟩ := shortest_of_decode accepted
  have shrinks := shortest.le
  rw [size] at shrinks
  have written : r.encode = .ok r.layout :=
    encode_eq_ok_iff.mpr ⟨rfl, Nat.le_trans shrinks short⟩
  have back : decode r.layout.toByteArray = .ok r := by
    have opens := opens_written written []
    rw [List.append_nil] at opens
    refine decode_of_opens ?_ opens
    rw [List.size_toByteArray]
    exact Nat.le_trans shrinks short
  refine ⟨r.layout, written, shrinks, back, ?_, ?_, ?_, ?_⟩
  · intro other also
    obtain ⟨-, least⟩ := shortest_of_decode also
    refine ⟨size other ▸ least.le, fun same => ?_⟩
    apply ByteArray.ext
    apply Array.toList_inj.mp
    rw [List.data_toByteArray]
    exact least.unique ((size other).trans same)
  · rw [normalize, accepted]
    exact written
  · rw [normalize, back]
    exact written
  · have framing := r.le_encodedSize
    rw [← length_layout] at framing
    exact Nat.le_trans framing shrinks

/-- One empty buffer, counted in three groups where one would do, and two bytes behind the
request. -/
def padded : ByteArray := [129, 128, 0, 0, 0, 0, 7, 7].toByteArray

theorem padding_left_out :
    let r : Request := ⟨[[]], [], []⟩
    decode padded = .ok r ∧ normalize padded = .ok [1, 0, 0, 0] ∧
      normalize [1, 0, 0, 0].toByteArray = .ok [1, 0, 0, 0] ∧
      ∀ other : ByteArray, decode other = .ok r → 4 ≤ other.size := by
  intro r
  have accepted : decode padded = .ok r := rfl
  have written : r.encode = .ok [1, 0, 0, 0] := by cbv
  obtain ⟨e, also, -, -, least, again, still, -⟩ := normalize_shortest padded r accepted
  rw [written] at also
  cases also
  exact ⟨accepted, again, still, fun other same => (least other same).1⟩

end ElasticBatch.Request
