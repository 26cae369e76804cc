import UnvStream.ControlSegmentation
import UnvStream.CheckedMemory

/-!
# The two copies of `recvBytes`

Both receive into a buffer of their own. The client copies the buffer to the caller's
array; the server clears the caller's array and then lets its parameter point to the
buffer, which the caller does not see.
-/

namespace ReceivedBytes

open CheckedMemory ControlSegmentation

/-- `char [ MAXRECV + 1 ]`. -/
abbrev Bytes := Vector UInt8 (maxRecv + 1)

def zeros : Bytes := Vector.replicate (maxRecv + 1) 0

/-- What `::recv` does with a buffer of MAXRECV bytes. -/
inductive Outcome where
  | error
  | endOfStream
  | received (bytes : List UInt8) (nonempty : bytes ≠ []) (fits : bytes.length ≤ maxRecv)

def Outcome.status : Outcome → Int
  | .error => -1
  | .endOfStream => 0
  | .received bytes _ _ => bytes.length

/-- The buffer after `::recv`. -/
def Outcome.fill (outcome : Outcome) (buf : Bytes) : Bytes :=
  match outcome with
  | .error | .endOfStream => buf
  | .received bytes _ _ => Vector.ofFn fun i => bytes[i.val]?.getD buf[i]

/-- What the parameter `s` points to. -/
inductive Pointer where
  | caller
  | buf

/-- The arrays that a call of `recvBytes` can reach. -/
structure Frame where
  s : Pointer
  caller : Bytes
  buf : Bytes

/-- `memset ( s, 0, MAXRECV + 1 )`. -/
def Frame.memset (f : Frame) : Frame :=
  match f.s with
  | .caller => { f with caller := zeros }
  | .buf => { f with buf := zeros }

/-- `memcpy ( s, buf, MAXRECV + 1 )`. -/
def Frame.memcpy (f : Frame) : Frame :=
  match f.s with
  | .caller => { f with caller := f.buf }
  | .buf => f

/-- `Socket::recvBytes` of the server, with what it leaves in the caller's array. -/
def Server.recvBytes (outcome : Outcome) (caller : Bytes) : Bytes × Int :=
  let f : Frame := ⟨.caller, caller, zeros⟩
  let f := f.memset
  let f := { f with buf := outcome.fill f.buf }
  if outcome.status = -1 then (f.caller, 0)
  else if outcome.status = 0 then (f.caller, 0)
  else
    let f := { f with s := .buf }
    (f.caller, outcome.status)

/-- `Socket::recvBytes` of the client. -/
def Client.recvBytes (outcome : Outcome) (caller : Bytes) : Bytes × Int :=
  let f : Frame := ⟨.caller, caller, zeros⟩
  let f := { f with buf := outcome.fill f.buf }
  if outcome.status = -1 then (f.caller, 0)
  else if outcome.status = 0 then (f.caller, 0)
  else
    let f := f.memcpy
    (f.caller, outcome.status)

/-- `ServerSocket::recv` and `ClientSocket::recv`, which throw where nothing is returned. -/
def recv (recvBytes : Outcome → Bytes → Bytes × Int) (outcome : Outcome) (caller : Bytes) :
    Bytes × Option Int :=
  let (caller, ret) := recvBytes outcome caller
  (caller, if ret = 0 then none else some ret)

/-- The received bytes are in the caller's array, or it is unchanged. -/
def Delivered (outcome : Outcome) (caller : Bytes) (result : Bytes × Int) : Prop :=
  match outcome with
  | .error | .endOfStream => result.1 = caller
  | .received bytes _ _ => region result.1 0 result.2.toNat = bytes

/-- The copies return the same, leave the same, and both deliver. -/
structure Agree (outcome : Outcome) (caller : Bytes) : Prop where
  returned : (Server.recvBytes outcome caller).2 = (Client.recvBytes outcome caller).2
  thrown : (recv Server.recvBytes outcome caller).2 = (recv Client.recvBytes outcome caller).2
  left : (Server.recvBytes outcome caller).1 = (Client.recvBytes outcome caller).1
  server : Delivered outcome caller (Server.recvBytes outcome caller)
  client : Delivered outcome caller (Client.recvBytes outcome caller)

/-- Only zeros are received, or the caller's array holds only zeros when nothing is. -/
def Unnoticed (outcome : Outcome) (caller : Bytes) : Prop :=
  match outcome with
  | .error | .endOfStream => caller = zeros
  | .received bytes _ _ => ∀ b ∈ bytes, b = 0

theorem region_zeros {n : Nat} (fits : n ≤ maxRecv + 1) :
    region zeros 0 n = List.replicate n 0 := by
  rw [region, zeros, Vector.toList_replicate, List.drop_zero, List.take_replicate,
    Nat.min_eq_left fits]

theorem region_fill (bytes : List UInt8) (nonempty : bytes ≠ []) (fits : bytes.length ≤ maxRecv) :
    region ((Outcome.received bytes nonempty fits).fill zeros) 0 bytes.length = bytes := by
  apply List.ext_getElem?
  intro j
  by_cases inside : j < bytes.length
  · have cell : j < maxRecv + 1 := by omega
    rw [region_getElem? _ 0 _ j inside, Nat.zero_add, Vector.getElem?_eq_getElem cell]
    simp only [Outcome.fill, Vector.getElem_ofFn, List.getElem?_eq_getElem inside,
      Option.getD_some]
  · have len := region_length ((Outcome.received bytes nonempty fits).fill zeros)
      (by omega : 0 + bytes.length ≤ maxRecv + 1)
    rw [List.getElem?_eq_none (by omega), List.getElem?_eq_none (by omega)]

/-- Zeros received into a cleared buffer cannot be seen in it. -/
theorem fill_zeros {bytes : List UInt8} {nonempty : bytes ≠ []} {fits : bytes.length ≤ maxRecv}
    (only : ∀ b ∈ bytes, b = 0) : (Outcome.received bytes nonempty fits).fill zeros = zeros := by
  apply Vector.ext
  intro i hi
  simp only [Outcome.fill, Vector.getElem_ofFn, zeros, Fin.getElem_fin, Vector.getElem_replicate]
  cases there : bytes[i]? with
  | none => rfl
  | some b => exact only b (List.mem_of_getElem? there)

theorem status_received (bytes : List UInt8) (nonempty : bytes ≠ [])
    (fits : bytes.length ≤ maxRecv) :
    ¬ (Outcome.received bytes nonempty fits).status = -1 ∧
      ¬ (Outcome.received bytes nonempty fits).status = 0 := by
  have positive := List.length_pos_iff.mpr nonempty
  rw [Outcome.status]
  constructor <;> omega

theorem server_received (bytes : List UInt8) (nonempty : bytes ≠ [])
    (fits : bytes.length ≤ maxRecv) (caller : Bytes) :
    Server.recvBytes (.received bytes nonempty fits) caller = (zeros, (bytes.length : Int)) := by
  obtain ⟨failed, closed⟩ := status_received bytes nonempty fits
  rw [Server.recvBytes, if_neg failed, if_neg closed]
  rfl

theorem client_received (bytes : List UInt8) (nonempty : bytes ≠ [])
    (fits : bytes.length ≤ maxRecv) (caller : Bytes) :
    Client.recvBytes (.received bytes nonempty fits) caller =
      ((Outcome.received bytes nonempty fits).fill zeros, (bytes.length : Int)) := by
  obtain ⟨failed, closed⟩ := status_received bytes nonempty fits
  rw [Client.recvBytes, if_neg failed, if_neg closed]
  rfl

/-- Whatever `::recv` does, the copies return the same and the client's delivers. -/
theorem returned_and_delivered (outcome : Outcome) (caller : Bytes) :
    (Server.recvBytes outcome caller).2 = (Client.recvBytes outcome caller).2 ∧
      Delivered outcome caller (Client.recvBytes outcome caller) := by
  cases outcome with
  | error | endOfStream => exact ⟨rfl, rfl⟩
  | received bytes nonempty fits =>
    rw [server_received, client_received]
    exact ⟨rfl, region_fill bytes nonempty fits⟩

theorem recv_thrown {outcome : Outcome} {caller : Bytes}
    {f f' : Outcome → Bytes → Bytes × Int} (same : (f outcome caller).2 = (f' outcome caller).2) :
    (recv f outcome caller).2 = (recv f' outcome caller).2 := by
  simp only [recv, same]

/-- The two copies of `recvBytes` agree exactly where the difference cannot be seen. -/
theorem agree_iff_unnoticed (outcome : Outcome) (caller : Bytes) :
    Agree outcome caller ↔ Unnoticed outcome caller := by
  obtain ⟨returned, client⟩ := returned_and_delivered outcome caller
  constructor
  · rintro ⟨_, _, left, server, _⟩
    cases outcome with
    | error | endOfStream => exact left.symm
    | received bytes nonempty fits =>
      rw [server_received] at server
      have zero : region zeros 0 bytes.length = bytes := server
      rw [region_zeros (by omega)] at zero
      exact fun b among => List.eq_of_mem_replicate (zero.symm ▸ among)
  · intro unnoticed
    have left : (Server.recvBytes outcome caller).1 = (Client.recvBytes outcome caller).1 := by
      cases outcome with
      | error | endOfStream => exact Eq.symm unnoticed
      | received bytes nonempty fits =>
        rw [server_received, client_received]
        exact (@fill_zeros bytes nonempty fits unnoticed).symm
    have same : Server.recvBytes outcome caller = Client.recvBytes outcome caller :=
      Prod.ext left returned
    exact ⟨returned, recv_thrown returned, left, same ▸ client, client⟩

/-- One byte is received. -/
theorem one_byte_not_delivered :
    ¬ Agree (.received [1] (by decide) (by decide)) zeros := by
  rintro ⟨_, _, _, server, _⟩
  rw [server_received] at server
  have zero : region zeros 0 1 = [1] := server
  rw [region_zeros (by decide)] at zero
  cases zero

end ReceivedBytes
